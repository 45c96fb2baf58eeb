import OwlStructure.AxiomIndex
import OwlStructure.Axiom.Outline
import OwlStructure.Memo.SignatureCache

/-!
Ontologies: axioms in the order in which they came, and imports of other ontologies. The revision
counts the changes so far; an operation that changes nothing leaves the revision as it is.
-/
namespace OwlStructure

/-- A reference to an ontology: its place among all that were made, and its IRI, which is fixed. -/
structure OntologyRef where
  position : Nat
  id : Iri
  deriving DecidableEq

/-- The books of an ontology. -/
structure OntologyStats where
  axiomCount : Nat
  entityCount : Nat
  axiomsByType : SortedMap AxiomType Nat
  importCount : Nat
  revision : Nat

/-- An ontology. The objects are its axioms as they were handed in, each with its identity. An
ontology without a cache of its own looks signatures up in one that it shares. -/
structure Ontology where
  id : Iri
  index : AxiomIndex
  objects : List (Shared Axiom)
  imports : List OntologyRef
  ownCache : Option (SignatureCache Axiom)
  revision : Nat

namespace Ontology

def empty (id : Iri) (ownCache : Option (SignatureCache Axiom)) : Ontology :=
  ⟨id, .empty, [], [], ownCache, 0⟩

def axioms (o : Ontology) : List Axiom := o.index.axioms

def contains (o : Ontology) (a : Axiom) : Bool := o.index.contains a

/-- Adds an axiom unless an equal one is there; says whether it did. The entities that the axiom
mentions are looked up in a cache, named ones first; an axiom that is there costs no lookup. -/
def add (o : Ontology) (cache : SignatureCache Axiom) (object : Shared Axiom) :
    Bool × Ontology × SignatureCache Axiom :=
  if o.contains object.value then (false, o, cache)
  else
    let (named, cache) := cache.signatureOf object
    let (anonymous, cache) := cache.anonymousOf object
    let references := named.toList ++ anonymous.toList.map .anonymousIndividual
    (true,
      { o with
        index := (o.index.insert object.value references).2
        objects := o.objects ++ [object]
        revision := o.revision + 1 },
      cache)

@[simp] theorem add_id (o : Ontology) (cache : SignatureCache Axiom) (object : Shared Axiom) :
    (o.add cache object).2.1.id = o.id := by
  unfold add
  split <;> rfl

/-- Removes an axiom; says whether it was there. -/
def remove (o : Ontology) (a : Axiom) : Bool × Ontology :=
  match o.index.remove a with
  | (true, index) =>
    (true,
      { o with
        index
        objects := o.objects.filter fun x => decide (x.value ≠ a)
        revision := o.revision + 1 })
  | (false, _) => (false, o)

@[simp] theorem remove_id (o : Ontology) (a : Axiom) : (o.remove a).2.id = o.id := by
  unfold remove
  split <;> rfl

/-- Adds an import unless one with the same IRI is there; says whether it did. -/
def addImport (o : Ontology) (target : OntologyRef) : Bool × Ontology :=
  if o.imports.any fun r => r.id == target.id then (false, o)
  else (true, { o with imports := o.imports ++ [target], revision := o.revision + 1 })

@[simp] theorem addImport_id (o : Ontology) (target : OntologyRef) :
    (o.addImport target).2.id = o.id := by
  unfold addImport
  split <;> rfl

/-- Removes the import of an IRI; says whether there was one. -/
def removeImport (o : Ontology) (id : Iri) : Bool × Ontology :=
  if o.imports.any fun r => r.id == id then
    (true, { o with imports := o.imports.filter fun r => r.id != id, revision := o.revision + 1 })
  else (false, o)

@[simp] theorem removeImport_id (o : Ontology) (id : Iri) : (o.removeImport id).2.id = o.id := by
  unfold removeImport
  split <;> rfl

/-- The named entities that the axioms mention. -/
def signature (o : Ontology) : SortedSet Entity := o.index.mentioned.filter fun e => !e.isAnonymous

def stats (o : Ontology) : OntologyStats where
  axiomCount := o.index.size
  entityCount := o.index.mentioned.size
  axiomsByType := o.index.typeCounts
  importCount := o.imports.length
  revision := o.revision

def outline (o : Ontology) : Outline :=
  .record "Ontology" [
    ("id", o.id.outline), ("axioms", .nat o.index.size), ("revision", .nat o.revision)]

end Ontology

def SignatureCache.outline [HasEntities α] (c : SignatureCache α) : Outline :=
  .record "SignatureCache" [
    ("capacity", .nat c.capacity), ("signatures", .nat c.signatures.size),
    ("anonymous", .nat c.anonymous.size)]

end OwlStructure
