import OwlStructure.Collections.Count
import OwlStructure.Ontology

/-!
A library of ontologies. Every ontology ever made keeps its place, so that references stay good; the
registered ones are found by IRI, and no two of them have the same. Ontologies that are made to be
registered share one cache.
-/
namespace OwlStructure

/-- A reference is good when the ontology at its place has its IRI. -/
def OntologyRef.IsGood (ontologies : List Ontology) (r : OntologyRef) : Prop :=
  (ontologies[r.position]?).map Ontology.id = some r.id

instance (ontologies : List Ontology) (r : OntologyRef) : Decidable (r.IsGood ontologies) :=
  inferInstanceAs (Decidable (_ = _))

structure Library where
  ontologies : List Ontology
  registered : List OntologyRef
  cache : SignatureCache Axiom
  nextObject : Nat
  registered_good : ∀ r ∈ registered, r.IsGood ontologies
  registered_nodup : (registered.map OntologyRef.id).Nodup

namespace Library

/-- A library without ontologies, whose shared cache has a capacity. -/
def empty (capacity : Nat) : Library := ⟨[], [], .empty capacity, 0, by simp, by simp⟩

/-- The ontology that a reference stands for. -/
def get (l : Library) (r : OntologyRef) : Ontology :=
  (l.ontologies[r.position]?).getD (.empty r.id none)

theorem isGood_append {ontologies : List Ontology} {r : OntologyRef} (o : Ontology)
    (h : r.IsGood ontologies) : r.IsGood (ontologies ++ [o]) := by
  obtain ⟨x, hx, hid⟩ := Option.map_eq_some_iff.1 h
  have hlt : r.position < ontologies.length := (List.getElem?_eq_some_iff.1 hx).1
  rw [OntologyRef.IsGood, List.getElem?_append_left hlt]
  exact h

/-- Gives an ontology a place. -/
def place (l : Library) (o : Ontology) : OntologyRef × Library :=
  (⟨l.ontologies.length, o.id⟩,
    { l with
      ontologies := l.ontologies ++ [o]
      registered_good := fun r hr => isGood_append o (l.registered_good r hr) })

/-- Makes an ontology that is not registered and has a cache of its own. -/
def standalone (l : Library) (id : Iri) : OntologyRef × Library :=
  l.place (.empty id (some (.empty SignatureCache.defaultCapacity)))

/-- The registered ontology with an IRI. -/
def find? (l : Library) (id : Iri) : Option OntologyRef :=
  l.registered.find? fun r => decide (r.id = id)

def isRegistered (l : Library) (id : Iri) : Bool := (l.find? id).isSome

theorem not_mem_of_isRegistered {l : Library} {id : Iri} (h : ¬ l.isRegistered id = true) :
    id ∉ l.registered.map OntologyRef.id := by
  intro hid
  obtain ⟨r, hr, hrid⟩ := List.mem_map.1 hid
  refine h ?_
  rw [isRegistered, find?, List.find?_isSome]
  exact ⟨r, hr, decide_eq_true hrid⟩

/-- Registers a new ontology without axioms under an IRI that is free. -/
def register (l : Library) (id : Iri) (h : ¬ l.isRegistered id = true) : OntologyRef × Library :=
  let o := Ontology.empty id none
  (⟨l.ontologies.length, id⟩,
    { l with
      ontologies := l.ontologies ++ [o]
      registered := l.registered ++ [⟨l.ontologies.length, id⟩]
      registered_good := fun r hr => by
        rcases List.mem_append.1 hr with hr | hr
        · exact isGood_append o (l.registered_good r hr)
        · cases List.mem_singleton.1 hr
          simp [OntologyRef.IsGood, o, Ontology.empty]
      registered_nodup := by
        have hid := not_mem_of_isRegistered h
        rw [List.map_append, List.nodup_append]
        refine ⟨l.registered_nodup, by simp, fun x hx y hy e => hid ?_⟩
        have hyid : y = id := by simpa using hy
        exact hyid ▸ e ▸ hx })

/-- Makes and registers an ontology, if none with its IRI is registered. -/
def create? (l : Library) (id : Iri) : Except ModelError (OntologyRef × Library) :=
  if h : l.isRegistered id = true then .error (.duplicateOntology id.text)
  else .ok (l.register id h)

/-- Ends the registration of an ontology. -/
def unregister? (l : Library) (id : Iri) : Except ModelError (OntologyRef × Library) :=
  match l.find? id with
  | some r =>
    .ok (r,
      { l with
        registered := l.registered.filter fun r => decide (r.id ≠ id)
        registered_good := fun r hr => l.registered_good r (List.mem_filter.1 hr).1
        registered_nodup := List.filter_sublist.map _ |>.nodup l.registered_nodup })
  | none => .error (.unknownOntology id.text)

/-! ### Changes to one ontology -/

theorem isGood_set {l : Library} {r s : OntologyRef} {o : Ontology} (ho : o.id = (l.get r).id)
    (hs : s.IsGood l.ontologies) : s.IsGood (l.ontologies.set r.position o) := by
  obtain ⟨x, hx, hid⟩ := Option.map_eq_some_iff.1 hs
  by_cases h : r.position = s.position
  · have hlt : s.position < l.ontologies.length := (List.getElem?_eq_some_iff.1 hx).1
    have hget : l.get r = x := by simp [get, h, hx]
    rw [OntologyRef.IsGood, h, List.getElem?_set_self hlt, Option.map_some, ho, hget, hid]
  · rw [OntologyRef.IsGood, List.getElem?_set_ne h]
    exact hs

/-- Puts an ontology in the place of one with the same IRI. -/
def set (l : Library) (r : OntologyRef) (o : Ontology) (h : o.id = (l.get r).id) : Library :=
  { l with
    ontologies := l.ontologies.set r.position o
    registered_good := fun s hs => isGood_set h (l.registered_good s hs) }

/-- Adds an axiom as a new object; says whether the ontology did not have it. -/
def add (l : Library) (r : OntologyRef) (a : Axiom) : Bool × Library :=
  let o := l.get r
  let object : Shared Axiom := ⟨l.nextObject, a⟩
  let l' := { l with nextObject := l.nextObject + 1 }
  match o.ownCache with
  | some cache =>
    let result := o.add cache object
    (result.1, l'.set r { result.2.1 with ownCache := some result.2.2 } (o.add_id cache object))
  | none =>
    let result := o.add l.cache object
    (result.1, { l'.set r result.2.1 (o.add_id l.cache object) with cache := result.2.2 })

/-- Adds axioms one by one, and gives the number of those that the ontology did not have. -/
def addAll (l : Library) (r : OntologyRef) : List Axiom → Nat × Library
  | [] => (0, l)
  | a :: rest =>
    let (added, l) := l.add r a
    let (n, l) := l.addAll r rest
    (if added then n + 1 else n, l)

def remove (l : Library) (r : OntologyRef) (a : Axiom) : Bool × Library :=
  let result := (l.get r).remove a
  (result.1, l.set r result.2 ((l.get r).remove_id a))

def addImport (l : Library) (r target : OntologyRef) : Bool × Library :=
  let result := (l.get r).addImport target
  (result.1, l.set r result.2 ((l.get r).addImport_id target))

def removeImport (l : Library) (r : OntologyRef) (id : Iri) : Bool × Library :=
  let result := (l.get r).removeImport id
  (result.1, l.set r result.2 ((l.get r).removeImport_id id))

/-- The cache that an ontology looks signatures up in. -/
def cacheOf (l : Library) (r : OntologyRef) : SignatureCache Axiom :=
  (l.get r).ownCache.getD l.cache

/-! ### Imports closure -/

/-- How many ontologies have an IRI that is not listed. -/
def unlisted (ontologies : List Ontology) (listed : List Iri) : Nat :=
  ontologies.countP fun o => decide (o.id ∉ listed)

theorem unlisted_cons_lt {ontologies : List Ontology} {listed : List Iri} {o : Ontology} {i : Nat}
    (ho : ontologies[i]? = some o) (h : o.id ∉ listed) :
    unlisted ontologies (o.id :: listed) < unlisted ontologies listed := by
  refine countP_lt_of_imp (a := o) (fun x _ hx => ?_) (List.mem_of_getElem? ho)
    (decide_eq_true h) (by simp)
  simp only [List.mem_cons, not_or, decide_eq_true_eq] at hx ⊢
  exact hx.2

/-- Lists the ontologies of a queue and what they import, first come first served. An ontology whose
IRI is listed is passed over. -/
def listImports (ontologies : List Ontology) (queue : List OntologyRef) (listed : List Iri) :
    List Ontology :=
  match queue with
  | [] => []
  | r :: rest =>
    match _ho : ontologies[r.position]? with
    | none => listImports ontologies rest listed
    | some o =>
      if _h : o.id ∈ listed then listImports ontologies rest listed
      else o :: listImports ontologies (rest ++ o.imports) (o.id :: listed)
termination_by (unlisted ontologies listed, queue.length)
decreasing_by
  · exact Prod.Lex.right _ (by simp)
  · exact Prod.Lex.right _ (by simp)
  · exact Prod.Lex.left _ _ (unlisted_cons_lt _ho _h)

/-- An ontology and all that it imports in any number of steps, nearest first. -/
def importsClosure (l : Library) (r : OntologyRef) : List Ontology :=
  listImports l.ontologies [r] []

/-- Drops what the shared cache keeps for objects that no given ontology, and none in its imports
closure, has; gives their number as well. -/
def purge (l : Library) (roots : List OntologyRef) : Nat × Library :=
  let alive := (roots.flatMap l.importsClosure).flatMap fun o => o.objects.map Shared.id
  let (n, cache) := l.cache.purge fun id => alive.contains id
  (n, { l with cache })

def outline (l : Library) : Outline :=
  .record "OntologyManager" [
    ("ontologies", .nat l.registered.length), ("signatures", l.cache.outline)]

end Library

end OwlStructure
