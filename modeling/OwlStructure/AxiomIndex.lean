import OwlStructure.Collections.SortedMap
import OwlStructure.Axiom.Basic

/-!
Axioms indexed three ways: by type, by the entities that they are about, and by the entities that
they mention. Axioms stay in the order in which they came, in the whole index and in every bucket;
a bucket that runs empty disappears.
-/
namespace OwlStructure

structure AxiomIndex where
  axioms : List Axiom
  byType : SortedMap AxiomType (List Axiom)
  bySubject : SortedMap Entity (List Axiom)
  byReference : SortedMap Entity (List Axiom)

namespace AxiomIndex

/-- A bucket with an axiom at its end, unless it is there. -/
def addToBucket (a : Axiom) (bucket : Option (List Axiom)) : Option (List Axiom) :=
  match bucket with
  | none => some [a]
  | some l => some (if a ∈ l then l else l ++ [a])

/-- A bucket without an axiom; an empty bucket is none. -/
def dropFromBucket (a : Axiom) (bucket : Option (List Axiom)) : Option (List Axiom) :=
  match bucket with
  | none => none
  | some l =>
    match l.erase a with
    | [] => none
    | rest => some rest

variable {κ : Type u} [Keyed κ]

def addUnder (m : SortedMap κ (List Axiom)) (keys : List κ) (a : Axiom) :
    SortedMap κ (List Axiom) :=
  keys.foldl (fun m k => m.alter k (addToBucket a)) m

def dropUnder (m : SortedMap κ (List Axiom)) (keys : List κ) (a : Axiom) :
    SortedMap κ (List Axiom) :=
  keys.foldl (fun m k => m.alter k (dropFromBucket a)) m

/-- The keys whose buckets hold an axiom. -/
def keysOf (m : SortedMap κ (List Axiom)) (a : Axiom) : List κ :=
  (m.entries.filter fun e => decide (a ∈ e.2)).map Prod.fst

def empty : AxiomIndex := ⟨[], ∅, ∅, ∅⟩

def contains (x : AxiomIndex) (a : Axiom) : Bool := decide (a ∈ x.axioms)

/-- Adds an axiom that mentions the given entities; says whether it was new. -/
def insert (x : AxiomIndex) (a : Axiom) (references : List Entity) : Bool × AxiomIndex :=
  if x.contains a then (false, x)
  else
    (true,
      { axioms := x.axioms ++ [a]
        byType := addUnder x.byType [a.type] a
        bySubject := addUnder x.bySubject a.defining a
        byReference := addUnder x.byReference references a })

/-- Removes an axiom; says whether it was there. -/
def remove (x : AxiomIndex) (a : Axiom) : Bool × AxiomIndex :=
  if x.contains a then
    (true,
      { axioms := x.axioms.erase a
        byType := dropUnder x.byType [a.type] a
        bySubject := dropUnder x.bySubject a.defining a
        byReference := dropUnder x.byReference (keysOf x.byReference a) a })
  else (false, x)

/-- The stored axiom that equals the given one. -/
def get? (x : AxiomIndex) (a : Axiom) : Option Axiom := x.axioms.find? fun b => decide (b = a)

def ofType (x : AxiomIndex) (t : AxiomType) : List Axiom := (x.byType.find? t).getD []

/-- The axioms that are about an entity. -/
def about (x : AxiomIndex) (e : Entity) : List Axiom := (x.bySubject.find? e).getD []

/-- The axioms that mention an entity. -/
def mentioning (x : AxiomIndex) (e : Entity) : List Axiom := (x.byReference.find? e).getD []

/-- Every entity that some axiom mentions. -/
def mentioned (x : AxiomIndex) : SortedSet Entity := x.byReference.keys

/-- How many axioms there are of each type that occurs. -/
def typeCounts (x : AxiomIndex) : SortedMap AxiomType Nat := x.byType.mapValues List.length

def size (x : AxiomIndex) : Nat := x.axioms.length

def isEmpty (x : AxiomIndex) : Bool := x.axioms.isEmpty

/-- The named object properties among the entities that are mentioned. -/
def objectProperties (x : AxiomIndex) : SortedSet ObjectProperty :=
  .ofList (x.mentioned.toList.filterMap Entity.asObjectProperty?)

end AxiomIndex

end OwlStructure
