import OwlStructure.Proofs.Encoding.Axiom
import OwlStructure.Proofs.Encoding.Nesting
import OwlStructure.Proofs.Encoding.Stats
import OwlStructure.Proofs.Json.Compact

/-!
What is read is read again from what is written for it. A text may write a value in many ways, with
blanks, escapes, unknown fields, records as arrays, and sets with repeated items in any order; the
value that it is read as is written in one way, and that is read as the same value.
-/
namespace OwlStructure

open Json

/-- Any value that is read, from a text or within a limit, is read again, from the compact text that
is written for it and within the same limit. What is written is nested neither deeper than the limit
nor deeper than what was read. -/
structure Rereads {α : Type} (read : Nat → Json → Option α) (encode : α → Json) : Prop where
  text : ∀ text x, ofText? read text = some x → ofText? read (encode x).compact = some x
  nesting : ∀ limit j x, read limit j = some x →
    read limit (encode x) = some x ∧ (encode x).depth ≤ limit ∧ (encode x).depth ≤ j.depth

theorem Json.Fits.rereads {α : Type} {read : Nat → Json → Option α} {encode : α → Json}
    (h : Fits read encode)
    (hrestores : ∀ limit j x, read limit j = some x → Restores read (encode x) x) :
    Rereads read encode := by
  have hagain {limit : Nat} {j : Json} {x : α} (hx : read limit j = some x) :
      read limit (encode x) = some x := by
    rw [hrestores limit j x hx limit, if_pos (h limit j x hx).1]
  refine ⟨fun text x hx => ?_, fun limit j x hx => ⟨hagain hx, h limit j x hx⟩⟩
  obtain ⟨j, -, hj⟩ := Option.bind_eq_some_iff.1 hx
  rw [ofText?_compact]
  exact hagain hj

/-! ### Axioms -/

namespace AxiomType

theorem restores (t : AxiomType) : Restores decode? t.encode t :=
  .flat rfl fun _ => t.ofName?_name

theorem fits : Fits decode? encode := .flat fun _ => rfl

end AxiomType

namespace AxiomKind

/-- The kinds over a set of operands have one, and a property chain has a member. -/
def HasOperands : AxiomKind → Prop
  | .equivalentClasses ops | .disjointClasses ops | .disjointUnion _ ops => ∃ c, c ∈ ops
  | .equivalentObjectProperties ops | .disjointObjectProperties ops => ∃ p, p ∈ ops
  | .equivalentDataProperties ops | .disjointDataProperties ops => ∃ p, p ∈ ops
  | .sameIndividual ops | .differentIndividuals ops => ∃ i, i ∈ ops
  | .subPropertyChainOf chain _ => ∃ p, p ∈ chain
  | _ => True

theorem fault?_eq_none_iff {k : AxiomKind} : k.fault? = none ↔ k.HasOperands := by
  have hlist {α : Type} {l : List α} {e : ModelError} :
      (if l.isEmpty then some e else none) = none ↔ ∃ x, x ∈ l := by
    cases l <;> simp
  cases k with
  | equivalentClasses | disjointClasses | disjointUnion | equivalentObjectProperties
  | disjointObjectProperties | equivalentDataProperties | disjointDataProperties | sameIndividual
  | differentIndividuals | subPropertyChainOf => exact hlist
  | _ => exact iff_of_true rfl trivial

end AxiomKind

namespace Axiom

theorem exists_ofKind?_iff {k : AxiomKind} : (∃ a, ofKind? k = .ok a) ↔ k.HasOperands := by
  simp only [ofKind?_eq_ok_iff, ← AxiomKind.fault?_eq_none_iff]
  constructor
  · rintro ⟨a, rfl⟩
    exact a.valid
  · exact fun h => ⟨⟨k, h⟩, rfl⟩

/-- A text is read as an axiom where it is read as a kind that makes one. -/
theorem ofText?_eq_some_iff {text : String} {a : Axiom} :
    ofText? (decode? true) text = some a ↔
      ∃ k, ofText? (AxiomKind.decode? true) text = some k ∧ ofKind? k = .ok a := by
  have hread : ofText? (decode? true) text = some a ↔
      ofText? (AxiomKind.decode? true) text = some a.kind := by
    simp only [ofText?, Option.bind_eq_some_iff, decode?_eq_some_iff]
  simp only [hread, ofKind?_eq_ok_iff, exists_eq_right']

end Axiom

/-! ### The model -/

/-- All parts of the model, and the books of caches and ontologies, are read again from what is
written for them. A text is read as an axiom exactly where it is read as a kind that makes one: a
kind with its operands, or with the members of its chain. The axiom has that kind. -/
theorem model_rereads :
    (Rereads Iri.decode? Iri.encode ∧ Rereads Entity.decode? Entity.encode ∧
      Rereads Individual.decode? Individual.encode ∧ Rereads Literal.decode? Literal.encode ∧
      Rereads DataRange.decode? DataRange.encode ∧
      Rereads ObjectPropertyExpression.decode? ObjectPropertyExpression.encode ∧
      Rereads (ClassExpression.decode? true) ClassExpression.encode ∧
      Rereads AxiomType.decode? AxiomType.encode ∧
      Rereads (AxiomKind.decode? true) AxiomKind.encode ∧
      Rereads (Axiom.decode? true) Axiom.encode ∧ Rereads CacheStats.decode? CacheStats.encode ∧
      Rereads OntologyStats.decode? OntologyStats.encode) ∧
      (∀ text a, ofText? (Axiom.decode? true) text = some a ↔
        ∃ k, ofText? (AxiomKind.decode? true) text = some k ∧ Axiom.ofKind? k = .ok a) ∧
      (∀ k a, Axiom.ofKind? k = .ok a ↔ a.kind = k ∧ k.HasOperands) ∧
      ∀ k, (∃ a, Axiom.ofKind? k = .ok a) ↔ k.HasOperands := by
  refine ⟨⟨?_, ?_, ?_, ?_, ?_, ?_, ?_, ?_, ?_, ?_, ?_, ?_⟩, fun _ _ => Axiom.ofText?_eq_some_iff,
    fun k a => ?_, fun _ => Axiom.exists_ofKind?_iff⟩
  · exact Iri.fits.rereads fun _ _ i _ => i.restores
  · exact Entity.fits.rereads fun _ _ e _ => e.restores
  · exact Individual.fits.rereads fun _ _ i _ => i.restores
  · exact Literal.fits.rereads fun _ _ l _ => l.restores
  · exact DataRange.fits.rereads fun _ _ r _ => r.restores
  · exact ObjectPropertyExpression.fits.rereads fun _ _ e _ => e.restores
  · exact (ClassExpression.fits true).rereads fun _ _ c _ => c.restores true
  · exact AxiomType.fits.rereads fun _ _ t _ => t.restores
  · exact (AxiomKind.fits true).rereads fun _ _ k _ => k.restores true
  · exact (Axiom.fits true).rereads fun _ _ a _ => a.restores true
  · exact CacheStats.fits.rereads fun _ _ _ h =>
      CacheStats.restores (CacheStats.hasCounts_of_decode? h)
  · exact OntologyStats.fits.rereads fun _ _ _ h =>
      OntologyStats.restores (OntologyStats.hasCounts_of_decode? h)
  · refine Axiom.ofKind?_eq_ok_iff.trans ⟨?_, And.left⟩
    rintro rfl
    exact ⟨rfl, AxiomKind.fault?_eq_none_iff.1 a.valid⟩

/-- Operands between blanks, one of them twice and one with an escape, out of order. -/
theorem model_rereads_operands :
    let named (c : String) := ClassExpression.named ⟨⟨c⟩⟩
    let a : Axiom := ⟨.equivalentClasses (.ofList [named "ex:A", named "ex:B"]), rfl⟩
    let text := "\x7b\"EquivalentClasses\" : [ \x7b\"Class\":\"ex:B\"\x7d, " ++
      "\x7b\"Class\":\"ex:\\u0041\"\x7d, \x7b\"Class\":\"ex:B\"\x7d ] \x7d"
    let compact := "\x7b\"EquivalentClasses\":[\x7b\"Class\":\"ex:A\"\x7d," ++
      "\x7b\"Class\":\"ex:B\"\x7d]\x7d"
    ofText? (Axiom.decode? true) text = some a ∧ a.encode.compact = compact ∧
      ofText? (Axiom.decode? true) compact = some a := by
  intro named a text compact
  obtain ⟨⟨-, -, -, -, -, -, -, -, -, haxiom, -, -⟩, -, -, -⟩ := model_rereads
  have hread : ofText? (Axiom.decode? true) text = some a := by decide +kernel
  have hwritten : a.encode.compact = compact := by decide +kernel
  exact ⟨hread, hwritten, hwritten ▸ haxiom.text text a hread⟩

end OwlStructure
