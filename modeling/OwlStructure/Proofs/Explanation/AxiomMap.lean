import OwlStructure.Explanation.AxiomMap
import OwlStructure.Proofs.Store.Index

/-!
The map of a justification represents the list of its axioms: it files each under the entities on
its left side, and holds its right side.
-/
namespace OwlStructure.AxiomMap

variable {m : AxiomMap} {l as : List Axiom} {a : Axiom} {e : Entity}

def isOnLeft (e : Entity) (a : Axiom) : Bool := decide (e ∈ a.kind.leftSide)

/-- A map represents a list when it files the list by left sides and holds the right sides. -/
structure Represents (m : AxiomMap) (l : List Axiom) : Prop where
  left : AxiomIndex.Files m.left isOnLeft l
  right : ∀ a, m.rightOf a = if a ∈ l then a.kind.rightSide else ∅

theorem rightOf_add (m : AxiomMap) (a b : Axiom) :
    (m.add a).rightOf b =
      if b = a then (m.rightOf a).insertAll a.kind.rightSide.toList else m.rightOf b := by
  have hcompare : compare b a = .eq ↔ b = a := Std.LawfulEqCmp.compare_eq_iff_eq
  unfold rightOf add
  rw [SortedMap.find?_alter]
  by_cases h : b = a
  · rw [if_pos (hcompare.2 h), if_pos h]
    rfl
  · rw [if_neg (mt hcompare.1 h), if_neg h]

namespace Represents

theorem empty : Represents .empty [] := ⟨.empty _, fun _ => rfl⟩

theorem add (h : m.Represents l) (ha : a ∉ l) : (m.add a).Represents (l ++ [a]) where
  left := h.left.addUnder ha fun e => by simp [isOnLeft]
  right b := by
    rw [rightOf_add]
    simp only [List.mem_append, List.mem_singleton]
    by_cases hb : b = a
    · subst hb
      have hnew : (∅ : SortedSet Entity).insertAll b.kind.rightSide.toList = b.kind.rightSide :=
        SortedSet.ext fun x => by simp [SortedSet.mem_toList]
      rw [if_pos rfl, h.right b, if_neg ha, if_pos (.inr rfl), hnew]
    · rw [if_neg hb, h.right b]
      simp only [hb, or_false]

theorem addAll (h : m.Represents l) (hn : (l ++ as).Nodup) :
    (as.foldl AxiomMap.add m).Represents (l ++ as) := by
  induction as generalizing m l with
  | nil => rwa [List.append_nil]
  | cons a as ih =>
    have ha : a ∉ l := fun hm => (List.nodup_append.1 hn).2.2 a hm a List.mem_cons_self rfl
    rw [List.append_cons] at hn ⊢
    exact ih (h.add ha) hn

theorem mem_filedUnder (h : m.Represents l) :
    a ∈ m.filedUnder e ↔ a ∈ l ∧ e ∈ a.kind.leftSide := by
  unfold filedUnder
  rw [h.left.getD_find?, List.mem_filter]
  simp [isOnLeft]

end Represents

theorem build_represents (h : l.Nodup) : (build l).Represents l := Represents.empty.addAll h

end OwlStructure.AxiomMap
