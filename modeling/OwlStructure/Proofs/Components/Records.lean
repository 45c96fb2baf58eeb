import Mathlib.Logic.Relation
import Mathlib.Tactic.Tauto
import OwlStructure.Collections.Components

/-!
The records of the component search: indexes, the stack and the completed components. Opened nodes
are numbered in the order in which they were opened; each is on the stack or in one component; and
nothing leads from a component to a later one, or to the stack.
-/
namespace OwlStructure

open Relation

variable {n : Nat}

namespace Digraph

def Edge (g : Digraph n) (u w : Fin n) : Prop := w ∈ g.successors.get u

/-- A node leads to another in any number of steps. -/
abbrev Reach (g : Digraph n) : Fin n → Fin n → Prop := ReflTransGen g.Edge

end Digraph

/-- A cut at a member takes the part above it, and the member itself. -/
theorem exists_popThrough [DecidableEq α] {v : α} {l : List α} (h : v ∈ l) :
    ∃ above below, l = above ++ v :: below ∧ popThrough v l = (above ++ [v], below) := by
  induction l with
  | nil => cases h
  | cons w l ih =>
    by_cases hw : w = v
    · exact ⟨[], l, by rw [hw, List.nil_append], by simp [popThrough, hw]⟩
    · obtain ⟨above, below, hl, hp⟩ := ih ((List.mem_cons.1 h).resolve_left (Ne.symm hw))
      refine ⟨w :: above, below, by rw [hl, List.cons_append], ?_⟩
      rw [popThrough, if_neg hw, hp]
      rfl

namespace ComponentSearch

variable {g : Digraph n} {s : ComponentSearch n} {u v w : Fin n}

def Opened (s : ComponentSearch n) (v : Fin n) : Prop := s.index.get v ≠ none

/-- The index of an opened node. -/
def rank (s : ComponentSearch n) (v : Fin n) : Nat := (s.index.get v).getD 0

/-- The low link of a node. -/
def low (s : ComponentSearch n) (v : Fin n) : Nat := s.lowLink.get v

theorem Opened.index_eq (h : s.Opened v) : s.index.get v = some (s.rank v) := by
  unfold Opened at h
  unfold rank
  cases hi : s.index.get v with
  | none => exact absurd hi h
  | some i => rfl

theorem opened_of_index {i : Nat} (h : s.index.get v = some i) : s.Opened v := by
  unfold Opened
  rw [h]
  exact Option.some_ne_none i

theorem rank_of_index {i : Nat} (h : s.index.get v = some i) : s.rank v = i := by
  unfold rank
  rw [h, Option.getD_some]

theorem not_opened_initial (v : Fin n) : ¬ Opened ComponentSearch.initial v := by
  have hnone : ((ComponentSearch.initial (n := n)).index)[v] = none := by
    simp [ComponentSearch.initial]
  exact fun h => h hnone

theorem get_set (x : Vector α n) (v w : Fin n) (a : α) :
    (x.set v a v.isLt).get w = if v = w then a else x.get w := by
  show (x.set v a v.isLt)[w] = if v = w then a else x[w]
  simp only [Fin.getElem_fin, Vector.getElem_set, Fin.ext_iff]

theorem get_unmark (marks : Vector Bool n) (nodes : List (Fin n)) (w : Fin n) :
    (unmark marks nodes).get w = true ↔ w ∉ nodes ∧ marks.get w = true := by
  unfold unmark
  induction nodes generalizing marks with
  | nil => simp
  | cons v nodes ih =>
    have hset := get_set marks v w false
    rw [List.foldl_cons, ih, hset, List.mem_cons, not_or]
    by_cases h : v = w
    · simp [h]
    · simp [h, Ne.symm h]

theorem onStack_enter (s : ComponentSearch n) (v w : Fin n) :
    (s.enter v).onStack.get w = if v = w then true else s.onStack.get w :=
  get_set ..

theorem index_enter (s : ComponentSearch n) (v w : Fin n) :
    (s.enter v).index.get w = if v = w then some s.nextIndex else s.index.get w :=
  get_set ..

theorem low_enter (s : ComponentSearch n) (v w : Fin n) :
    (s.enter v).low w = if v = w then s.nextIndex else s.low w :=
  get_set ..

theorem low_lower (s : ComponentSearch n) (v : Fin n) (i : Nat) (w : Fin n) :
    (s.lower v i).low w = if v = w then min (s.low v) i else s.low w :=
  get_set ..

theorem opened_enter : (s.enter v).Opened w ↔ v = w ∨ s.Opened w := by
  unfold Opened
  rw [index_enter]
  by_cases h : v = w <;> simp [h]

@[simp] theorem rank_enter_self : (s.enter v).rank v = s.nextIndex := by
  unfold rank
  rw [index_enter, if_pos rfl, Option.getD_some]

theorem rank_enter_of_ne (h : v ≠ w) : (s.enter v).rank w = s.rank w := by
  unfold rank
  rw [index_enter, if_neg h]

/-- What holds of the records at every moment of the search. -/
structure WellFormed (g : Digraph n) (s : ComponentSearch n) : Prop where
  rank_lt : ∀ v, s.Opened v → s.rank v < s.nextIndex
  rank_inj : ∀ u v, s.Opened u → s.Opened v → s.rank u = s.rank v → u = v
  nextIndex_le : s.nextIndex + s.unopened ≤ n
  onStack_iff : ∀ v, s.onStack.get v = true ↔ v ∈ s.stack
  opened_iff : ∀ v, s.Opened v ↔ v ∈ s.stack ∨ v ∈ s.components.flatten
  nodup : (s.stack ++ s.components.flatten).Nodup
  sorted : s.stack.Pairwise fun u v => s.rank v < s.rank u
  nonempty : ∀ c ∈ s.components, c ≠ []
  closed : ∀ done, done <+: s.components → ∀ u ∈ done.flatten, ∀ w, g.Edge u w → w ∈ done.flatten
  connected : ∀ c ∈ s.components, ∀ u ∈ c, ∀ v ∈ c, g.Reach u v

namespace WellFormed

theorem opened_of_mem (h : WellFormed g s) (hv : v ∈ s.stack) : s.Opened v :=
  (h.opened_iff v).2 (.inl hv)

theorem not_mem_completed (h : WellFormed g s) (hv : v ∈ s.stack) : v ∉ s.components.flatten :=
  fun hc => (List.nodup_append.1 h.nodup).2.2 v hv v hc rfl

/-- Completed components are never left. -/
theorem reach_completed (h : WellFormed g s) {done : List (List (Fin n))}
    (hd : done <+: s.components) (hu : u ∈ done.flatten) (hw : g.Reach u w) :
    w ∈ done.flatten := by
  induction hw with
  | refl => exact hu
  | tail _ he ih => exact h.closed done hd _ ih _ he

theorem initial : WellFormed g ComponentSearch.initial where
  rank_lt v hv := absurd hv (not_opened_initial v)
  rank_inj u _ hu := absurd hu (not_opened_initial u)
  nextIndex_le := by simp [unopened, ComponentSearch.initial]
  onStack_iff v := by
    have hmark : ((ComponentSearch.initial (n := n)).onStack)[v] = false := by
      simp [ComponentSearch.initial]
    exact iff_of_false (fun h => Bool.false_ne_true (hmark.symm.trans h)) List.not_mem_nil
  opened_iff v := iff_of_false (not_opened_initial v) (by simp [ComponentSearch.initial])
  nodup := List.nodup_nil
  sorted := .nil
  nonempty := by simp [ComponentSearch.initial]
  closed := by simp [ComponentSearch.initial]
  connected := by simp [ComponentSearch.initial]

theorem lower (h : WellFormed g s) (v : Fin n) (i : Nat) : WellFormed g (s.lower v i) where
  rank_lt := h.rank_lt
  rank_inj := h.rank_inj
  nextIndex_le := h.nextIndex_le
  onStack_iff := h.onStack_iff
  opened_iff := h.opened_iff
  nodup := h.nodup
  sorted := h.sorted
  nonempty := h.nonempty
  closed := h.closed
  connected := h.connected

theorem ne_of_not_opened (hv : ¬ s.Opened v) (hw : s.Opened w) : v ≠ w := fun e => hv (e ▸ hw)

theorem enter (h : WellFormed g s) (hv : ¬ s.Opened v) : WellFormed g (s.enter v) := by
  have hne {w : Fin n} (hw : s.Opened w) : v ≠ w := ne_of_not_opened hv hw
  have hold {w : Fin n} (hw : s.Opened w) : (s.enter v).rank w = s.rank w :=
    rank_enter_of_ne (hne hw)
  refine
    { rank_lt := ?_, rank_inj := ?_, nextIndex_le := ?_, onStack_iff := ?_, opened_iff := ?_,
      nodup := ?_, sorted := ?_, nonempty := h.nonempty, closed := h.closed,
      connected := h.connected }
  · intro w hw
    show (s.enter v).rank w < s.nextIndex + 1
    rcases opened_enter.1 hw with rfl | hw
    · rw [rank_enter_self]
      omega
    · have := h.rank_lt w hw
      rw [hold hw]
      omega
  · intro u w hu hw he
    rcases opened_enter.1 hu with rfl | hu <;> rcases opened_enter.1 hw with rfl | hw
    · rfl
    · rw [rank_enter_self, hold hw] at he
      have := h.rank_lt w hw
      omega
    · rw [rank_enter_self, hold hu] at he
      have := h.rank_lt u hu
      omega
    · rw [hold hu, hold hw] at he
      exact h.rank_inj u w hu hw he
  · have hlt := unopened_enter_lt (not_not.1 hv)
    have hle := h.nextIndex_le
    show s.nextIndex + 1 + (s.enter v).unopened ≤ n
    omega
  · intro w
    show _ ↔ w ∈ v :: s.stack
    rw [onStack_enter, List.mem_cons]
    split
    · next he => simp [he]
    · next hne => rw [h.onStack_iff, or_iff_right (Ne.symm hne)]
  · intro w
    show (s.enter v).Opened w ↔ w ∈ v :: s.stack ∨ w ∈ s.components.flatten
    rw [opened_enter, h.opened_iff, List.mem_cons, or_assoc, eq_comm]
  · refine List.nodup_cons.2 ⟨?_, h.nodup⟩
    intro hm
    exact hv ((h.opened_iff v).2 (List.mem_append.1 hm))
  · refine List.pairwise_cons.2 ⟨?_, ?_⟩
    · intro w hw
      rw [rank_enter_self, hold (h.opened_of_mem hw)]
      exact h.rank_lt w (h.opened_of_mem hw)
    · refine h.sorted.imp_of_mem fun hu hw hlt => ?_
      rw [hold (h.opened_of_mem hu), hold (h.opened_of_mem hw)]
      exact hlt

/-! ### Taking a component from the stack -/

section Segment

variable {above below : List (Fin n)}

theorem rank_above (h : WellFormed g s) (hs : s.stack = above ++ v :: below) {x : Fin n}
    (hx : x ∈ above) : s.rank v < s.rank x := by
  have hp := h.sorted
  rw [hs, List.pairwise_append] at hp
  exact hp.2.2 x hx v List.mem_cons_self

theorem rank_below (h : WellFormed g s) (hs : s.stack = above ++ v :: below) {x : Fin n}
    (hx : x ∈ below) : s.rank x < s.rank v := by
  have hp := h.sorted
  rw [hs, List.pairwise_append, List.pairwise_cons] at hp
  exact hp.2.1.1 x hx

/-- The nodes from the top of the stack down to a node are those with its index or a later one. -/
theorem mem_segment (h : WellFormed g s) (hs : s.stack = above ++ v :: below) {x : Fin n} :
    x ∈ above ++ [v] ↔ x ∈ s.stack ∧ s.rank v ≤ s.rank x := by
  have hstack : x ∈ s.stack ↔ x ∈ above ∨ x = v ∨ x ∈ below := by simp [hs]
  rw [hstack, List.mem_append, List.mem_singleton]
  constructor
  · rintro (hx | rfl)
    · exact ⟨.inl hx, Nat.le_of_lt (h.rank_above hs hx)⟩
    · exact ⟨.inr (.inl rfl), Nat.le_refl _⟩
  · rintro ⟨hx | hx | hx, hle⟩
    · exact .inl hx
    · exact .inr hx
    · have hlt := h.rank_below hs hx
      omega

theorem mem_below (h : WellFormed g s) (hs : s.stack = above ++ v :: below) {x : Fin n} :
    x ∈ below ↔ x ∈ s.stack ∧ s.rank x < s.rank v := by
  have hstack : x ∈ s.stack ↔ x ∈ above ∨ x = v ∨ x ∈ below := by simp [hs]
  rw [hstack]
  constructor
  · intro hx
    exact ⟨.inr (.inr hx), h.rank_below hs hx⟩
  · rintro ⟨hx | rfl | hx, hlt⟩
    · have hgt := h.rank_above hs hx
      omega
    · omega
    · exact hx

/-- A top segment of the stack whose nodes lead to each other, and to nothing else but completed
nodes, is a component. -/
theorem pop (h : WellFormed g s) (hs : s.stack = above ++ v :: below)
    (hclosed : ∀ u ∈ above ++ [v], ∀ w, g.Edge u w →
      w ∈ above ++ [v] ∨ w ∈ s.components.flatten)
    (hconn : ∀ u ∈ above ++ [v], ∀ w ∈ above ++ [v], g.Reach u w) :
    WellFormed g
      { s with
        onStack := unmark s.onStack (above ++ [v])
        stack := below
        components := s.components ++ [above ++ [v]] } := by
  have hflat : (s.components ++ [above ++ [v]]).flatten =
      s.components.flatten ++ (above ++ [v]) := by simp
  refine
    { rank_lt := h.rank_lt, rank_inj := h.rank_inj, nextIndex_le := h.nextIndex_le
      onStack_iff := ?_, opened_iff := ?_, nodup := ?_, sorted := ?_, nonempty := ?_, closed := ?_,
      connected := ?_ }
  · intro w
    rw [get_unmark, h.onStack_iff, h.mem_segment hs, h.mem_below hs]
    constructor
    · rintro ⟨hn, hw⟩
      exact ⟨hw, Nat.lt_of_not_le fun hle => hn ⟨hw, hle⟩⟩
    · rintro ⟨hw, hlt⟩
      exact ⟨fun hm => Nat.not_le_of_lt hlt hm.2, hw⟩
  · intro w
    rw [hflat]
    refine (h.opened_iff w).trans ?_
    rw [hs]
    simp only [List.mem_append, List.mem_cons, List.not_mem_nil, or_false]
    tauto
  · have hp : (s.stack ++ s.components.flatten).Perm
        (below ++ (s.components ++ [above ++ [v]]).flatten) := by
      rw [hflat, hs, List.append_cons, List.append_assoc, ← List.append_assoc below]
      exact List.perm_append_comm
    exact hp.nodup_iff.1 h.nodup
  · have hsub : below.Sublist s.stack := by
      rw [hs, List.append_cons]
      exact List.sublist_append_right _ _
    exact h.sorted.sublist hsub
  · intro c hc
    rcases List.mem_append.1 hc with hc | hc
    · exact h.nonempty c hc
    · rw [List.mem_singleton.1 hc]
      simp
  · intro done hdone u hu w he
    rcases List.prefix_concat_iff.1 hdone with rfl | hdone
    · rw [hflat, List.mem_append] at hu ⊢
      rcases hu with hu | hu
      · exact .inl (h.closed _ List.prefix_rfl u hu w he)
      · exact (hclosed u hu w he).symm
    · exact h.closed done hdone u hu w he
  · intro c hc
    rcases List.mem_append.1 hc with hc | hc
    · exact h.connected c hc
    · rw [List.mem_singleton.1 hc]
      exact hconn

end Segment

end WellFormed

end ComponentSearch

end OwlStructure
