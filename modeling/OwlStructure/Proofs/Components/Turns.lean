import Mathlib.Algebra.BigOperators.Fin
import OwlStructure.Proofs.Components.Strong

/-!
The component search turn by turn. A turn starts from the next node or passes over it, looks at the
next successor of the node entered last, or leaves that node. Each turn uses up one unit of what a
graph and the moment of the search leave to do, so the search stops, after two turns for each node
and one for each edge. What it has found then is complete.
-/
namespace OwlStructure

variable {n : Nat}

/-- Where a search stands: what it has found, the frames that it follows, and the nodes that it has
still to start from. -/
structure SearchMoment (n : Nat) where
  found : ComponentSearch n
  frames : List (SearchFrame n)
  roots : List (Fin n)

namespace Digraph

open ComponentSearch

def turn? (g : Digraph n) : SearchMoment n → Option (SearchMoment n)
  | ⟨_, [], []⟩ => none
  | ⟨s, [], v :: roots⟩ =>
    match s.index.get v with
    | none => some ⟨s.enter v, [(v, g.successors.get v)], roots⟩
    | some _ => some ⟨s, [], roots⟩
  | ⟨s, (v, []) :: below, roots⟩ =>
    some ⟨s.leave v (below.head?.map Prod.fst), below, roots⟩
  | ⟨s, (v, w :: rest) :: below, roots⟩ =>
    match s.index.get w with
    | none => some ⟨s.enter w, (w, g.successors.get w) :: (v, rest) :: below, roots⟩
    | some i =>
      if s.onStack.get w then some ⟨s.lower v i, (v, rest) :: below, roots⟩
      else some ⟨s, (v, rest) :: below, roots⟩

/-- A number of turns, if the search does not stop before. -/
def turns (g : Digraph n) : Nat → SearchMoment n → Option (SearchMoment n)
  | 0, m => some m
  | k + 1, m => (g.turn? m).bind (g.turns k)

def edgeCount (g : Digraph n) : Nat := ∑ v : Fin n, (g.successors.get v).length

/-- The turns that a node takes once it is opened: one for each successor, and one to leave it. -/
def nodeTurns (g : Digraph n) (s : ComponentSearch n) (v : Fin n) : Nat :=
  if s.index.get v = none then (g.successors.get v).length + 1 else 0

/-- The turns that a search has still to take. -/
def turnsLeft (g : Digraph n) (m : SearchMoment n) : Nat :=
  remaining m.frames + m.roots.length + ∑ v, g.nodeTurns m.found v

variable {g : Digraph n} {s : ComponentSearch n} {v w : Fin n} {m m' : SearchMoment n}

theorem sum_nodeTurns_congr {s t : ComponentSearch n} (h : s.index = t.index) :
    ∑ v, g.nodeTurns s v = ∑ v, g.nodeTurns t v := by
  unfold nodeTurns
  rw [h]

theorem nodeTurns_enter (v w : Fin n) :
    g.nodeTurns (s.enter w) v = if w = v then 0 else g.nodeTurns s v := by
  show (if (s.enter w).index.get v = none then _ else _) = _
  rw [index_enter]
  by_cases h : w = v
  · rw [if_pos h, if_pos h, if_neg (Option.some_ne_none _)]
  · rw [if_neg h, if_neg h]
    rfl

/-- Only the turns of the node that is opened are taken from the sum. -/
theorem sum_nodeTurns_enter (hw : s.index.get w = none) :
    ∑ v, g.nodeTurns s v = (g.successors.get w).length + 1 + ∑ v, g.nodeTurns (s.enter w) v := by
  have hself : g.nodeTurns s w = (g.successors.get w).length + 1 := if_pos hw
  have hothers : ∑ v ∈ Finset.univ.erase w, g.nodeTurns (s.enter w) v =
      ∑ v ∈ Finset.univ.erase w, g.nodeTurns s v := by
    refine Finset.sum_congr rfl fun v hv => ?_
    rw [nodeTurns_enter, if_neg (Finset.ne_of_mem_erase hv).symm]
  have hsplit (t : ComponentSearch n) : ∑ v, g.nodeTurns t v =
      g.nodeTurns t w + ∑ v ∈ Finset.univ.erase w, g.nodeTurns t v :=
    (Finset.add_sum_erase _ _ (Finset.mem_univ w)).symm
  rw [hsplit s, hsplit (s.enter w), hself, nodeTurns_enter, if_pos rfl, hothers, Nat.zero_add]

section TurnsLeft

variable {rest roots : List (Fin n)} {frames : List (SearchFrame n)}

theorem turnsLeft_root :
    g.turnsLeft ⟨s, frames, v :: roots⟩ = g.turnsLeft ⟨s, frames, roots⟩ + 1 := by
  simp only [turnsLeft, List.length_cons]
  omega

theorem turnsLeft_frame :
    g.turnsLeft ⟨s, (v, rest) :: frames, roots⟩ =
      g.turnsLeft ⟨s, frames, roots⟩ + (rest.length + 1) := by
  simp only [turnsLeft, remaining, List.foldr_cons]
  omega

theorem turnsLeft_congr {t : ComponentSearch n} (h : s.index = t.index) :
    g.turnsLeft ⟨s, frames, roots⟩ = g.turnsLeft ⟨t, frames, roots⟩ := by
  have hsum := sum_nodeTurns_congr (g := g) h
  simp only [turnsLeft, hsum]

/-- Opening a node moves its turns to its frame. -/
theorem turnsLeft_enter (hw : s.index.get w = none) :
    g.turnsLeft ⟨s, frames, roots⟩ =
      g.turnsLeft ⟨s.enter w, (w, g.successors.get w) :: frames, roots⟩ := by
  have hsum := sum_nodeTurns_enter (g := g) hw
  rw [turnsLeft_frame]
  simp only [turnsLeft]
  omega

end TurnsLeft

/-- Every turn brings the end nearer by one. -/
theorem turnsLeft_turn? (h : g.turn? m = some m') : g.turnsLeft m = g.turnsLeft m' + 1 := by
  obtain ⟨s, _ | ⟨⟨v, _ | ⟨w, rest⟩⟩, below⟩, roots⟩ := m
  · cases roots with
    | nil => cases h
    | cons v roots =>
      simp only [turn?] at h
      split at h
      · next hv =>
        obtain rfl := Option.some.inj h
        rw [turnsLeft_root, turnsLeft_enter hv]
      · obtain rfl := Option.some.inj h
        exact turnsLeft_root
  · obtain rfl := Option.some.inj h
    rw [turnsLeft_frame, turnsLeft_congr (index_leave s v (below.head?.map Prod.fst)).symm]
    rfl
  · -- one successor less is to be looked at
    have hnext : g.turnsLeft ⟨s, (v, w :: rest) :: below, roots⟩ =
        g.turnsLeft ⟨s, (v, rest) :: below, roots⟩ + 1 := by
      rw [turnsLeft_frame, turnsLeft_frame, List.length_cons]
      rfl
    simp only [turn?] at h
    split at h
    · next hw =>
      obtain rfl := Option.some.inj h
      rw [hnext, turnsLeft_enter hw]
    · next i hi =>
      split at h
      · obtain rfl := Option.some.inj h
        have hindex : s.index = (s.lower v i).index := rfl
        rw [hnext, turnsLeft_congr hindex]
      · obtain rfl := Option.some.inj h
        exact hnext

theorem turnsLeft_turns {k : Nat} (h : g.turns k m = some m') :
    g.turnsLeft m = g.turnsLeft m' + k := by
  induction k generalizing m with
  | zero =>
    obtain rfl := Option.some.inj h
    rfl
  | succ k ih =>
    obtain ⟨next, hnext, hrest⟩ := Option.bind_eq_some_iff.1 h
    have hone := turnsLeft_turn? hnext
    have hk := ih hrest
    omega

theorem turns_succ (k : Nat) (h : g.turn? m = some m') : g.turns (k + 1) m = g.turns k m' := by
  rw [turns, h, Option.bind_some]

theorem turns_add (j k : Nat) (m : SearchMoment n) :
    g.turns (j + k) m = (g.turns j m).bind (g.turns k) := by
  induction j generalizing m with
  | zero =>
    rw [Nat.zero_add]
    rfl
  | succ j ih =>
    rw [Nat.succ_add, turns, turns]
    cases g.turn? m with
    | none => rfl
    | some next => exact ih next

section Turn

variable {i : Nat} {rest roots : List (Fin n)} {below : List (SearchFrame n)}

theorem turn?_start (hv : s.index.get v = none) :
    g.turn? ⟨s, [], v :: roots⟩ = some ⟨s.enter v, [(v, g.successors.get v)], roots⟩ := by
  simp only [turn?, hv]

theorem turn?_pass (hv : s.index.get v = some i) :
    g.turn? ⟨s, [], v :: roots⟩ = some ⟨s, [], roots⟩ := by
  simp only [turn?, hv]

theorem turn?_open (hw : s.index.get w = none) :
    g.turn? ⟨s, (v, w :: rest) :: below, roots⟩ =
      some ⟨s.enter w, (w, g.successors.get w) :: (v, rest) :: below, roots⟩ := by
  simp only [turn?, hw]

theorem turn?_lower (hi : s.index.get w = some i) (hw : s.onStack.get w = true) :
    g.turn? ⟨s, (v, w :: rest) :: below, roots⟩ =
      some ⟨s.lower v i, (v, rest) :: below, roots⟩ := by
  simp only [turn?, hi, hw, if_true]

theorem turn?_skip (hi : s.index.get w = some i) (hw : ¬ s.onStack.get w = true) :
    g.turn? ⟨s, (v, w :: rest) :: below, roots⟩ = some ⟨s, (v, rest) :: below, roots⟩ := by
  simp only [turn?, hi, hw, Bool.false_eq_true, if_false]

end Turn

/-- Turn by turn a search follows its frames to their end. -/
theorem exists_turns_explore (g : Digraph n) (s : ComponentSearch n) (frames : List (SearchFrame n))
    (roots : List (Fin n)) :
    ∃ k, g.turns k ⟨s, frames, roots⟩ = some ⟨g.explore s frames, [], roots⟩ := by
  fun_induction explore g s frames with
  | case1 s => exact ⟨0, rfl⟩
  | case2 s v below ih =>
    obtain ⟨k, hk⟩ := ih
    exact ⟨k + 1, (turns_succ k rfl).trans hk⟩
  | case3 s v w rest below hw ih =>
    obtain ⟨k, hk⟩ := ih
    exact ⟨k + 1, (turns_succ k (turn?_open hw)).trans hk⟩
  | case4 s v w rest below i hi hw ih =>
    obtain ⟨k, hk⟩ := ih
    exact ⟨k + 1, (turns_succ k (turn?_lower hi hw)).trans hk⟩
  | case5 s v w rest below i hi hw ih =>
    obtain ⟨k, hk⟩ := ih
    exact ⟨k + 1, (turns_succ k (turn?_skip hi hw)).trans hk⟩

theorem exists_turns_searchFrom (g : Digraph n) (s : ComponentSearch n) (v : Fin n)
    (roots : List (Fin n)) :
    ∃ k, g.turns k ⟨s, [], v :: roots⟩ = some ⟨g.searchFrom s v, [], roots⟩ := by
  unfold searchFrom
  split
  · next hv =>
    obtain ⟨k, hk⟩ := exists_turns_explore g (s.enter v) [(v, g.successors.get v)] roots
    exact ⟨k + 1, (turns_succ k (turn?_start hv)).trans hk⟩
  · next i hi => exact ⟨1, turns_succ 0 (turn?_pass hi)⟩

theorem exists_turns_foldl (g : Digraph n) (s : ComponentSearch n) (roots : List (Fin n)) :
    ∃ k, g.turns k ⟨s, [], roots⟩ = some ⟨roots.foldl g.searchFrom s, [], []⟩ := by
  induction roots generalizing s with
  | nil => exact ⟨0, rfl⟩
  | cons v roots ih =>
    obtain ⟨j, hj⟩ := exists_turns_searchFrom g s v roots
    obtain ⟨k, hk⟩ := ih (g.searchFrom s v)
    refine ⟨j + k, ?_⟩
    rw [turns_add, hj]
    exact hk

theorem turnsLeft_start (g : Digraph n) :
    g.turnsLeft ⟨initial, [], List.finRange n⟩ = 2 * n + g.edgeCount := by
  have hnode (v : Fin n) : g.nodeTurns initial v = (g.successors.get v).length + 1 :=
    if_pos (Vector.getElem_replicate v.isLt)
  have hsum : ∑ v, g.nodeTurns initial v = g.edgeCount + n := by
    simp only [hnode, Finset.sum_add_distrib, Finset.sum_const, Finset.card_univ, Fintype.card_fin,
      smul_eq_mul, mul_one]
    rfl
  simp only [turnsLeft, remaining, List.foldr_nil, List.length_finRange, hsum]
  omega

theorem turnsLeft_search (g : Digraph n) : g.turnsLeft ⟨g.search, [], []⟩ = 0 := by
  have hsum : ∑ v, g.nodeTurns g.search v = 0 :=
    Finset.sum_eq_zero fun v _ => if_neg (opened_search g v)
  simp only [turnsLeft, remaining, List.foldr_nil, List.length_nil, hsum]

/-- A search takes two turns for each node and one for each edge, and then stops. -/
theorem turns_search (g : Digraph n) :
    g.turns (2 * n + g.edgeCount) ⟨initial, [], List.finRange n⟩ = some ⟨g.search, [], []⟩ := by
  obtain ⟨k, hk⟩ := exists_turns_foldl g initial (List.finRange n)
  have hcount := turnsLeft_turns hk
  have hend : g.turnsLeft ⟨(List.finRange n).foldl g.searchFrom initial, [], []⟩ = 0 :=
    turnsLeft_search g
  rw [turnsLeft_start, hend, Nat.zero_add] at hcount
  rw [hcount]
  exact hk

/-! ### What the search leaves -/

theorem components_perm (g : Digraph n) : g.components.flatten.Perm (List.finRange n) := by
  rw [List.perm_ext_iff_of_nodup (nodup_components g) (List.nodup_finRange n)]
  exact fun v => iff_of_true (mem_components g v) (List.mem_finRange v)

/-- No edge leads from a component to a later one. -/
theorem components_pairwise (g : Digraph n) :
    g.components.Pairwise fun c d => ∀ u ∈ c, ∀ w ∈ d, ¬ g.Edge u w := by
  rw [List.pairwise_iff_getElem]
  intro i j hi hj hij u hu w hw he
  have hearly : u ∈ (g.components.take (i + 1)).flatten :=
    List.mem_flatten.2 ⟨_, List.mem_take_iff_getElem.2 ⟨i, by omega, rfl⟩, hu⟩
  have hlate : w ∈ (g.components.drop (i + 1)).flatten := by
    refine List.mem_flatten.2 ⟨_, List.mem_drop_iff_getElem.2 ⟨j - (i + 1), by omega, rfl⟩, ?_⟩
    simpa only [Nat.add_sub_cancel' (Nat.succ_le_of_lt hij)] using hw
  have hstays := reach_components (List.take_prefix (i + 1) g.components) hearly (.single he)
  have hnodup := nodup_components g
  rw [← List.take_append_drop (i + 1) g.components, List.flatten_append] at hnodup
  exact (List.nodup_append.1 hnodup).2.2 w hstays w hlate rfl

theorem exists_index_search (g : Digraph n) (v : Fin n) :
    ∃ i < n, g.search.index.get v = some i :=
  ⟨g.search.rank v, rank_search_lt g v, (opened_search g v).index_eq⟩

theorem index_search_injective (g : Digraph n) : Function.Injective g.search.index.get := by
  intro u v he
  refine rank_search_injective g ?_
  unfold rank
  rw [he]

/-- On every graph the search stops, after two turns for each node and one for each edge. Its
components hold every node once and none of them is empty; two nodes are in one component just if
each leads to the other; and no edge leads from a component to a later one. In the end the stack is
empty, no node is marked, and all nodes have different indexes below their number. -/
theorem search_complete (g : Digraph n) :
    (g.turns (2 * n + g.edgeCount) ⟨initial, [], List.finRange n⟩ = some ⟨g.search, [], []⟩ ∧
      g.turn? ⟨g.search, [], []⟩ = none) ∧
    (g.search.components.flatten.Perm (List.finRange n) ∧ ∀ c ∈ g.search.components, c ≠ []) ∧
    (∀ u v, (∃ c ∈ g.search.components, u ∈ c ∧ v ∈ c) ↔ g.Reach u v ∧ g.Reach v u) ∧
    (g.search.components.Pairwise fun c d => ∀ u ∈ c, ∀ w ∈ d, ¬ g.Edge u w) ∧
    g.search.stack = [] ∧ (∀ v, g.search.onStack.get v = false) ∧
    (∀ v, ∃ i < n, g.search.index.get v = some i) ∧ Function.Injective g.search.index.get := by
  refine ⟨⟨turns_search g, rfl⟩, ⟨components_perm g, fun c => components_ne_nil⟩,
    fun u v => exists_component_iff, components_pairwise g, stack_search g, onStack_search g,
    exists_index_search g, index_search_injective g⟩

/-- A cycle of two nodes that leads, by an edge given twice, to a node with a loop. -/
theorem search_complete_loop :
    let g : Digraph 3 := ⟨#v[[1], [0, 2, 2], [2]]⟩
    g.turns 11 ⟨initial, [], List.finRange 3⟩ = some ⟨g.search, [], []⟩ ∧
      (∃ c ∈ g.search.components, c ≠ [] ∧ 0 ∈ c ∧ 1 ∈ c) ∧
      ¬ ∃ c ∈ g.search.components, 0 ∈ c ∧ 2 ∈ c := by
  intro g
  obtain ⟨⟨hturns, -⟩, ⟨-, hne⟩, hshared, -⟩ := search_complete g
  have hleave (w : Fin 3) (hr : g.Reach 2 w) : w = 2 := by
    induction hr with
    | refl => rfl
    | tail _ he ih =>
      subst ih
      exact List.mem_singleton.1 he
  have hcycle : g.Reach 0 1 ∧ g.Reach 1 0 :=
    ⟨.single List.mem_cons_self, .single List.mem_cons_self⟩
  obtain ⟨c, hc, h0, h1⟩ := (hshared 0 1).2 hcycle
  refine ⟨hturns, ⟨c, hc, hne c hc, h0, h1⟩, fun hmeet => ?_⟩
  have hback := hleave 0 ((hshared 0 2).1 hmeet).2
  cases hback

end Digraph

end OwlStructure
