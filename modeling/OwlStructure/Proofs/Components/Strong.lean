import Mathlib.Data.List.Nodup
import Mathlib.Data.List.Pairwise
import OwlStructure.Proofs.Components.Frames

/-!
The component search finds the strongly connected components: two nodes are in one component
exactly when each leads to the other, and a component comes before those that lead to it.
-/
namespace OwlStructure.Digraph

open Relation ComponentSearch

variable {n : Nat} {g : Digraph n} {s : ComponentSearch n} {u v w : Fin n}
  {rest : List (Fin n)} {frames below : List (SearchFrame n)}

theorem opened_leave {parent : Option (Fin n)} : (s.leave v parent).Opened u ↔ s.Opened u := by
  unfold Opened
  rw [index_leave]

/-- What has been opened stays so. -/
theorem opened_explore (h : s.Opened u) : (g.explore s frames).Opened u := by
  fun_induction explore g s frames with
  | case1 => exact h
  | case2 s v below ih => exact ih (opened_leave.2 h)
  | case3 s v w rest below hw ih => exact ih (opened_enter.2 (.inr h))
  | case4 s v w rest below i hi hw ih => exact ih h
  | case5 s v w rest below i hi hw ih => exact ih h

theorem reach_pending (h : Following g s ((v, w :: rest) :: below))
    (hu : u ∈ pathOf ((v, w :: rest) :: below)) : g.Reach u w := by
  have hv : v ∈ s.stack := h.onPath.on_stack v List.mem_cons_self
  have huv : g.Reach u v := h.onPath.reach u hu v hv (h.onPath.rank_le_top hu)
  exact huv.tail (h.pending _ List.mem_cons_self w List.mem_cons_self)

/-- The search follows every frame to its end. -/
theorem following_explore (h : Following g s frames) : Following g (g.explore s frames) [] := by
  fun_induction explore g s frames with
  | case1 => exact h
  | case2 s v below ih => exact ih h.finish
  | case3 s v w rest below hw ih =>
    have hent := h.enter (not_not.2 hw) fun u hu => reach_pending h hu
    refine ih (hent.advance [_] (opened_enter.2 (.inl rfl)) fun _ => ?_)
    have hv := hent.onPath.rank_le_top (List.mem_cons_of_mem _ List.mem_cons_self)
    exact ⟨w, List.mem_cons_self, hv, hent.onPath.low_le w List.mem_cons_self⟩
  | case4 s v w rest below i hi hw ih =>
    have hw : w ∈ s.stack := (h.wellFormed.onStack_iff w).1 hw
    have hv := h.pending _ List.mem_cons_self w List.mem_cons_self
    have hlow := h.lower (v := v) hw (.single hv)
    have hrank : s.rank w = i := rank_of_index hi
    rw [hrank] at hlow
    refine ih (hlow.advance [] (h.wellFormed.opened_of_mem hw) fun _ => ?_)
    refine ⟨v, List.mem_cons_self, Nat.le_refl _, ?_⟩
    rw [low_lower, if_pos rfl, ← hrank]
    exact Nat.min_le_right _ _
  | case5 s v w rest below i hi hw ih =>
    refine ih (h.advance [] (opened_of_index hi) fun hm => ?_)
    exact absurd ((h.wellFormed.onStack_iff w).2 hm) hw

theorem following_searchFrom (h : Following g s []) (v : Fin n) :
    Following g (g.searchFrom s v) [] := by
  unfold searchFrom
  split
  · next hv =>
    exact following_explore (h.enter (not_not.2 hv) fun u hu => absurd hu List.not_mem_nil)
  · exact h

theorem opened_searchFrom (h : s.Opened u) (v : Fin n) : (g.searchFrom s v).Opened u := by
  unfold searchFrom
  split
  · exact opened_explore (opened_enter.2 (.inr h))
  · exact h

theorem opened_searchFrom_self (s : ComponentSearch n) (v : Fin n) :
    (g.searchFrom s v).Opened v := by
  unfold searchFrom
  split
  · exact opened_explore (opened_enter.2 (.inl rfl))
  · next hi => exact opened_of_index hi

theorem following_foldl (h : Following g s []) (l : List (Fin n)) :
    Following g (l.foldl g.searchFrom s) [] := by
  induction l generalizing s with
  | nil => exact h
  | cons v l ih => exact ih (following_searchFrom h v)

theorem opened_foldl {l : List (Fin n)} (h : s.Opened u ∨ u ∈ l) :
    (l.foldl g.searchFrom s).Opened u := by
  induction l generalizing s with
  | nil => exact h.resolve_right List.not_mem_nil
  | cons v l ih =>
    rcases h with h | h
    · exact ih (.inl (opened_searchFrom h v))
    rcases List.mem_cons.1 h with rfl | h
    · exact ih (.inl (opened_searchFrom_self s u))
    · exact ih (.inr h)

theorem following_search (g : Digraph n) : Following g g.search [] := following_foldl .initial _

theorem opened_search (g : Digraph n) (v : Fin n) : g.search.Opened v :=
  opened_foldl (.inr (List.mem_finRange v))

/-! ### What the search gives -/

/-- The search leaves nothing on the stack. -/
theorem stack_search (g : Digraph n) : g.search.stack = [] :=
  (following_search g).onPath.stack_eq_nil

theorem onStack_search (g : Digraph n) (v : Fin n) : g.search.onStack.get v = false := by
  have hv := (following_search g).wellFormed.onStack_iff v
  rw [stack_search] at hv
  exact Bool.eq_false_iff.2 fun h => List.not_mem_nil (hv.1 h)

theorem rank_search_lt (g : Digraph n) (v : Fin n) : g.search.rank v < n := by
  have h := (following_search g).wellFormed
  have hlt := h.rank_lt v (opened_search g v)
  have hle := h.nextIndex_le
  omega

theorem rank_search_injective (g : Digraph n) : Function.Injective g.search.rank := by
  intro u v he
  exact (following_search g).wellFormed.rank_inj u v (opened_search g u) (opened_search g v) he

theorem mem_components (g : Digraph n) (v : Fin n) : v ∈ g.components.flatten := by
  have h := following_search g
  rcases (h.wellFormed.opened_iff v).1 (opened_search g v) with hv | hv
  · rw [stack_search] at hv
    exact absurd hv List.not_mem_nil
  · exact hv

theorem components_ne_nil {c : List (Fin n)} (hc : c ∈ g.components) : c ≠ [] :=
  (following_search g).wellFormed.nonempty c hc

theorem nodup_components (g : Digraph n) : g.components.flatten.Nodup :=
  (List.nodup_append.1 (following_search g).wellFormed.nodup).2.1

theorem nodup_component {c : List (Fin n)} (hc : c ∈ g.components) : c.Nodup :=
  (List.nodup_flatten.1 (nodup_components g)).1 c hc

/-- No node is in two components. -/
theorem component_unique {c d : List (Fin n)} (hc : c ∈ g.components) (hd : d ∈ g.components)
    (hu : u ∈ c) (hu' : u ∈ d) : c = d := by
  have : Std.Symm (List.Disjoint (α := Fin n)) := ⟨fun _ _ h => List.disjoint_symm h⟩
  by_contra hne
  exact (List.nodup_flatten.1 (nodup_components g)).2.forall hc hd hne hu hu'

/-- Nothing leads from a component to a later one. -/
theorem reach_components {done : List (List (Fin n))} (hd : done <+: g.components)
    (hu : u ∈ done.flatten) (hr : g.Reach u v) : v ∈ done.flatten :=
  (following_search g).wellFormed.reach_completed hd hu hr

/-- Components are the classes of nodes that lead to each other. -/
theorem exists_component_iff :
    (∃ c ∈ g.components, u ∈ c ∧ v ∈ c) ↔ g.Reach u v ∧ g.Reach v u := by
  constructor
  · rintro ⟨c, hc, hu, hv⟩
    have hconn := (following_search g).wellFormed.connected c hc
    exact ⟨hconn u hu v hv, hconn v hv u hu⟩
  · rintro ⟨huv, hvu⟩
    obtain ⟨c, hc, hu⟩ := List.mem_flatten.1 (mem_components g u)
    refine ⟨c, hc, hu, ?_⟩
    obtain ⟨before, after, hsplit⟩ := List.append_of_mem hc
    have hupto : before ++ [c] <+: g.components := ⟨after, by rw [hsplit, List.append_assoc]; rfl⟩
    have hv : v ∈ (before ++ [c]).flatten :=
      reach_components hupto (List.mem_flatten.2 ⟨c, by simp, hu⟩) huv
    rw [List.flatten_append, List.flatten_singleton] at hv
    refine (List.mem_append.1 hv).resolve_left fun hv => ?_
    -- an earlier component would hold the first node as well
    have hu' : u ∈ before.flatten := reach_components ⟨c :: after, hsplit.symm⟩ hv hvu
    have hnodup := nodup_components g
    rw [hsplit, List.flatten_append, List.flatten_cons] at hnodup
    exact (List.nodup_append.1 hnodup).2.2 u hu' u (List.mem_append_left _ hu) rfl

end OwlStructure.Digraph
