import OwlStructure.Proofs.Components.Records

/-!
The nodes that the component search has entered and not left. They are on the stack, the top one
last opened, and each leads to all that was opened after it; every other node on the stack leads to
an earlier one there.
-/
namespace OwlStructure.ComponentSearch

open Relation

variable {n : Nat} {g : Digraph n} {s : ComponentSearch n} {v w x : Fin n} {path : List (Fin n)}

structure OnPath (g : Digraph n) (s : ComponentSearch n) (path : List (Fin n)) : Prop where
  on_stack : ∀ v ∈ path, v ∈ s.stack
  descending : path.Pairwise fun u v => s.rank v < s.rank u
  reach : ∀ v ∈ path, ∀ x ∈ s.stack, s.rank v ≤ s.rank x → g.Reach v x
  low_le : ∀ v ∈ path, s.low v ≤ s.rank v
  low_reached : ∀ v ∈ path, ∃ x ∈ s.stack, s.rank x = s.low v ∧ g.Reach v x
  left : ∀ u ∈ s.stack, u ∉ path → ∃ x ∈ s.stack, s.rank x < s.rank u ∧ g.Reach u x

namespace OnPath

theorem rank_lt_top (h : OnPath g s (v :: path)) (hx : x ∈ path) : s.rank x < s.rank v :=
  (List.pairwise_cons.1 h.descending).1 x hx

theorem rank_le_top (h : OnPath g s (v :: path)) (hx : x ∈ v :: path) : s.rank x ≤ s.rank v := by
  rcases List.mem_cons.1 hx with rfl | hx
  · exact Nat.le_refl _
  · exact Nat.le_of_lt (h.rank_lt_top hx)

theorem enter (h : OnPath g s path) (hwf : WellFormed g s) (hw : ¬ s.Opened w)
    (hr : ∀ v ∈ path, g.Reach v w) : OnPath g (s.enter w) (w :: path) := by
  have hne {x : Fin n} (hx : x ∈ s.stack) : w ≠ x :=
    WellFormed.ne_of_not_opened hw (hwf.opened_of_mem hx)
  have hrank {x : Fin n} (hx : x ∈ s.stack) : (s.enter w).rank x = s.rank x :=
    rank_enter_of_ne (hne hx)
  have hlow {x : Fin n} (hx : x ∈ s.stack) : (s.enter w).low x = s.low x := by
    rw [low_enter, if_neg (hne hx)]
  have hlt {x : Fin n} (hx : x ∈ s.stack) : s.rank x < s.nextIndex :=
    hwf.rank_lt x (hwf.opened_of_mem hx)
  have hloww : (s.enter w).low w = s.nextIndex := by rw [low_enter, if_pos rfl]
  have hstack : (s.enter w).stack = w :: s.stack := rfl
  refine
    { on_stack := ?_, descending := ?_, reach := ?_, low_le := ?_, low_reached := ?_, left := ?_ }
  · intro v hv
    rw [hstack]
    rcases List.mem_cons.1 hv with rfl | hv
    · exact List.mem_cons_self
    · exact List.mem_cons_of_mem _ (h.on_stack v hv)
  · refine List.pairwise_cons.2 ⟨?_, ?_⟩
    · intro v hv
      rw [rank_enter_self, hrank (h.on_stack v hv)]
      exact hlt (h.on_stack v hv)
    · refine h.descending.imp_of_mem fun hu hv huv => ?_
      rw [hrank (h.on_stack _ hu), hrank (h.on_stack _ hv)]
      exact huv
  · intro v hv x hx hle
    rw [hstack] at hx
    rcases List.mem_cons.1 hv with rfl | hv'
    · rcases List.mem_cons.1 hx with rfl | hx'
      · exact .refl
      · rw [rank_enter_self, hrank hx'] at hle
        have := hlt hx'
        omega
    · rcases List.mem_cons.1 hx with rfl | hx'
      · exact hr v hv'
      · rw [hrank (h.on_stack v hv'), hrank hx'] at hle
        exact h.reach v hv' x hx' hle
  · intro v hv
    rcases List.mem_cons.1 hv with rfl | hv
    · exact Nat.le_of_eq (by rw [hloww, rank_enter_self])
    · rw [hlow (h.on_stack v hv), hrank (h.on_stack v hv)]
      exact h.low_le v hv
  · intro v hv
    rw [hstack]
    rcases List.mem_cons.1 hv with rfl | hv
    · exact ⟨v, List.mem_cons_self, by rw [hloww, rank_enter_self], .refl⟩
    · obtain ⟨x, hx, he, hp⟩ := h.low_reached v hv
      refine ⟨x, List.mem_cons_of_mem _ hx, ?_, hp⟩
      rw [hrank hx, hlow (h.on_stack v hv), he]
  · intro u hu hn
    rw [hstack] at hu ⊢
    rw [List.mem_cons, not_or] at hn
    have hu' := (List.mem_cons.1 hu).resolve_left hn.1
    obtain ⟨x, hx, hlt', hp⟩ := h.left u hu' hn.2
    refine ⟨x, List.mem_cons_of_mem _ hx, ?_, hp⟩
    rw [hrank hx, hrank hu']
    exact hlt'

/-- A node of the path is found to lead to a node on the stack. -/
theorem lower (h : OnPath g s path) (hx : x ∈ s.stack) (hr : g.Reach v x) :
    OnPath g (s.lower v (s.rank x)) path where
  on_stack := h.on_stack
  descending := h.descending
  reach := h.reach
  low_le u hu := by
    have := h.low_le u hu
    show (s.lower v (s.rank x)).low u ≤ s.rank u
    rw [low_lower]
    split
    · next he =>
      subst he
      omega
    · exact this
  low_reached u hu := by
    obtain ⟨y, hy, he, hp⟩ := h.low_reached u hu
    show ∃ z ∈ s.stack, s.rank z = (s.lower v (s.rank x)).low u ∧ g.Reach u z
    rw [low_lower]
    split
    · next hv =>
      subst hv
      by_cases hle : s.low v ≤ s.rank x
      · exact ⟨y, hy, by omega, hp⟩
      · exact ⟨x, hx, by omega, hr⟩
    · exact ⟨y, hy, he, hp⟩
  left := h.left

/-- The search leaves a node that leads to an earlier one on the stack. -/
theorem leave (h : OnPath g s (v :: path)) (hlow : s.low v ≠ s.rank v) :
    OnPath g s path where
  on_stack u hu := h.on_stack u (List.mem_cons_of_mem _ hu)
  descending := (List.pairwise_cons.1 h.descending).2
  reach u hu := h.reach u (List.mem_cons_of_mem _ hu)
  low_le u hu := h.low_le u (List.mem_cons_of_mem _ hu)
  low_reached u hu := h.low_reached u (List.mem_cons_of_mem _ hu)
  left u hu hn := by
    by_cases he : u = v
    · subst he
      obtain ⟨x, hx, hrank, hp⟩ := h.low_reached u List.mem_cons_self
      have := h.low_le u List.mem_cons_self
      exact ⟨x, hx, by omega, hp⟩
    · exact h.left u hu fun hm => (List.mem_cons.1 hm).elim he hn

/-- The search leaves a node and takes it from the stack, with all nodes above it. -/
theorem pop (h : OnPath g s (v :: path)) (hwf : WellFormed g s) {above rest : List (Fin n)}
    (hs : s.stack = above ++ v :: rest) (onStack : Vector Bool n)
    (components : List (List (Fin n))) :
    OnPath g { s with onStack, stack := rest, components } path := by
  have hlt {x : Fin n} (hx : x ∈ path) : s.rank x < s.rank v := h.rank_lt_top hx
  have hrest {x : Fin n} : x ∈ rest ↔ x ∈ s.stack ∧ s.rank x < s.rank v := hwf.mem_below hs
  refine
    { on_stack := ?_, descending := (List.pairwise_cons.1 h.descending).2, reach := ?_,
      low_le := fun u hu => h.low_le u (List.mem_cons_of_mem _ hu), low_reached := ?_,
      left := ?_ }
  · intro u hu
    exact hrest.2 ⟨h.on_stack u (List.mem_cons_of_mem _ hu), hlt hu⟩
  · intro u hu x hx hle
    exact h.reach u (List.mem_cons_of_mem _ hu) x (hrest.1 hx).1 hle
  · intro u hu
    obtain ⟨x, hx, he, hp⟩ := h.low_reached u (List.mem_cons_of_mem _ hu)
    have hle := h.low_le u (List.mem_cons_of_mem _ hu)
    have := hlt hu
    exact ⟨x, hrest.2 ⟨hx, by omega⟩, he, hp⟩
  · intro u hu hn
    obtain ⟨hu', hult⟩ := hrest.1 hu
    have hnv : u ∉ v :: path := by
      intro hm
      rcases List.mem_cons.1 hm with rfl | hm
      · omega
      · exact hn hm
    obtain ⟨x, hx, hxlt, hp⟩ := h.left u hu' hnv
    exact ⟨x, hrest.2 ⟨hx, Nat.lt_trans hxlt hult⟩, hxlt, hp⟩

/-- Without a path nothing is on the stack. -/
theorem stack_eq_nil (h : OnPath g s []) : s.stack = [] := by
  have hn (k : Nat) : ∀ u ∈ s.stack, s.rank u = k → False := by
    induction k using Nat.strongRecOn with
    | _ k ih =>
      intro u hu hk
      obtain ⟨x, hx, hlt, _⟩ := h.left u hu List.not_mem_nil
      exact ih (s.rank x) (hk ▸ hlt) x hx rfl
  exact List.eq_nil_iff_forall_not_mem.2 fun u hu => hn _ u hu rfl

end OnPath

end OwlStructure.ComponentSearch
