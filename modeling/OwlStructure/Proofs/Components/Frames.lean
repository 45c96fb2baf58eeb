import OwlStructure.Proofs.Components.Path

/-!
The invariant of the component search. The frames leave some successors of the nodes of the path
to look at; every other edge of an opened node has been seen. An edge between nodes on the stack
that has been seen reaches no further down than the low links of the path do.
-/
namespace OwlStructure.ComponentSearch

open Relation

variable {n : Nat} {g : Digraph n} {s : ComponentSearch n} {u v w x : Fin n}
  {rest : List (Fin n)} {frames above below : List (SearchFrame n)}

/-- The nodes of the frames, the last entered first. -/
def pathOf (frames : List (SearchFrame n)) : List (Fin n) := frames.map Prod.fst

/-- An edge that no frame has still to look at. -/
def Seen (g : Digraph n) (frames : List (SearchFrame n)) (u w : Fin n) : Prop :=
  g.Edge u w ∧ ∀ f ∈ frames, f.1 = u → w ∉ f.2

theorem Seen.of_entered (h : Seen g ((w, g.successors.get w) :: frames) u x) :
    u ≠ w ∧ Seen g frames u x := by
  refine ⟨?_, h.1, fun f hf => h.2 f (List.mem_cons_of_mem _ hf)⟩
  rintro rfl
  exact h.2 _ List.mem_cons_self rfl h.1

theorem Seen.of_advanced (h : Seen g (above ++ (v, rest) :: below) u x) (hne : u = v → x ≠ w) :
    Seen g (above ++ (v, w :: rest) :: below) u x := by
  refine ⟨h.1, fun f hf he => ?_⟩
  rcases List.mem_append.1 hf with hf | hf
  · exact h.2 f (List.mem_append_left _ hf) he
  rcases List.mem_cons.1 hf with rfl | hf
  · have hx : x ∉ rest := h.2 (v, rest) (List.mem_append_right _ List.mem_cons_self) he
    exact fun hm => (List.mem_cons.1 hm).elim (hne he.symm) hx
  · exact h.2 f (List.mem_append_right _ (List.mem_cons_of_mem _ hf)) he

theorem Seen.of_left (h : Seen g below u x) : Seen g ((v, []) :: below) u x := by
  refine ⟨h.1, fun f hf he => ?_⟩
  rcases List.mem_cons.1 hf with rfl | hf
  · exact List.not_mem_nil
  · exact h.2 f hf he

structure Following (g : Digraph n) (s : ComponentSearch n) (frames : List (SearchFrame n)) :
    Prop where
  wellFormed : WellFormed g s
  onPath : OnPath g s (pathOf frames)
  pending : ∀ f ∈ frames, ∀ w ∈ f.2, g.Edge f.1 w
  seen_opened : ∀ u w, s.Opened u → Seen g frames u w → s.Opened w
  covered : ∀ u ∈ s.stack, ∀ w ∈ s.stack, Seen g frames u w →
    ∀ v ∈ pathOf frames, s.rank v ≤ s.rank u →
      ∃ x ∈ pathOf frames, s.rank v ≤ s.rank x ∧ s.low x ≤ s.rank w

namespace Following

theorem initial : Following g ComponentSearch.initial [] where
  wellFormed := .initial
  onPath := by constructor <;> simp [pathOf, ComponentSearch.initial]
  pending := by simp
  seen_opened u _ hu := absurd hu (not_opened_initial u)
  covered := by simp [ComponentSearch.initial]

/-- A node of the path is found to lead to a node on the stack. -/
theorem lower (h : Following g s frames) (hx : x ∈ s.stack) (hr : g.Reach v x) :
    Following g (s.lower v (s.rank x)) frames where
  wellFormed := h.wellFormed.lower v _
  onPath := h.onPath.lower hx hr
  pending := h.pending
  seen_opened := h.seen_opened
  covered u hu w hw he y hy hle := by
    obtain ⟨z, hz, hyz, hlow⟩ := h.covered u hu w hw he y hy hle
    refine ⟨z, hz, hyz, ?_⟩
    show (s.lower v (s.rank x)).low z ≤ s.rank w
    rw [low_lower]
    split
    · next hv =>
      subst hv
      omega
    · exact hlow

/-- The search enters a node that the whole path leads to. -/
theorem enter (h : Following g s frames) (hw : ¬ s.Opened w)
    (hr : ∀ v ∈ pathOf frames, g.Reach v w) :
    Following g (s.enter w) ((w, g.successors.get w) :: frames) := by
  have hne {x : Fin n} (hx : s.Opened x) : w ≠ x := WellFormed.ne_of_not_opened hw hx
  have hmem {x : Fin n} (hx : x ∈ (s.enter w).stack) (hxw : x ≠ w) : x ∈ s.stack :=
    (List.mem_cons.1 hx).resolve_left hxw
  have hopened {x : Fin n} (hx : x ∈ s.stack) : s.Opened x := h.wellFormed.opened_of_mem hx
  refine
    { wellFormed := h.wellFormed.enter hw, onPath := h.onPath.enter h.wellFormed hw hr,
      pending := ?_, seen_opened := ?_, covered := ?_ }
  · intro f hf x hx
    rcases List.mem_cons.1 hf with rfl | hf
    · exact hx
    · exact h.pending f hf x hx
  · intro u x hu he
    obtain ⟨huw, he⟩ := he.of_entered
    have hu' : s.Opened u := (opened_enter.1 hu).resolve_left (Ne.symm huw)
    exact opened_enter.2 (.inr (h.seen_opened u x hu' he))
  · intro u hu x hx he v hv hle
    obtain ⟨huw, he⟩ := he.of_entered
    have hu' := hmem hu huw
    have hx' := hmem hx (hne (h.seen_opened u x (hopened hu') he)).symm
    rw [rank_enter_of_ne (hne (hopened hu'))] at hle
    rcases List.mem_cons.1 hv with rfl | hv
    · have := h.wellFormed.rank_lt u (hopened hu')
      rw [rank_enter_self] at hle
      omega
    have hvw := hne (hopened (h.onPath.on_stack v hv))
    rw [rank_enter_of_ne hvw] at hle ⊢
    obtain ⟨y, hy, hvy, hlow⟩ := h.covered u hu' x hx' he v hv hle
    have hyw := hne (hopened (h.onPath.on_stack y hy))
    refine ⟨y, List.mem_cons_of_mem _ hy, ?_, ?_⟩
    · rw [rank_enter_of_ne hyw]
      exact hvy
    · rw [low_enter, if_neg hyw, rank_enter_of_ne (hne (hopened hx'))]
      exact hlow

/-- The search passes over an edge to an opened node. If that node is on the stack, a low link
covers the edge already. -/
theorem advance (above : List (SearchFrame n))
    (h : Following g s (above ++ (v, w :: rest) :: below)) (hw : s.Opened w)
    (hlow : w ∈ s.stack → ∃ x ∈ pathOf (above ++ (v, rest) :: below),
      s.rank v ≤ s.rank x ∧ s.low x ≤ s.rank w) :
    Following g s (above ++ (v, rest) :: below) := by
  have hpath : pathOf (above ++ (v, w :: rest) :: below) = pathOf (above ++ (v, rest) :: below) :=
    by simp [pathOf]
  refine
    { wellFormed := h.wellFormed, onPath := hpath ▸ h.onPath, pending := ?_, seen_opened := ?_,
      covered := ?_ }
  · intro f hf x hx
    rcases List.mem_append.1 hf with hf | hf
    · exact h.pending f (List.mem_append_left _ hf) x hx
    rcases List.mem_cons.1 hf with rfl | hf
    · exact h.pending (v, w :: rest) (List.mem_append_right _ List.mem_cons_self) x
        (List.mem_cons_of_mem _ hx)
    · exact h.pending f (List.mem_append_right _ (List.mem_cons_of_mem _ hf)) x hx
  · intro u x hu he
    by_cases hxw : x = w
    · exact hxw ▸ hw
    · exact h.seen_opened u x hu (he.of_advanced fun _ => hxw)
  · intro u hu x hx he y hy hle
    by_cases hedge : u = v ∧ x = w
    · obtain ⟨rfl, rfl⟩ := hedge
      obtain ⟨z, hz, huz, hlow⟩ := hlow hx
      exact ⟨z, hz, Nat.le_trans hle huz, hlow⟩
    · have he' := he.of_advanced fun huv hxw => hedge ⟨huv, hxw⟩
      rw [← hpath] at hy ⊢
      exact h.covered u hu x hx he' y hy hle

/-! ### Leaving a node -/

theorem rank_eq_top (h : Following g s ((v, []) :: below)) (hx : x ∈ v :: pathOf below)
    (hle : s.rank v ≤ s.rank x) : x = v := by
  rcases List.mem_cons.1 hx with hx | hx
  · exact hx
  · have hlt : s.rank x < s.rank v := h.onPath.rank_lt_top hx
    omega

/-- The search leaves a node that leads further down. The node before it on the path has been
found to lead as far down. -/
theorem leave (h : Following g s ((v, []) :: below)) (hne : s.low v ≠ s.rank v)
    (hparent : ∀ u ∈ (pathOf below).head?, s.low u ≤ s.low v) :
    Following g s below where
  wellFormed := h.wellFormed
  onPath := h.onPath.leave hne
  pending f hf := h.pending f (List.mem_cons_of_mem _ hf)
  seen_opened u w hu he := h.seen_opened u w hu he.of_left
  covered u hu w hw he y hy hle := by
    obtain ⟨x, hx, hyx, hlow⟩ := h.covered u hu w hw he.of_left y (List.mem_cons_of_mem _ hy) hle
    rcases List.mem_cons.1 hx with rfl | hx
    · -- what the node covers, the node before it covers
      obtain ⟨p, path, hp⟩ := List.exists_cons_of_ne_nil (List.ne_nil_of_mem hy)
      have hpath : OnPath g s (p :: path) := hp ▸ h.onPath.leave hne
      have hle := hparent p (by rw [hp]; rfl)
      exact ⟨p, hp ▸ List.mem_cons_self, hpath.rank_le_top (hp ▸ hy), Nat.le_trans hle hlow⟩
    · exact ⟨x, hx, hyx, hlow⟩

section Segment

variable {upper lower : List (Fin n)}

/-- The nodes above a node that leads no further down lead to each other and to completed nodes
alone. -/
theorem segment_closed (h : Following g s ((v, []) :: below)) (heq : s.low v = s.rank v)
    (hs : s.stack = upper ++ v :: lower) (hu : u ∈ upper ++ [v]) (he : g.Edge u w) :
    w ∈ upper ++ [v] ∨ w ∈ s.components.flatten := by
  obtain ⟨hu, hvu⟩ := (h.wellFormed.mem_segment hs).1 hu
  have hseen : Seen g ((v, []) :: below) u w := by
    refine ⟨he, fun f hf hfu => ?_⟩
    rcases List.mem_cons.1 hf with rfl | hf
    · exact List.not_mem_nil
    · have hlt : s.rank f.1 < s.rank v := h.onPath.rank_lt_top (List.mem_map_of_mem hf)
      rw [hfu] at hlt
      omega
  have hopened := h.seen_opened u w (h.wellFormed.opened_of_mem hu) hseen
  rcases (h.wellFormed.opened_iff w).1 hopened with hw | hw
  · obtain ⟨x, hx, hvx, hlow⟩ := h.covered u hu w hw hseen v List.mem_cons_self hvu
    obtain rfl := h.rank_eq_top hx hvx
    exact .inl ((h.wellFormed.mem_segment hs).2 ⟨hw, by omega⟩)
  · exact .inr hw

theorem segment_leads (h : Following g s ((v, []) :: below)) (heq : s.low v = s.rank v)
    (hs : s.stack = upper ++ v :: lower) (hu : u ∈ upper ++ [v]) (hr : g.Reach u w) :
    w ∈ upper ++ [v] ∨ w ∈ s.components.flatten := by
  induction hr with
  | refl => exact .inl hu
  | tail _ he ih =>
    rcases ih with ih | ih
    · exact h.segment_closed heq hs ih he
    · exact .inr (h.wellFormed.closed _ List.prefix_rfl _ ih _ he)

/-- Every node of the segment leads back to the first one: each leads to an earlier one on the
stack, and that one is in the segment. -/
theorem segment_reach (h : Following g s ((v, []) :: below)) (heq : s.low v = s.rank v)
    (hs : s.stack = upper ++ v :: lower) (hu : u ∈ upper ++ [v]) : g.Reach u v := by
  have hback (k : Nat) : ∀ u ∈ upper ++ [v], s.rank u = k → g.Reach u v := by
    induction k using Nat.strongRecOn with
    | _ k ih =>
      intro u hu hk
      obtain ⟨hstack, hvu⟩ := (h.wellFormed.mem_segment hs).1 hu
      by_cases hpath : u ∈ v :: pathOf below
      · rw [h.rank_eq_top hpath hvu]
      · obtain ⟨x, hx, hlt, hp⟩ := h.onPath.left u hstack hpath
        have hx' := (h.segment_leads heq hs hu hp).resolve_right
          (h.wellFormed.not_mem_completed hx)
        exact hp.trans (ih (s.rank x) (hk ▸ hlt) x hx' rfl)
  exact hback _ u hu rfl

/-- The search leaves a node that leads no further down, with its component. -/
theorem pop (h : Following g s ((v, []) :: below)) (heq : s.low v = s.rank v)
    (hs : s.stack = upper ++ v :: lower) :
    Following g
      { s with
        onStack := unmark s.onStack (upper ++ [v])
        stack := lower
        components := s.components ++ [upper ++ [v]] } below := by
  have hlower {x : Fin n} : x ∈ lower ↔ x ∈ s.stack ∧ s.rank x < s.rank v :=
    h.wellFormed.mem_below hs
  refine
    { wellFormed := ?_, onPath := h.onPath.pop h.wellFormed hs _ _,
      pending := fun f hf => h.pending f (List.mem_cons_of_mem _ hf),
      seen_opened := fun u w hu he => h.seen_opened u w hu he.of_left, covered := ?_ }
  · refine h.wellFormed.pop hs (fun u hu w he => h.segment_closed heq hs hu he) ?_
    intro u hu w hw
    obtain ⟨hw, hvw⟩ := (h.wellFormed.mem_segment hs).1 hw
    exact (h.segment_reach heq hs hu).trans (h.onPath.reach v List.mem_cons_self w hw hvw)
  · intro u hu w hw he y hy hle
    obtain ⟨hu, -⟩ := hlower.1 hu
    obtain ⟨hw, hwv⟩ := hlower.1 hw
    obtain ⟨x, hx, hyx, hlow⟩ := h.covered u hu w hw he.of_left y (List.mem_cons_of_mem _ hy) hle
    rcases List.mem_cons.1 hx with rfl | hx
    · have hle : s.low x ≤ s.rank w := hlow
      rw [heq] at hle
      exact absurd hwv (Nat.not_lt_of_le hle)
    · exact ⟨x, hx, hyx, hlow⟩

end Segment

theorem complete (h : Following g s ((v, []) :: below))
    (hparent : ∀ u ∈ (pathOf below).head?, s.low u ≤ s.low v) :
    Following g (s.complete v) below := by
  have hv : v ∈ s.stack := h.onPath.on_stack v List.mem_cons_self
  have hindex : s.index[v] = some (s.rank v) := (h.wellFormed.opened_of_mem hv).index_eq
  unfold ComponentSearch.complete
  rw [hindex]
  split
  · next he =>
    obtain ⟨upper, lower, hs, hp⟩ := exists_popThrough hv
    rw [hp]
    exact h.pop (Option.some.inj he).symm hs
  · next hne => exact h.leave (fun he => hne (congrArg some he.symm)) hparent

/-- The search leaves a node none of whose successors it has still to look at. -/
theorem finish (h : Following g s ((v, []) :: below)) :
    Following g (s.leave v (below.head?.map Prod.fst)) below := by
  cases below with
  | nil => exact h.complete (by simp [pathOf])
  | cons f below =>
    obtain ⟨u, rest⟩ := f
    have huv : s.rank u < s.rank v := h.onPath.rank_lt_top List.mem_cons_self
    obtain ⟨x, hx, he, hp⟩ := h.onPath.low_reached v List.mem_cons_self
    have hv : v ∈ s.stack := h.onPath.on_stack v List.mem_cons_self
    have hr : g.Reach u v :=
      h.onPath.reach u (List.mem_cons_of_mem _ List.mem_cons_self) v hv (Nat.le_of_lt huv)
    have hne : u ≠ v := fun e => Nat.lt_irrefl _ (e ▸ huv)
    have hlower := h.lower hx (hr.trans hp)
    rw [he] at hlower
    refine hlower.complete fun p hp => ?_
    obtain rfl : u = p := Option.some.inj hp
    rw [low_lower, low_lower, if_pos rfl, if_neg hne]
    exact Nat.min_le_right _ _

end Following

end OwlStructure.ComponentSearch
