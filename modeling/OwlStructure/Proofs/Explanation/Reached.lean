import OwlStructure.Proofs.Explanation.Building
import OwlStructure.Proofs.Explanation.Candidates

/-!
What an explanation places. Axioms that have been placed are skipped in every other branch, and yet
the placed axioms are all that can be reached from the source: when a branch is done, each axiom
that it added leads to entities without a candidate that could still be placed.
-/
namespace OwlStructure

/-- An axiom of a justification may be placed unless its type passes through or it is the
entailment. -/
structure Placeable (config : ExplanationConfig) (entailment : Axiom) (justification : Set Axiom)
    (a : Axiom) : Prop where
  mem : a ∈ justification
  type : config.isPassThrough a.type = false
  ne : a ≠ entailment

/-- The axioms that may be placed and are about the source, or about a class, property or named
individual on the right side of one that is reached. -/
inductive Reached (config : ExplanationConfig) (entailment : Axiom) (justification : Set Axiom) :
    Axiom → Prop where
  | source {e a} (hs : (Seeds.ofKind entailment.kind).source = some e)
    (ha : Placeable config entailment justification a) (he : e ∈ a.defining) :
    Reached config entailment justification a
  | step {b e a} (hb : Reached config entailment justification b) (hright : e ∈ b.kind.rightSide)
    (hsel : Staging.selects e = true) (ha : Placeable config entailment justification a)
    (he : e ∈ a.defining) : Reached config entailment justification a

theorem Reached.placeable {config : ExplanationConfig} {entailment : Axiom}
    {justification : Set Axiom} {a : Axiom} (h : Reached config entailment justification a) :
    Placeable config entailment justification a := by
  cases h with
  | source _ ha _ => exact ha
  | step _ _ _ ha _ => exact ha

/-- Without a source nothing is reached. -/
theorem Reached.exists_source {config : ExplanationConfig} {entailment : Axiom}
    {justification : Set Axiom} {a : Axiom} (h : Reached config entailment justification a) :
    ∃ e, (Seeds.ofKind entailment.kind).source = some e := by
  induction h with
  | source hs _ _ => exact ⟨_, hs⟩
  | step _ _ _ _ _ ih => exact ih

namespace Staging

variable {s : Staging} {entailment a : Axiom} {e : Entity} {path : List Axiom} {depth : Nat}
  {p : Placement} {before middle after : SortedSet Axiom}

/-- The axioms that are reached within a staged justification. -/
def Reaches (s : Staging) (entailment : Axiom) : Axiom → Prop :=
  Reached s.config entailment {a | a ∈ s.axioms}

/-- All candidates of an entity that may be placed have a property. -/
def OfCandidates (s : Staging) (entailment : Axiom) (P : Axiom → Prop) (e : Entity) : Prop :=
  ∀ a ∈ s.candidates e, s.config.isPassThrough a.type = false → a ≠ entailment → P a

/-! ### Only what is reached is placed -/

/-- The candidates of an entity that a reached axiom leads to are reached. -/
theorem Reaches.leads (h : s.IsSound) (ha : s.Reaches entailment a) (he : e ∈ s.leadsTo a) :
    s.OfCandidates entailment (s.Reaches entailment) e := by
  intro b hb htype hne
  obtain ⟨hstaged, hsel, hdef⟩ := h.mem_candidates.1 hb
  exact .step ha ((h.mem_leadsTo ha.placeable.mem).1 he) hsel ⟨hstaged, htype, hne⟩ hdef

theorem place_reaches (h : s.IsSound) (hpath : entailment ∈ path) (ha : a ∈ s.candidates e)
    (he : s.OfCandidates entailment (s.Reaches entailment) e)
    (hp : ∀ b ∈ p.consumed, s.Reaches entailment b)
    (ih : ∀ path e p, entailment ∈ path → s.OfCandidates entailment (s.Reaches entailment) e →
      (∀ b ∈ p.consumed, s.Reaches entailment b) →
        ∀ b ∈ (s.explain depth path e p).consumed, s.Reaches entailment b) :
    ∀ b ∈ (s.place depth path p a).consumed, s.Reaches entailment b := by
  unfold place
  split
  · exact hp
  · next hnew =>
    simp only [isPassedOver_iff, not_or] at hnew
    obtain ⟨htype, -, hoff⟩ := hnew
    have hreach : s.Reaches entailment a :=
      he a ha (Bool.eq_false_iff.2 htype) fun hae => hoff (hae ▸ hpath)
    have hinsert : ∀ b ∈ p.consumed.insert a, s.Reaches entailment b := by
      intro b hb
      rcases SortedSet.mem_insert.1 hb with rfl | hb
      · exact hreach
      · exact hp b hb
    exact List.foldlRecOn
      (motive := fun q : Placement => ∀ b ∈ q.consumed, s.Reaches entailment b) _ _ hinsert
      fun q hq e' he' => ih _ e' q (List.mem_cons_of_mem _ hpath) (hreach.leads h he') hq

theorem explain_reaches (h : s.IsSound) (hpath : entailment ∈ path)
    (he : s.OfCandidates entailment (s.Reaches entailment) e)
    (hp : ∀ a ∈ p.consumed, s.Reaches entailment a) :
    ∀ a ∈ (s.explain depth path e p).consumed, s.Reaches entailment a := by
  induction depth generalizing path e p with
  | zero => exact hp
  | succ depth ih =>
    rw [explain_succ]
    exact List.foldlRecOn
      (motive := fun q : Placement => ∀ a ∈ q.consumed, s.Reaches entailment a) _ _ hp
      fun q hq a ha => place_reaches h hpath ha he hq fun _ _ _ hpath he hp => ih hpath he hp

/-! ### All that is reached is placed -/

/-- Of the candidates of an entity, those that may be placed have been. -/
def Exhausted (s : Staging) (entailment : Axiom) (consumed : SortedSet Axiom) (e : Entity) : Prop :=
  s.OfCandidates entailment (fun a => a ∈ consumed) e

/-- From some placed axioms to more, every new one leads to exhausted entities. -/
structure Exhausts (s : Staging) (entailment : Axiom) (before after : SortedSet Axiom) : Prop where
  subset : ∀ a ∈ before, a ∈ after
  new : ∀ a ∈ after, a ∉ before → ∀ e ∈ s.leadsTo a, s.Exhausted entailment after e

theorem Exhausted.mono (h : s.Exhausted entailment before e) (hs : ∀ a ∈ before, a ∈ after) :
    s.Exhausted entailment after e :=
  fun a ha htype hne => hs a (h a ha htype hne)

namespace Exhausts

theorem refl (s : Staging) (entailment : Axiom) (consumed : SortedSet Axiom) :
    s.Exhausts entailment consumed consumed :=
  ⟨fun _ ha => ha, fun _ ha hnew => absurd ha hnew⟩

theorem trans (h : s.Exhausts entailment before middle) (h' : s.Exhausts entailment middle after) :
    s.Exhausts entailment before after where
  subset a ha := h'.subset a (h.subset a ha)
  new a ha hnew e he := by
    by_cases hm : a ∈ middle
    · exact (h.new a hm hnew e he).mono h'.subset
    · exact h'.new a ha hm e he

/-- An axiom that is used up joins the new ones once all that it leads to is exhausted. -/
theorem of_insert (h : s.Exhausts entailment (before.insert a) after)
    (ha : ∀ e ∈ s.leadsTo a, s.Exhausted entailment after e) :
    s.Exhausts entailment before after where
  subset b hb := h.subset b (SortedSet.mem_insert.2 (.inr hb))
  new b hb hnew := by
    by_cases hba : b = a
    · exact hba ▸ ha
    · exact h.new b hb (by simp [hba, hnew])

/-- Steps that each exhaust, and finish with what they are about, do so as a whole. -/
theorem foldl {f : Placement → α → Placement} {l : List α}
    (finished : SortedSet Axiom → α → Prop)
    (hmono : ∀ c c' x, (∀ a ∈ c, a ∈ c') → finished c x → finished c' x)
    (h : ∀ x ∈ l, ∀ q : Placement, (∀ a ∈ p.consumed, a ∈ q.consumed) →
      s.Exhausts entailment q.consumed (f q x).consumed ∧ finished (f q x).consumed x) :
    s.Exhausts entailment p.consumed (l.foldl f p).consumed ∧
      ∀ x ∈ l, finished (l.foldl f p).consumed x := by
  induction l generalizing p with
  | nil => exact ⟨.refl .., fun x hx => absurd hx List.not_mem_nil⟩
  | cons x l ih =>
    obtain ⟨hx, hdone⟩ := h x List.mem_cons_self p fun _ ha => ha
    obtain ⟨hl, hrest⟩ := ih fun y hy q hq =>
      h y (List.mem_cons_of_mem _ hy) q fun a ha => hq a (hx.subset a ha)
    refine ⟨hx.trans hl, fun y hy => ?_⟩
    rcases List.mem_cons.1 hy with rfl | hy
    · exact hmono _ _ y hl.subset hdone
    · exact hrest y hy

end Exhausts

/-- The depth suffices, and the path holds the entailment and placed axioms only: what the path
rules out is then ruled out anyway. -/
structure Ready (s : Staging) (entailment : Axiom) (depth : Nat) (path : List Axiom)
    (consumed : SortedSet Axiom) : Prop where
  depth : s.unplaced consumed < depth
  path : ∀ a ∈ path, a = entailment ∨ a ∈ consumed

theorem Ready.mono (h : s.Ready entailment depth path before) (hs : ∀ a ∈ before, a ∈ after) :
    s.Ready entailment depth path after where
  depth := Nat.lt_of_le_of_lt (unplaced_le_of_subset hs) h.depth
  path a ha := (h.path a ha).imp_right (hs a)

theorem Ready.below (h : s.Ready entailment (depth + 1) path before) (ha : a ∈ s.axioms)
    (hnew : a ∉ before) : s.Ready entailment depth (a :: path) (before.insert a) where
  depth := by
    have hd := h.depth
    have hlt := unplaced_insert_lt ha hnew
    omega
  path b hb := by
    rcases List.mem_cons.1 hb with rfl | hb
    · exact .inr (SortedSet.mem_insert.2 (.inl rfl))
    · exact (h.path b hb).imp_right fun hb => SortedSet.mem_insert.2 (.inr hb)

theorem place_exhausts (hr : s.Ready entailment (depth + 1) path p.consumed)
    (ha : a ∈ s.axioms)
    (ih : ∀ path e p, s.Ready entailment depth path p.consumed →
      s.Exhausts entailment p.consumed (s.explain depth path e p).consumed ∧
        s.Exhausted entailment (s.explain depth path e p).consumed e) :
    s.Exhausts entailment p.consumed (s.place depth path p a).consumed ∧
      (s.config.isPassThrough a.type = false → a ≠ entailment →
        a ∈ (s.place depth path p a).consumed) := by
  unfold place
  split
  · next hover =>
    refine ⟨.refl .., fun htype hne => ?_⟩
    rcases isPassedOver_iff.1 hover with hpass | hc | hpath
    · rw [htype] at hpass
      cases hpass
    · exact hc
    · exact (hr.path a hpath).resolve_left hne
  · next hnew =>
    have hbelow := hr.below ha (not_mem_consumed_of_not_passedOver hnew)
    obtain ⟨hgrow, hdone⟩ := Exhausts.foldl (p := ⟨p.consumed.insert a, []⟩)
      (f := fun q e => s.explain depth (a :: path) e q) (l := s.leadsTo a)
      (s.Exhausted entailment) (fun _ _ _ hs hf => hf.mono hs)
      fun e _ q hq => ih (a :: path) e q (hbelow.mono hq)
    exact ⟨hgrow.of_insert hdone,
      fun _ _ => hgrow.subset a (SortedSet.mem_insert.2 (.inl rfl))⟩

/-- Explaining an entity exhausts it, and all that the axioms lead to which are placed on the
way. -/
theorem explain_exhausts (h : s.IsSound) (hr : s.Ready entailment depth path p.consumed) :
    s.Exhausts entailment p.consumed (s.explain depth path e p).consumed ∧
      s.Exhausted entailment (s.explain depth path e p).consumed e := by
  induction depth generalizing path e p with
  | zero => exact absurd hr.depth (Nat.not_lt_zero _)
  | succ depth ih =>
    rw [explain_succ]
    apply Exhausts.foldl fun consumed a =>
      s.config.isPassThrough a.type = false → a ≠ entailment → a ∈ consumed
    · exact fun c c' a hs hf htype hne => hs a (hf htype hne)
    · intro a ha q hq
      exact place_exhausts (hr.mono hq) (h.mem_of_mem_candidates ha)
        fun path e p hr => ih hr

/-! ### Placements -/

/-- A placement places just the axioms that are reached. -/
theorem mem_placement (h : s.IsSound) :
    a ∈ (s.placement ∅ entailment (Seeds.ofKind entailment.kind).source).consumed ↔
      s.Reaches entailment a := by
  cases hs : (Seeds.ofKind entailment.kind).source with
  | none =>
    refine ⟨fun ha => absurd ha (SortedSet.not_mem_empty a), fun ha => ?_⟩
    obtain ⟨e, he⟩ := ha.exists_source
    cases hs.symm.trans he
  | some e =>
    constructor
    · apply explain_reaches h List.mem_cons_self
      · intro b hb htype hne
        obtain ⟨hstaged, -, hdef⟩ := h.mem_candidates.1 hb
        exact .source hs ⟨hstaged, htype, hne⟩ hdef
      · exact fun b hb => absurd hb (SortedSet.not_mem_empty b)
    · have hready : s.Ready entailment (s.axioms.size + 1) [entailment] ∅ :=
        ⟨Nat.lt_succ_of_le List.countP_le_length, fun b hb => .inl (List.mem_singleton.1 hb)⟩
      obtain ⟨hgrow, hdone⟩ := explain_exhausts (e := e) (p := ⟨∅, []⟩) h hready
      intro ha
      induction ha with
      | source hs' ha he =>
        cases hs.symm.trans hs'
        exact hdone _ (h.mem_candidates.2 ⟨ha.mem, Seeds.selects_source hs, he⟩) ha.type ha.ne
      | step hb hright hsel ha he ih =>
        have hmem := (h.mem_leadsTo hb.placeable.mem).2 hright
        exact hgrow.new _ ih (SortedSet.not_mem_empty _) _ hmem _
          (h.mem_candidates.2 ⟨ha.mem, hsel, he⟩) ha.type ha.ne

theorem mem_leftovers {consumed : SortedSet Axiom} {target : Option Entity} :
    a ∈ s.leftovers consumed target ↔ a ∈ s.axioms ∧ a ∉ consumed := by
  rw [(s.leftovers_perm consumed target).mem_iff, List.mem_filter, decide_eq_true_eq,
    SortedSet.mem_toList]

theorem nodup_leftovers (s : Staging) (consumed : SortedSet Axiom) (target : Option Entity) :
    (s.leftovers consumed target).Nodup :=
  (s.leftovers_perm consumed target).nodup_iff.2 (s.axioms.nodup_toList.filter _)

/-- The nodes that a placement adds below the root are one for each axiom that is reached. -/
theorem exists_reached (h : s.IsSound) (entailment : Axiom) :
    let p := s.placement ∅ entailment (Seeds.ofKind entailment.kind).source
    ∃ reached : List Axiom,
      p.children.flatMap ExplanationTree.nodes = reached.map .justification ∧
        reached.Nodup ∧ (∀ a, a ∈ reached ↔ s.Reaches entailment a) ∧
        p.consumed.size = reached.length := by
  intro p
  obtain ⟨added, -, hnodes, hconsumed⟩ :=
    exists_placed h entailment (Seeds.ofKind entailment.kind).source
  obtain ⟨reached, heq, hperm⟩ := ExplanationOrderer.exists_map_justification hnodes
  have hc : p.consumed.toList.Perm reached := hconsumed.trans hperm.symm
  refine ⟨reached, heq, hc.nodup_iff.1 p.consumed.nodup_toList, fun a => ?_, hc.length_eq⟩
  rw [← hc.mem_iff, SortedSet.mem_toList]
  exact mem_placement h

end Staging

namespace ExplanationOrderer

/-- The axioms that are placed below the root of a built tree by the entities that they explain are
the least set that holds what may be placed and is about the source, and with an axiom what may be
placed and is about an entity that it leads to. All others, those that pass through and the
entailment among them, are leaves after them. -/
theorem order_places_reached (o o' : ExplanationOrderer) (l l' : Library) (number : Nat)
    (entailment : Axiom) (justification : List Axiom) (t : ExplanationTree)
    (h : o.order l number entailment justification = (.ok t, o', l')) :
    let reaches := Reached o.config entailment {a | a ∈ justification}
    ∃ (placed : List ExplanationTree) (reached rest : List Axiom),
      t = .node (.entailment entailment)
        (placed ++ rest.map fun a => .node (.justification a) []) ∧
      (placed.flatMap ExplanationTree.nodes = reached.map .justification ∧ reached.Nodup ∧
        ∀ a, a ∈ reached ↔ reaches a) ∧
      (rest.Nodup ∧ ∀ a, a ∈ rest ↔ a ∈ justification ∧ ¬ reaches a) ∧
      (∀ a ∈ justification, o.config.isPassThrough a.type = true ∨ a = entailment → a ∈ rest) ∧
      ((Seeds.ofKind entailment.kind).source = none → placed = []) ∧
      ∃ report, o'.lastReport = some report ∧ report.placed = reached.length ∧
        report.leftovers = justification.dedup.length - reached.length := by
  intro reaches
  obtain ⟨s, consumed, leftovers, hs, hconfig, ha, hb, rfl⟩ := order_eq_ok h
  obtain ⟨-, hcount, -⟩ := build_nodes hs hb
  simp only [build, Prod.mk.injEq] at hb
  obtain ⟨rfl, rfl, rfl⟩ := hb
  obtain ⟨reached, hnodes, hnodup, hreached, hsize⟩ := Staging.exists_reached hs entailment
  set seeds := Seeds.ofKind entailment.kind
  set p := s.placement ∅ entailment seeds.source
  have hmem (a : Axiom) : a ∈ s.axioms ↔ a ∈ justification := by rw [ha, SortedSet.mem_ofList]
  have hreaches (a : Axiom) : s.Reaches entailment a ↔ reaches a := by
    unfold Staging.Reaches
    simp only [hconfig, hmem, reaches]
  have hrest (a : Axiom) : a ∈ s.leftovers p.consumed seeds.target ↔
      a ∈ justification ∧ ¬ reaches a := by
    rw [Staging.mem_leftovers, hmem, Staging.mem_placement hs, hreaches]
  refine ⟨p.children, reached, s.leftovers p.consumed seeds.target, rfl,
    ⟨hnodes, hnodup, fun a => (hreached a).trans (hreaches a)⟩,
    ⟨s.nodup_leftovers _ _, hrest⟩, ?_, ?_, _, rfl, hsize, ?_⟩
  · rintro a hj hout
    refine (hrest a).2 ⟨hj, fun hr => ?_⟩
    have hplace := hr.placeable
    rcases hout with htype | rfl
    · exact absurd htype (Bool.eq_false_iff.1 hplace.type)
    · exact hplace.ne rfl
  · intro hnone
    simp only [p, hnone]
    rfl
  · have hd : s.axioms.size = justification.dedup.length := by
      rw [ha]
      exact (SortedSet.toList_ofList_perm justification).length_eq
    rw [← hd, ← hcount, hsize]
    exact (Nat.add_sub_cancel_left ..).symm

/-- Two classes below each other are placed; the entailment and a disjointness, which passes
through, are left over although they are about the source. -/
theorem order_places_reached_cyclic :
    let named (c : String) := ClassExpression.named ⟨⟨c⟩⟩
    let sub (c d : String) := Axiom.subClassOf (named c) (named d)
    let disjoint : Axiom := ⟨.disjointClasses (.ofList [named "A", named "D"]), rfl⟩
    let justification := [sub "B" "A", disjoint, sub "A" "B", sub "A" "C"]
    ∃ t o' l', (new default).order (.empty 1) 0 (sub "A" "C") justification = (.ok t, o', l') ∧
      ∃ (placed : List ExplanationTree) (rest : List Axiom),
        t = .node (.entailment (sub "A" "C"))
          (placed ++ rest.map fun a => .node (.justification a) []) ∧
        .justification (sub "B" "A") ∈ placed.flatMap ExplanationTree.nodes ∧
        disjoint ∈ rest ∧ sub "A" "C" ∈ rest := by
  intro named sub disjoint justification
  obtain ⟨t, ht⟩ := (order_isOk_iff (new default) (.empty 1) 0 (sub "A" "C") justification).2 rfl
  have h : (new default).order (.empty 1) 0 (sub "A" "C") justification = (.ok t, _, _) :=
    Prod.ext ht rfl
  obtain ⟨placed, reached, rest, rfl, ⟨hnodes, -, hreached⟩, -, hrest, -⟩ :=
    order_places_reached _ _ _ _ _ _ _ _ h
  have hab : Reached default (sub "A" "C") {a | a ∈ justification} (sub "A" "B") :=
    .source (e := .namedClass ⟨⟨"A"⟩⟩) rfl ⟨by decide, by decide, by decide⟩ (by decide)
  have hba : Reached default (sub "A" "C") {a | a ∈ justification} (sub "B" "A") :=
    hab.step (e := .namedClass ⟨⟨"B"⟩⟩) (by decide) rfl ⟨by decide, by decide, by decide⟩
      (by decide)
  refine ⟨_, _, _, h, placed, rest, rfl, ?_, hrest disjoint (by decide) (.inl (by decide)),
    hrest (sub "A" "C") (by decide) (.inr rfl)⟩
  rw [hnodes]
  exact List.mem_map_of_mem ((hreached _).2 hba)

end ExplanationOrderer

end OwlStructure
