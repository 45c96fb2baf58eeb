import Mathlib.Logic.Relation
import OwlStructure.Proofs.Explanation.Sources

/-!
The placement of a justification call by call. All calls share the axioms that have been used up and
one path, on which each puts the axiom that it is placing and from which it takes that axiom again.
A call that waits for another has used up an axiom since it was entered. So calls are nested no
deeper than there are axioms, however the axioms lead to each other, and the placement ends.
-/
namespace OwlStructure

open ExplanationTree Relation

/-- The node of an axiom that is being placed: the entities that have still to be explained below
it, and the children that stand before it. -/
structure OpenNode where
  statement : Axiom
  ahead : List Entity
  siblings : List ExplanationTree

/-- A call that has not returned: the candidates that it has still to look at, and the node that it
has open, if it waits for calls below one. The path and the used up axioms that it was entered with
are kept for comparison; no turn looks at them. -/
structure PlacementCall where
  pending : List Axiom
  opened : Option OpenNode
  entryPath : List Axiom
  entryConsumed : SortedSet Axiom

/-- Where a placement stands: the axioms used up with the children of the node at hand, the path to
this node, and the calls, the innermost first. -/
structure PlacementMoment where
  placement : Placement
  path : List Axiom
  calls : List PlacementCall

namespace Staging

/-- Enters a call that explains an entity below the node at hand. -/
def enter (s : Staging) (e : Entity) (m : PlacementMoment) : PlacementMoment :=
  { m with calls := ⟨(s.candidates e).toList, none, m.path, m.placement.consumed⟩ :: m.calls }

/-- The innermost call returns, passes over a candidate or opens a node for it, closes its node, or
enters a call for the next entity that the axiom of its node leads to. -/
def turn? (s : Staging) : PlacementMoment → Option PlacementMoment
  | ⟨_, _, []⟩ => none
  | ⟨p, path, c :: below⟩ =>
    match c.opened, c.pending with
    | none, [] => some ⟨⟨p.consumed, sortSiblings p.children⟩, path, below⟩
    | none, a :: rest =>
      if s.isPassedOver path p.consumed a then some ⟨p, path, { c with pending := rest } :: below⟩
      else
        some ⟨⟨p.consumed.insert a, []⟩, a :: path,
          { c with pending := rest, opened := some ⟨a, s.leadsTo a, p.children⟩ } :: below⟩
    | some ⟨a, [], siblings⟩, _ =>
      some ⟨⟨p.consumed, siblings ++ [.node (.justification a) p.children]⟩, path.tail,
        { c with opened := none } :: below⟩
    | some ⟨a, e :: ahead, siblings⟩, _ =>
      some (s.enter e ⟨p, path, { c with opened := some ⟨a, ahead, siblings⟩ } :: below⟩)

/-- Any number of turns leads from one moment to the other. -/
abbrev Runs (s : Staging) : PlacementMoment → PlacementMoment → Prop :=
  ReflTransGen fun m m' => s.turn? m = some m'

/-- Calls that all wait for a call further in. The path begins with the axioms of their open nodes,
and each of them has used up the axiom of its node since it was entered. -/
inductive Waiting (s : Staging) (start : List Axiom) :
    (path : List Axiom) → (consumed : SortedSet Axiom) → List PlacementCall → Prop where
  | nil {consumed} : Waiting s start start consumed []
  | cons {a ahead siblings pending entryPath entryConsumed consumed below}
    (staged : ∀ b ∈ a :: pending, b ∈ s.axioms) (since : ∀ b ∈ entryConsumed, b ∈ consumed)
    (placed : a ∈ consumed) (new : a ∉ entryConsumed)
    (callers : Waiting s start entryPath entryConsumed below) :
    Waiting s start (a :: entryPath) consumed
      (⟨pending, some ⟨a, ahead, siblings⟩, entryPath, entryConsumed⟩ :: below)

/-- Only staged axioms have been used up, and all calls wait, or the innermost is looking at its
candidates with the path that it was entered with. -/
inductive Nested (s : Staging) (start : List Axiom) : PlacementMoment → Prop where
  | waiting {p path calls} (used : ∀ b ∈ p.consumed, b ∈ s.axioms)
    (waiting : s.Waiting start path p.consumed calls) : Nested s start ⟨p, path, calls⟩
  | looking {p path pending entryConsumed below} (used : ∀ b ∈ p.consumed, b ∈ s.axioms)
    (staged : ∀ b ∈ pending, b ∈ s.axioms) (since : ∀ b ∈ entryConsumed, b ∈ p.consumed)
    (callers : s.Waiting start path entryConsumed below) :
    Nested s start ⟨p, path, ⟨pending, none, path, entryConsumed⟩ :: below⟩

variable {s : Staging} {p : Placement} {m m' : PlacementMoment} {c : PlacementCall} {a : Axiom}
  {depth : Nat} {path start pending : List Axiom} {siblings : List ExplanationTree}
  {below calls : List PlacementCall} {consumed after : SortedSet Axiom}

/-! ### The recursion turn by turn -/

/-- Entered with fewer unplaced axioms than a depth, a call returns with what the recursion to this
depth gives. -/
def RunsExplain (s : Staging) (depth : Nat) : Prop :=
  ∀ (e : Entity) (p : Placement) (path : List Axiom) (below : List PlacementCall),
    s.unplaced p.consumed < depth →
      s.Runs (s.enter e ⟨p, path, below⟩) ⟨s.explain depth path e p, path, below⟩

theorem runs_ahead (h : s.IsSound) (hdepth : s.RunsExplain depth) (c : PlacementCall)
    (ahead : List Entity) (hp : s.unplaced p.consumed < depth) :
    s.Runs ⟨p, path, { c with opened := some ⟨a, ahead, siblings⟩ } :: below⟩
      ⟨ahead.foldl (fun q e => s.explain depth path e q) p, path,
        { c with opened := some ⟨a, [], siblings⟩ } :: below⟩ := by
  induction ahead generalizing p with
  | nil => exact .refl
  | cons e ahead ih =>
    have hcall := hdepth e p path ({ c with opened := some ⟨a, ahead, siblings⟩ } :: below) hp
    have hle := unplaced_le (explain_grows h depth path e p)
    have hahead := ih (Nat.lt_of_le_of_lt hle hp)
    exact .head rfl (hcall.trans hahead)

theorem runs_place (h : s.IsSound) (hdepth : s.RunsExplain depth) (c : PlacementCall)
    (rest : List Axiom) (ha : a ∈ s.axioms) (hp : s.unplaced p.consumed < depth + 1) :
    s.Runs ⟨p, path, { c with pending := a :: rest, opened := none } :: below⟩
      ⟨s.place depth path p a, path, { c with pending := rest, opened := none } :: below⟩ := by
  unfold place
  split
  · next hover => exact .single (if_pos hover)
  · next hnew =>
    have hlt := unplaced_insert_lt ha (not_mem_consumed_of_not_passedOver hnew)
    have hbelow : s.unplaced (p.consumed.insert a) < depth := by omega
    exact .head (if_neg hnew)
      (.tail (runs_ahead h hdepth { c with pending := rest } (s.leadsTo a) hbelow) rfl)

theorem runs_places (h : s.IsSound) (hdepth : s.RunsExplain depth) (c : PlacementCall)
    (hstaged : ∀ a ∈ pending, a ∈ s.axioms) (hp : s.unplaced p.consumed < depth + 1) :
    s.Runs ⟨p, path, { c with pending := pending, opened := none } :: below⟩
      ⟨pending.foldl (s.place depth path) p, path,
        { c with pending := [], opened := none } :: below⟩ := by
  induction pending generalizing p with
  | nil => exact .refl
  | cons a pending ih =>
    obtain ⟨ha, hrest⟩ := List.forall_mem_cons.1 hstaged
    have hgrows : p.Grows s (s.place depth path p a) := place_grows (explain_grows h depth) ha
    have hle := unplaced_le hgrows
    exact (runs_place h hdepth c pending ha hp).trans (ih hrest (Nat.lt_of_le_of_lt hle hp))

/-- Calls run as the recursion does. The induction is on the depth, of which one is used up with
every axiom that is placed. -/
theorem runs_explain (h : s.IsSound) (depth : Nat) : s.RunsExplain depth := by
  induction depth with
  | zero => exact fun _ _ _ _ hp => absurd hp (Nat.not_lt_zero _)
  | succ depth ih =>
    intro e p path below hp
    rw [explain_succ]
    have hstaged : ∀ a ∈ (s.candidates e).toList, a ∈ s.axioms :=
      fun a ha => h.mem_of_mem_candidates ha
    exact (runs_places h ih ⟨[], none, path, p.consumed⟩ hstaged hp).tail rfl

theorem runs_placement (h : s.IsSound) (entailment : Axiom) (e : Entity) :
    s.Runs (s.enter e ⟨⟨∅, []⟩, [entailment], []⟩)
      ⟨s.placement ∅ entailment (some e), [entailment], []⟩ := by
  apply runs_explain h
  exact Nat.lt_succ_of_le (s.unplaced_le_size ∅)

/-- A run that has come to an end was the only one, and none goes on for ever. -/
theorem Runs.acc (h : s.Runs m m') (hend : s.turn? m' = none) :
    Acc (fun next m => s.turn? m = some next) m := by
  induction h using ReflTransGen.head_induction_on with
  | refl =>
    constructor
    intro next hnext
    rw [hend] at hnext
    cases hnext
  | head hturn _ ih =>
    constructor
    intro next hnext
    rw [hturn] at hnext
    exact Option.some.inj hnext ▸ ih

/-! ### Calls within calls -/

namespace Waiting

theorem mono (h : s.Waiting start path consumed calls) (hs : ∀ a ∈ consumed, a ∈ after) :
    s.Waiting start path after calls := by
  cases h with
  | nil => exact .nil
  | cons staged since placed new callers =>
    exact .cons staged (fun b hb => hs b (since b hb)) (hs _ placed) new callers

/-- Every waiting call has used up an axiom of its own, so there are no more of them than axioms
that have been used up. -/
theorem length_add_unplaced_le (h : s.Waiting start path consumed calls) :
    calls.length + s.unplaced consumed ≤ s.axioms.size := by
  induction h with
  | nil =>
    rw [List.length_nil, Nat.zero_add]
    exact s.unplaced_le_size _
  | cons staged since placed new _ ih =>
    have hlt := unplaced_lt_of_subset since (staged _ List.mem_cons_self) placed new
    rw [List.length_cons]
    omega

/-- Fewer axioms are left than when any of the waiting calls was entered, and the fewer the further
in the call. -/
theorem decreasing (h : s.Waiting start path consumed calls) :
    (∀ c ∈ calls, s.unplaced consumed < s.unplaced c.entryConsumed) ∧
      calls.Pairwise fun inner outer =>
        s.unplaced inner.entryConsumed < s.unplaced outer.entryConsumed := by
  induction h with
  | nil => exact ⟨by simp, .nil⟩
  | cons staged since placed new _ ih =>
    obtain ⟨hcallers, hpairs⟩ := ih
    have hlt := unplaced_lt_of_subset since (staged _ List.mem_cons_self) placed new
    refine ⟨fun c hc => ?_, List.pairwise_cons.2 ⟨hcallers, hpairs⟩⟩
    rcases List.mem_cons.1 hc with rfl | hc
    · exact hlt
    · exact Nat.lt_trans hlt (hcallers c hc)

end Waiting

namespace Nested

theorem entered (h : s.IsSound) (path : List Axiom) (e : Entity) :
    s.Nested path (s.enter e ⟨⟨∅, []⟩, path, []⟩) :=
  .looking (fun b hb => absurd hb (SortedSet.not_mem_empty b))
    (fun _ hb => h.mem_of_mem_candidates hb) (fun _ hb => hb) .nil

theorem turn (h : s.IsSound) (hm : s.Nested start m) (hturn : s.turn? m = some m') :
    s.Nested start m' := by
  cases hm with
  | waiting used hwaiting =>
    cases hwaiting with
    | nil => cases hturn
    | @cons a ahead _ _ _ _ _ _ staged since placed new callers =>
      cases ahead with
      | nil =>
        obtain rfl := Option.some.inj hturn
        exact .looking used (List.forall_mem_cons.1 staged).2 since callers
      | cons e ahead =>
        obtain rfl := Option.some.inj hturn
        exact .looking used (fun _ hb => h.mem_of_mem_candidates hb) (fun _ hb => hb)
          (.cons staged since placed new callers)
  | @looking p path pending entryConsumed below used staged since callers =>
    cases pending with
    | nil =>
      obtain rfl := Option.some.inj hturn
      exact .waiting used (callers.mono since)
    | cons a rest =>
      obtain ⟨ha, hrest⟩ := List.forall_mem_cons.1 staged
      simp only [turn?] at hturn
      split at hturn
      · obtain rfl := Option.some.inj hturn
        exact .looking used hrest since callers
      · next hnew =>
        obtain rfl := Option.some.inj hturn
        have hfresh := not_mem_consumed_of_not_passedOver hnew
        have hinsert : ∀ b, b = a ∨ b ∈ p.consumed → b ∈ p.consumed.insert a :=
          fun _ => SortedSet.mem_insert.2
        refine .waiting (fun b hb => ?_) (.cons staged (fun b hb => hinsert b (.inr (since b hb)))
          (hinsert a (.inl rfl)) (fun he => hfresh (since a he)) callers)
        rcases SortedSet.mem_insert.1 hb with rfl | hb
        · exact ha
        · exact used b hb

theorem run (h : s.IsSound) (hm : s.Nested start m) (hrun : s.Runs m m') : s.Nested start m' := by
  induction hrun with
  | refl => exact hm
  | tail _ hturn ih => exact ih.turn h hturn

theorem used (h : s.Nested start m) (ha : a ∈ m.placement.consumed) : a ∈ s.axioms := by
  cases h with
  | waiting used _ => exact used a ha
  | looking used _ _ _ => exact used a ha

theorem decreasing (h : s.Nested start m) :
    m.calls.Pairwise fun inner outer =>
      s.unplaced inner.entryConsumed < s.unplaced outer.entryConsumed := by
  cases h with
  | waiting _ hwaiting => exact hwaiting.decreasing.2
  | looking _ _ _ callers =>
    obtain ⟨hcallers, hpairs⟩ := callers.decreasing
    exact List.pairwise_cons.2 ⟨hcallers, hpairs⟩

/-- The innermost call alone may have used up nothing. -/
theorem length_calls_le (h : s.Nested start m) : m.calls.length ≤ s.axioms.size + 1 := by
  cases h with
  | waiting _ hwaiting =>
    have hle := hwaiting.length_add_unplaced_le
    exact Nat.le_succ_of_le (Nat.le_of_add_right_le hle)
  | looking _ _ _ callers =>
    have hle := callers.length_add_unplaced_le
    exact Nat.succ_le_succ (Nat.le_of_add_right_le hle)

theorem path_eq (h : s.Nested start m) (hcalls : m.calls = c :: below) (hc : c.opened = none) :
    m.path = c.entryPath := by
  cases h with
  | waiting _ hwaiting =>
    simp only at hcalls
    subst hcalls
    cases hwaiting
    cases hc
  | looking _ _ _ _ =>
    obtain ⟨rfl, -⟩ := List.cons.inj hcalls
    rfl

end Nested

/-! ### What a turn changes -/

/-- A turn gives no used up axiom back. It takes the innermost call away only if the call has no
node open, and then it leaves the path as it is. -/
theorem turn?_spec (h : s.turn? m = some m') :
    (∀ a ∈ m.placement.consumed, a ∈ m'.placement.consumed) ∧
      ∀ c, m.calls = c :: m'.calls → c.opened = none ∧ m'.path = m.path := by
  obtain ⟨p, path, _ | ⟨⟨pending, opened, entryPath, entryConsumed⟩, below⟩⟩ := m
  · cases h
  rcases opened with _ | ⟨b, _ | ⟨e, ahead⟩, siblings⟩
  · cases pending with
    | nil =>
      obtain rfl := Option.some.inj h
      refine ⟨fun a ha => ha, fun c hc => ?_⟩
      obtain ⟨rfl, -⟩ := List.cons.inj hc
      exact ⟨rfl, rfl⟩
    | cons b rest =>
      simp only [turn?] at h
      split at h
      · obtain rfl := Option.some.inj h
        exact ⟨fun a ha => ha, fun c hc => by simp at hc⟩
      · obtain rfl := Option.some.inj h
        exact ⟨fun a ha => SortedSet.mem_insert.2 (.inr ha), fun c hc => by simp at hc⟩
  · obtain rfl := Option.some.inj h
    exact ⟨fun a ha => ha, fun c hc => by simp at hc⟩
  · obtain rfl := Option.some.inj h
    refine ⟨fun a ha => ha, fun c hc => ?_⟩
    have hlength := congrArg List.length hc
    simp only [enter, List.length_cons] at hlength
    omega

theorem Nested.path_restored (hm : s.Nested start m) (h : s.turn? m = some m')
    (hcalls : m.calls = c :: m'.calls) : m'.path = c.entryPath := by
  obtain ⟨hopened, hpath⟩ := (turn?_spec h).2 c hcalls
  rw [hpath]
  exact hm.path_eq hcalls hopened

/-- However the axioms of a staged justification lead to each other, the recursion that places them
ends. Between entering a call and entering another within it, axioms have been used up; a used up
axiom is never given back, and only axioms of the justification are used up; a call that returns
leaves the path that it was entered with. So calls are nested no deeper than one more than there are
distinct axioms, and the tree that is built is no deeper than there are distinct axioms. -/
theorem calls_nested_and_end (o : ExplanationOrderer) (l l' : Library) (number : Nat)
    (r : OntologyRef) (entailment : Axiom) (justification : List Axiom)
    (h : l.create? (o.stagingId number) = .ok (r, l')) :
    let s := inOntology o.config l' r justification
    let count := justification.dedup.length
    let t := (ExplanationOrderer.build s ∅ entailment).1
    (∀ e,
      let start := s.enter e ⟨⟨∅, []⟩, [entailment], []⟩
      let final : PlacementMoment := ⟨s.placement ∅ entailment (some e), [entailment], []⟩
      (Acc (fun m' m => s.turn? m = some m') start ∧ s.Runs start final ∧ s.turn? final = none) ∧
      ∀ m, s.Runs start m →
        (∀ a ∈ m.placement.consumed, a ∈ justification) ∧
        (m.calls.Pairwise fun inner outer =>
          s.unplaced inner.entryConsumed < s.unplaced outer.entryConsumed) ∧
        m.calls.length ≤ count + 1 ∧
        ∀ m', s.turn? m = some m' →
          (∀ a ∈ m.placement.consumed, a ∈ m'.placement.consumed) ∧
          ∀ c, m.calls = c :: m'.calls → m'.path = c.entryPath) ∧
    (o.order l number entailment justification).1 = .ok t ∧ t.depth ≤ count := by
  intro s count t
  have hsound : s.IsSound := isSound_inOntology h o.config justification
  have hsize : s.axioms.size = count := SortedSet.size_ofList justification
  refine ⟨fun e => ?_, ExplanationOrderer.order_eq_build h entailment justification, ?_⟩
  · intro start final
    have hrun : s.Runs start final := runs_placement hsound entailment e
    refine ⟨⟨hrun.acc rfl, hrun, rfl⟩, fun m hm => ?_⟩
    have hnested := (Nested.entered hsound [entailment] e).run hsound hm
    refine ⟨fun a ha => SortedSet.mem_ofList.1 (hnested.used ha), hnested.decreasing,
      hsize ▸ hnested.length_calls_le, fun m' hturn => ?_⟩
    exact ⟨(turn?_spec hturn).1, fun c hc => hnested.path_restored hturn hc⟩
  · exact hsize ▸ ExplanationOrderer.build_depth_le hsound rfl

/-- Two classes below each other, each axiom leading back to the other and one given twice. -/
theorem calls_nested_and_end_cyclic :
    let o := ExplanationOrderer.new default
    let sub (c d : String) := Axiom.subClassOf (.named ⟨⟨c⟩⟩) (.named ⟨⟨d⟩⟩)
    let justification := [sub "A" "B", sub "B" "A", sub "A" "B"]
    let library := ((Library.empty 1).register (o.stagingId 0) (by decide)).2
    let s := inOntology o.config library ⟨0, o.stagingId 0⟩ justification
    let start := s.enter (.namedClass ⟨⟨"A"⟩⟩) ⟨⟨∅, []⟩, [sub "A" "C"], []⟩
    (Library.empty 1).create? (o.stagingId 0) = .ok (⟨0, o.stagingId 0⟩, library) ∧
      Acc (fun m' m => s.turn? m = some m') start ∧
      (∀ m, s.Runs start m → m.calls.length ≤ 3) ∧
      (ExplanationOrderer.build s ∅ (sub "A" "C")).1.depth ≤ 2 := by
  intro o sub justification library s start
  have h : (Library.empty 1).create? (o.stagingId 0) = .ok (⟨0, o.stagingId 0⟩, library) := rfl
  have hcount : justification.dedup.length = 2 := by decide
  obtain ⟨hcalls, -, hdepth⟩ := calls_nested_and_end _ _ _ _ _ (sub "A" "C") justification h
  rw [hcount] at hcalls hdepth
  obtain ⟨⟨hacc, -⟩, hrun⟩ := hcalls (.namedClass ⟨⟨"A"⟩⟩)
  exact ⟨h, hacc, fun m hm => (hrun m hm).2.2.1, hdepth⟩

end Staging

end OwlStructure
