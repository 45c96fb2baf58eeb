import OwlStructure.Proofs.Explanation.Building

/-!
A built tree depends on the options, the entailment and the set of axioms in the justification. How
the axioms were staged and in which order does not matter: any two ways of staging the same axioms
give every step of the recursion the same answers.
-/
namespace OwlStructure

namespace Staging

/-- Two staged justifications answer all that a placement asks in the same way. -/
structure Agree (s s' : Staging) : Prop where
  config : s.config = s'.config
  axioms : s.axioms = s'.axioms
  candidates : ∀ e, s.candidates e = s'.candidates e
  leadsTo : ∀ a, s.leadsTo a = s'.leadsTo a
  about : ∀ e, s.index.about e = s'.index.about e

variable {s s' : Staging}

theorem IsSound.agree (h : s.IsSound) (h' : s'.IsSound) (hconfig : s.config = s'.config)
    (haxioms : s.axioms = s'.axioms) : s.Agree s' where
  config := hconfig
  axioms := haxioms
  candidates e := by
    have habout (a : Axiom) : a ∈ s.index.about e ↔ a ∈ s'.index.about e := by
      rw [h.mem_about, h'.mem_about, haxioms]
    have hfiled (a : Axiom) : a ∈ s.map.filedUnder e ↔ a ∈ s'.map.filedUnder e := by
      rw [h.mem_filedUnder, h'.mem_filedUnder, haxioms]
    refine SortedSet.ext fun a => ?_
    unfold candidates
    split
    · simp only [SortedSet.mem_insertAll, SortedSet.mem_ofList, habout, hfiled]
    · simp only [SortedSet.mem_ofList, hfiled]
  leadsTo a := by
    unfold leadsTo
    rw [h.map.right, h'.map.right, haxioms]
  about e := by rw [h.index.about_eq, h'.index.about_eq, haxioms]

namespace Agree

theorem place (h : s.Agree s') {depth : Nat}
    (ih : ∀ path e p, s.explain depth path e p = s'.explain depth path e p) (path : List Axiom) :
    s.place depth path = s'.place depth path := by
  funext p a
  have hexplain : (fun q e => s.explain depth (a :: path) e q) =
      fun q e => s'.explain depth (a :: path) e q := by
    funext q e
    exact ih (a :: path) e q
  unfold Staging.place isPassedOver
  rw [h.config, h.leadsTo, hexplain]

theorem explain (h : s.Agree s') (depth : Nat) (path : List Axiom) (e : Entity) (p : Placement) :
    s.explain depth path e p = s'.explain depth path e p := by
  induction depth generalizing path e p with
  | zero => rfl
  | succ depth ih => rw [explain_succ, explain_succ, h.candidates, h.place ih]

theorem placement (h : s.Agree s') (consumed : SortedSet Axiom) (entailment : Axiom)
    (source : Option Entity) :
    s.placement consumed entailment source = s'.placement consumed entailment source := by
  cases source with
  | none => rfl
  | some e => simp only [Staging.placement, h.axioms, h.explain]

theorem leftovers (h : s.Agree s') (consumed : SortedSet Axiom) (target : Option Entity) :
    s.leftovers consumed target = s'.leftovers consumed target := by
  cases target with
  | none => simp only [Staging.leftovers, h.axioms]
  | some e => simp only [Staging.leftovers, h.axioms, h.about]

end Agree

end Staging

namespace ExplanationOrderer

theorem build_agree {s s' : Staging} (h : s.Agree s') (consumed : SortedSet Axiom)
    (entailment : Axiom) : build s consumed entailment = build s' consumed entailment := by
  simp only [build, h.placement, h.leftovers]

/-- Two builders with the same options, whatever they and their libraries have done before, build
the same tree from the same axioms in any order and with any repetitions, and count the same number
of axioms placed and left over. -/
theorem order_eq_of_same_axioms (o₁ o₂ o₁' o₂' : ExplanationOrderer) (l₁ l₂ l₁' l₂' : Library)
    (number₁ number₂ : Nat) (entailment : Axiom) (justification₁ justification₂ : List Axiom)
    (t₁ t₂ : ExplanationTree) (hconfig : o₁.config = o₂.config)
    (hsame : ∀ a, a ∈ justification₁ ↔ a ∈ justification₂)
    (h₁ : o₁.order l₁ number₁ entailment justification₁ = (.ok t₁, o₁', l₁'))
    (h₂ : o₂.order l₂ number₂ entailment justification₂ = (.ok t₂, o₂', l₂')) :
    t₁ = t₂ ∧
      ∃ r₁ r₂, o₁'.lastReport = some r₁ ∧ o₂'.lastReport = some r₂ ∧
        r₁.placed = r₂.placed ∧ r₁.leftovers = r₂.leftovers := by
  obtain ⟨s₁, consumed₁, leftovers₁, hs₁, hc₁, ha₁, hb₁, rfl⟩ := order_eq_ok h₁
  obtain ⟨s₂, consumed₂, leftovers₂, hs₂, hc₂, ha₂, hb₂, rfl⟩ := order_eq_ok h₂
  have hset : SortedSet.ofList justification₁ = SortedSet.ofList justification₂ :=
    SortedSet.ext fun a => by simp only [SortedSet.mem_ofList, hsame]
  have hagree : s₁.Agree s₂ :=
    hs₁.agree hs₂ (by rw [hc₁, hc₂, hconfig]) (by rw [ha₁, ha₂, hset])
  rw [build_agree hagree, hb₂] at hb₁
  cases hb₁
  exact ⟨rfl, _, _, rfl, rfl, rfl, rfl⟩

/-- A new builder, and one that has explained something else, which is given the axioms the other
way round and one of them twice. -/
theorem order_eq_of_same_axioms_reversed :
    let sub (c d : String) := Axiom.subClassOf (.named ⟨⟨c⟩⟩) (.named ⟨⟨d⟩⟩)
    let earlier := (new default).order (.empty 1) 0 (sub "B" "C") [sub "B" "D", sub "D" "C"]
    let o₁ := new default
    let o₂ := earlier.2.1
    let justification₁ := [sub "A" "B", sub "B" "C"]
    let justification₂ := [sub "B" "C", sub "A" "B", sub "B" "C"]
    o₁.config = o₂.config ∧ (∀ a, a ∈ justification₁ ↔ a ∈ justification₂) ∧
      ∃ t₁ t₂ o₁' o₂' l₁' l₂',
        o₁.order (.empty 1) 0 (sub "A" "C") justification₁ = (.ok t₁, o₁', l₁') ∧
          o₂.order earlier.2.2 1 (sub "A" "C") justification₂ = (.ok t₂, o₂', l₂') ∧
          t₁ = t₂ := by
  intro sub earlier o₁ o₂ justification₁ justification₂
  have hconfig : o₁.config = o₂.config := rfl
  have hsame (a : Axiom) : a ∈ justification₁ ↔ a ∈ justification₂ := by
    simp only [justification₁, justification₂, List.mem_cons]
    tauto
  obtain ⟨t₁, ht₁⟩ := (order_isOk_iff o₁ (.empty 1) 0 (sub "A" "C") justification₁).2 rfl
  obtain ⟨t₂, ht₂⟩ := (order_isOk_iff o₂ earlier.2.2 1 (sub "A" "C") justification₂).2 rfl
  have h₁ : o₁.order (.empty 1) 0 (sub "A" "C") justification₁ = (.ok t₁, _, _) :=
    Prod.ext ht₁ rfl
  have h₂ : o₂.order earlier.2.2 1 (sub "A" "C") justification₂ = (.ok t₂, _, _) :=
    Prod.ext ht₂ rfl
  exact ⟨hconfig, hsame, t₁, t₂, _, _, _, _, h₁, h₂,
    (order_eq_of_same_axioms _ _ _ _ _ _ _ _ _ _ _ _ _ _ _ hconfig hsame h₁ h₂).1⟩

end ExplanationOrderer

end OwlStructure
