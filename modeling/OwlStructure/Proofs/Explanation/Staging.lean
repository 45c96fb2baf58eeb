import OwlStructure.Proofs.Explanation.Building
import OwlStructure.Proofs.Store.Revision
import OwlStructure.Proofs.Text.Numbers
import OwlStructure.Workspace

/-!
Staging a justification. Whatever an attempt to explain an entailment does to the library on the
way, the library that it leaves registers the same ontologies, and every ontology that was there is
as it was. An attempt fails just when the IRI that it would stage under is registered, and no two
attempts in a row stage under the same IRI.
-/
namespace OwlStructure

/-! ### Staging IRIs -/

namespace ExplanationOrderer

theorem toList_stagingId (o : ExplanationOrderer) (number : Nat) :
    (o.stagingId number).text.toList =
      o.config.stagingNamespace.toList ++ Nat.toDigits 10 number := by
  rw [stagingId, String.toList_append, Nat.toList_repr]

/-- A staging IRI ends with a digit, so it is not blank, whatever the namespace is. -/
theorem ofText?_stagingId (o : ExplanationOrderer) (number : Nat) :
    Iri.ofText? (o.stagingId number).text = .ok (o.stagingId number) := by
  refine if_neg fun hblank => ?_
  obtain ⟨c, hc⟩ := List.exists_mem_of_ne_nil _ (Nat.toDigits_ne_nil (n := number) (b := 10))
  have hdigit : c.isDigit = true := Nat.isDigit_of_mem_toDigits (by decide) (by decide) hc
  have hspace : isBlankChar c = true := by
    rw [isBlank, toList_stagingId, List.all_eq_true] at hblank
    exact hblank c (List.mem_append_right _ hc)
  simp only [Char.isDigit, Bool.and_eq_true, decide_eq_true_eq] at hdigit
  have hrange : 48 ≤ c.toNat ∧ c.toNat ≤ 57 := hdigit
  simp only [isBlankChar, whiteSpace, List.contains_eq_mem, List.mem_cons, List.not_mem_nil,
    or_false, decide_eq_true_eq] at hspace
  omega

theorem stagingId_inj {o : ExplanationOrderer} {m n : Nat} :
    o.stagingId m = o.stagingId n ↔ m = n := by
  rw [stagingId, stagingId, Iri.mk.injEq, append_repr_inj]

/-- Staging IRIs with equal texts have numbers with the same last digit, also in two namespaces. -/
theorem mod_eq_of_stagingId_eq {o o' : ExplanationOrderer} {m n : Nat}
    (h : o.stagingId m = o'.stagingId n) : m % 10 = n % 10 := by
  have hlast : (o.stagingId m).text.toList.getLast? = (o'.stagingId n).text.toList.getLast? := by
    rw [h]
  rw [toList_stagingId, toList_stagingId, List.getLast?_append, List.getLast?_append,
    getLast?_toDigits, getLast?_toDigits] at hlast
  exact digitChar_injOn (Nat.mod_lt _ (by decide)) (Nat.mod_lt _ (by decide))
    (Option.some.inj hlast)

end ExplanationOrderer

/-! ### The library after an attempt -/

namespace Library

variable {l l' : Library} {r : OntologyRef}

/-- A library registers the ontologies that another does, in their order, and still has every
ontology of the other, as it was and in its place. -/
structure Restores (l l' : Library) : Prop where
  registered_eq : l'.registered = l.registered
  take_ontologies : l'.ontologies.take l.ontologies.length = l.ontologies

theorem Restores.refl (l : Library) : l.Restores l := ⟨rfl, List.take_length⟩

theorem Restores.get_eq (h : l.Restores l') (hr : r.IsGood l.ontologies) :
    l'.get r = l.get r := by
  obtain ⟨o, ho, -⟩ := Option.map_eq_some_iff.1 hr
  have hlt : r.position < l.ontologies.length := (List.getElem?_eq_some_iff.1 ho).1
  unfold get
  rw [← List.getElem?_take_of_lt hlt, h.take_ontologies]

theorem take_ontologies_add (l : Library) (r : OntologyRef) (a : Axiom) :
    (l.add r a).2.ontologies.take r.position = l.ontologies.take r.position := by
  obtain ⟨cache, own, hs⟩ := ontologies_add l r a
  rw [hs, List.take_set_of_le (Nat.le_refl _)]

theorem take_ontologies_addAll (l : Library) (r : OntologyRef) (as : List Axiom) :
    (l.addAll r as).2.ontologies.take r.position = l.ontologies.take r.position := by
  induction as generalizing l with
  | nil => rfl
  | cons a as ih => exact (ih (l.add r a).2).trans (l.take_ontologies_add r a)

/-- Registering an ontology, filling it and ending its registration restores the library. -/
theorem Restores.of_unregister? {id : Iri} (h : ¬ l.isRegistered id = true) {as : List Axiom}
    (hl' : ((l.register id h).2.addAll (l.register id h).1 as).2.unregister? id = .ok (r, l')) :
    l.Restores l' := by
  unfold unregister? at hl'
  split at hl'
  · cases hl'
    refine ⟨?_, ?_⟩
    · have hothers : ∀ s ∈ l.registered, s.id ≠ id := fun s hs e =>
        not_mem_of_isRegistered h (List.mem_map.2 ⟨s, hs, e⟩)
      simpa [registered_addAll, register] using hothers
    · -- the staged axioms go to the place behind all others
      have htake := take_ontologies_addAll (l.register id h).2 (l.register id h).1 as
      exact htake.trans List.take_left
  · cases hl'

end Library

namespace ExplanationOrderer

theorem restores_order (o : ExplanationOrderer) (l : Library) (number : Nat) (entailment : Axiom)
    (justification : List Axiom) :
    l.Restores (o.order l number entailment justification).2.2 := by
  by_cases hf : l.isRegistered (o.stagingId number) = true
  · simp only [order, Library.create?_of_taken hf]
    exact .refl l
  · obtain ⟨t, ht⟩ := (order_isOk_iff o l number entailment justification).2
      (Bool.not_eq_true _ ▸ hf)
    simp only [order, Library.create?_of_free hf] at ht ⊢
    split at ht
    · cases ht
    · next hu => exact .of_unregister? hf hu

theorem order_of_taken {o : ExplanationOrderer} {l : Library} {number : Nat}
    (h : l.isRegistered (o.stagingId number) = true) (entailment : Axiom)
    (justification : List Axiom) :
    o.order l number entailment justification =
      (.error (.failed (.duplicateOntology (o.stagingId number).text)), o.reset, l) := by
  simp only [order, Library.create?_of_taken h]

end ExplanationOrderer

/-- After an attempt to explain an entailment, with success or with failure, the library registers
the same ontologies in the same order, and every ontology that it had, registered or imported, has
the axioms, imports and revision that it had. The attempt fails just when the IRI that it would
stage under is registered: the failure names that IRI, and the builder keeps its report. Otherwise
the new report names the IRI. Whichever builder is asked next, it stages under another IRI, also
when the counter wraps around, and the same builder comes back to this one only if the counter
does. -/
theorem Workspace.order_restores (w : Workspace) (name : String) (o : ExplanationOrderer)
    (entailment : Axiom) (justification : List Axiom) :
    let id := o.stagingId w.nextStaging.toNat
    let result := (w.order name o entailment justification).1
    let after := (w.order name o entailment justification).2
    Iri.ofText? id.text = .ok id ∧
      after.library.registered = w.library.registered ∧
      (∀ r, r.IsGood w.library.ontologies → after.library.get r = w.library.get r) ∧
      (∃ next, after.orderers.lookup name = some next ∧
        ((w.library.isRegistered id = true ∧
            result = .error (.failed (.duplicateOntology id.text)) ∧
            next.lastReport = o.lastReport) ∨
          w.library.isRegistered id = false ∧
            ∃ t report, result = .ok t ∧ next.lastReport = some report ∧
              report.stagingId = id)) ∧
      (after.nextStaging = w.nextStaging + 1 ∧
        ∀ other : ExplanationOrderer, other.stagingId after.nextStaging.toNat ≠ id) ∧
      ∀ number, number ≠ w.nextStaging.toNat → o.stagingId number ≠ id := by
  intro id result after
  have hrestores := o.restores_order w.library w.nextStaging.toNat entailment justification
  refine ⟨o.ofText?_stagingId _, hrestores.registered_eq, fun r => hrestores.get_eq,
    ⟨_, List.lookup_cons_self, ?_⟩, ?_, ?_⟩
  · by_cases htaken : w.library.isRegistered id = true
    · have horder := ExplanationOrderer.order_of_taken htaken entailment justification
      refine .inl ⟨htaken, ?_, ?_⟩
      · exact congrArg Prod.fst horder
      · exact congrArg (fun p => p.2.1.lastReport) horder
    · have hfree : w.library.isRegistered id = false := Bool.not_eq_true _ ▸ htaken
      obtain ⟨t, ht⟩ := (o.order_isOk_iff w.library _ entailment justification).2 hfree
      obtain ⟨_, _, _, -, -, -, -, hnext⟩ := ExplanationOrderer.order_eq_ok (Prod.ext ht rfl)
      exact .inr ⟨hfree, t, _, ht, congrArg ExplanationOrderer.lastReport hnext, rfl⟩
  · refine ⟨rfl, fun other hsame => ?_⟩
    have hdigit : (w.nextStaging + 1).toNat % 10 = w.nextStaging.toNat % 10 :=
      ExplanationOrderer.mod_eq_of_stagingId_eq hsame
    have hlt := w.nextStaging.toNat_lt
    rw [UInt64.toNat_add] at hdigit
    simp only [UInt64.toNat_one] at hdigit
    omega
  · intro number hother hsame
    exact hother (ExplanationOrderer.stagingId_inj.1 hsame)

/-- The first IRI is that of an ontology with an axiom. The attempt fails, and the next succeeds. -/
theorem Workspace.order_restores_taken :
    let o := ExplanationOrderer.new ⟨[], "n"⟩
    let a : Axiom := .subClassOf (.named ⟨⟨"A"⟩⟩) (.named ⟨⟨"B"⟩⟩)
    let r : OntologyRef := ⟨0, ⟨"n0"⟩⟩
    let library := (((Library.empty 1).register r.id (by decide)).2.add r a).2
    let w : Workspace := { Workspace.empty 1 with library }
    let first := w.order "b" o a [a]
    let second := first.2.order "b" o a [a]
    r.IsGood library.ontologies ∧
      first.1 = .error (.failed (.duplicateOntology "n0")) ∧ (∃ t, second.1 = .ok t) ∧
      second.2.library.registered = [r] ∧ second.2.library.get r = library.get r := by
  intro o a r library w first second
  have hgood : r.IsGood library.ontologies := library.registered_good r (by decide)
  obtain ⟨-, hregistered, hget, ⟨_, -, hfirst⟩, -⟩ := Workspace.order_restores w "b" o a [a]
  obtain ⟨-, hregistered', hget', ⟨_, -, hsecond⟩, -⟩ :=
    Workspace.order_restores first.2 "b" o a [a]
  have hgood' : r.IsGood first.2.library.ontologies :=
    first.2.library.registered_good r (hregistered ▸ (by decide : r ∈ library.registered))
  have htaken : library.isRegistered (o.stagingId 0) = true := by decide
  have hfree : first.2.library.isRegistered (o.stagingId 1) = false := by
    unfold Library.isRegistered Library.find?
    rw [hregistered]
    decide
  refine ⟨hgood, ?_, ?_, hregistered'.trans (hregistered.trans rfl),
    (hget' r hgood').trans (hget r hgood)⟩
  · rcases hfirst with ⟨-, hfailed, -⟩ | ⟨hnot, -⟩
    · have hid : (o.stagingId w.nextStaging.toNat).text = "n0" := by decide
      rwa [hid] at hfailed
    · exact absurd (hnot.symm.trans htaken) (by decide)
  · rcases hsecond with ⟨hnot, -⟩ | ⟨-, t, _, ht, -⟩
    · exact absurd (hnot.symm.trans hfree) (by decide)
    · exact ⟨t, ht⟩

end OwlStructure
