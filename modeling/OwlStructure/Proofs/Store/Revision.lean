import OwlStructure.Proofs.Store.Edits

/-!
The revision of an ontology. Every operation reports how many single changes it made; the revision
goes up by that number, and an operation that reports none leaves the ontology as it was. So the
revision counts the changes of a run, and two states of a run with one revision are the same.
-/
namespace OwlStructure

namespace Edit

/-- The number of single changes that an operation reports. -/
def changes (l : Library) (r : OntologyRef) : Edit → Nat
  | .add a => (l.add r a).1.toNat
  | .addAll as => (l.addAll r as).1
  | .remove a => (l.remove r a).1.toNat
  | .addImport target => (l.addImport r target).1.toNat
  | .removeImport id => (l.removeImport r id).1.toNat

/-- The number of single changes that the operations of a run report together. -/
def changesIn (l : Library) (r : OntologyRef) : List Edit → Nat
  | [] => 0
  | e :: edits => e.changes l r + changesIn (e.apply l r) r edits

/-- An operation has nothing to do: what it adds is there, or what it removes is not. -/
def IsDone (o : Ontology) : Edit → Prop
  | .add a => a ∈ o.axioms
  | .addAll as => ∀ a ∈ as, a ∈ o.axioms
  | .remove a => a ∉ o.axioms
  | .addImport target => ∃ s ∈ o.imports, s.id = target.id
  | .removeImport id => ∀ s ∈ o.imports, s.id ≠ id

theorem run_append (l : Library) (r : OntologyRef) (before after : List Edit) :
    run l r (before ++ after) = run (run l r before) r after := List.foldl_append

end Edit

/-! ### One operation -/

namespace Ontology

/-- An ontology comes out of another by a number of single changes. -/
structure Advances (o o' : Ontology) (n : Nat) : Prop where
  revision_eq : o'.revision = o.revision + n
  unchanged : n = 0 → o' = o

namespace Advances

variable {o o' o'' : Ontology} {m n : Nat}

theorem refl (o : Ontology) : o.Advances o 0 := ⟨rfl, fun _ => rfl⟩

theorem trans (h : o.Advances o' m) (h' : o'.Advances o'' n) : o.Advances o'' (m + n) where
  revision_eq := by rw [h'.revision_eq, h.revision_eq, Nat.add_assoc]
  unchanged hzero := by
    obtain ⟨hm, hn⟩ := Nat.add_eq_zero_iff.1 hzero
    rw [h'.unchanged hn, h.unchanged hm]

theorem of_one (h : o'.revision = o.revision + 1) : o.Advances o' 1 where
  revision_eq := h
  unchanged hone := absurd hone Nat.one_ne_zero

end Advances

/-- An axiom that is there changes nothing, and the cache is not asked. -/
theorem add_of_contains {o : Ontology} {a : Axiom} (h : o.contains a = true)
    (cache : SignatureCache Axiom) (number : Nat) : o.add cache ⟨number, a⟩ = (false, o, cache) :=
  if_pos h

theorem add_of_not_contains {o : Ontology} {a : Axiom} (h : o.contains a = false)
    (cache : SignatureCache Axiom) (number : Nat) :
    (o.add cache ⟨number, a⟩).1 = true ∧
      (o.add cache ⟨number, a⟩).2.1.axioms = o.axioms ++ [a] ∧
      (o.add cache ⟨number, a⟩).2.1.imports = o.imports ∧
      (o.add cache ⟨number, a⟩).2.1.revision = o.revision + 1 := by
  have hindex : o.index.contains a = false := h
  unfold Ontology.add axioms AxiomIndex.insert
  simp only [h, hindex, Bool.false_eq_true, ↓reduceIte, and_self]

theorem fst_remove (o : Ontology) (a : Axiom) : (o.remove a).1 = o.contains a := by
  unfold remove contains AxiomIndex.remove
  by_cases ha : o.index.contains a = true <;> simp [ha]

theorem fst_addImport (o : Ontology) (target : OntologyRef) :
    (o.addImport target).1 = !o.imports.any fun s => s.id == target.id := by
  unfold addImport
  split <;> simp_all

theorem fst_removeImport (o : Ontology) (id : Iri) :
    (o.removeImport id).1 = o.imports.any fun s => s.id == id := by
  unfold removeImport
  split <;> simp_all

end Ontology

namespace Library

variable {l : Library} {r : OntologyRef}

/-- Adding an axiom reports and leaves what the ontology does, with one of the two caches; its own
cache stays as it is when nothing is added. -/
theorem exists_add (h : r.position < l.ontologies.length) (a : Axiom) : ∃ cache own,
    (l.add r a).1 = ((l.get r).add cache ⟨l.nextObject, a⟩).1 ∧
      (l.add r a).2.get r =
        { ((l.get r).add cache ⟨l.nextObject, a⟩).2.1 with ownCache := own } ∧
      ((l.get r).contains a = true → own = (l.get r).ownCache) := by
  cases hc : (l.get r).ownCache with
  | some cache =>
    refine ⟨cache, some ((l.get r).add cache ⟨l.nextObject, a⟩).2.2, ?_, get_eq_of_set h ?_, ?_⟩
    · simp only [add, hc]
    · simp only [add, hc]
      rfl
    · intro ha
      rw [Ontology.add_of_contains ha]
  | none =>
    refine ⟨l.cache, ((l.get r).add l.cache ⟨l.nextObject, a⟩).2.1.ownCache, ?_,
      get_eq_of_set h ?_, ?_⟩
    · simp only [add, hc]
    · simp only [add, hc]
      rfl
    · intro ha
      rw [Ontology.add_of_contains ha, hc]

/-- An ontology comes out of another by adding a number of axioms and doing nothing else. -/
structure Adds (o o' : Ontology) (n : Nat) : Prop extends o.Advances o' n where
  length_axioms : o'.axioms.length = o.axioms.length + n
  imports_eq : o'.imports = o.imports

theorem Adds.trans {o o' o'' : Ontology} {m n : Nat} (h : Adds o o' m) (h' : Adds o' o'' n) :
    Adds o o'' (m + n) where
  toAdvances := h.toAdvances.trans h'.toAdvances
  length_axioms := by rw [h'.length_axioms, h.length_axioms, Nat.add_assoc]
  imports_eq := h'.imports_eq.trans h.imports_eq

theorem adds_add (h : r.position < l.ontologies.length) (a : Axiom) :
    Adds (l.get r) ((l.add r a).2.get r) (l.add r a).1.toNat := by
  obtain ⟨cache, own, hreport, hget, hown⟩ := exists_add h a
  cases ha : (l.get r).contains a with
  | true =>
    rw [Ontology.add_of_contains ha] at hreport hget
    rw [hget, hreport, hown ha]
    exact { Ontology.Advances.refl _ with length_axioms := rfl, imports_eq := rfl }
  | false =>
    obtain ⟨htrue, haxioms, himports, hrevision⟩ :=
      Ontology.add_of_not_contains ha cache l.nextObject
    rw [hget, hreport, htrue]
    exact
      { toAdvances := .of_one hrevision
        length_axioms := (congrArg List.length haxioms).trans List.length_append
        imports_eq := himports }

theorem length_add (l : Library) (r : OntologyRef) (a : Axiom) :
    (l.add r a).2.ontologies.length = l.ontologies.length := by
  obtain ⟨cache, own, hs⟩ := ontologies_add l r a
  rw [hs, List.length_set]

theorem length_addAll (l : Library) (r : OntologyRef) (as : List Axiom) :
    (l.addAll r as).2.ontologies.length = l.ontologies.length := by
  induction as generalizing l with
  | nil => rfl
  | cons a as ih => exact (ih (l.add r a).2).trans (l.length_add r a)

theorem fst_addAll_cons (l : Library) (r : OntologyRef) (a : Axiom) (as : List Axiom) :
    (l.addAll r (a :: as)).1 = (l.add r a).1.toNat + ((l.add r a).2.addAll r as).1 := by
  have hcons : (l.addAll r (a :: as)).1 =
      if (l.add r a).1 then ((l.add r a).2.addAll r as).1 + 1
      else ((l.add r a).2.addAll r as).1 := rfl
  rw [hcons]
  cases (l.add r a).1 with
  | true => exact Nat.add_comm _ 1
  | false => exact (Nat.zero_add _).symm

theorem adds_addAll (h : r.position < l.ontologies.length) (as : List Axiom) :
    Adds (l.get r) ((l.addAll r as).2.get r) (l.addAll r as).1 := by
  induction as generalizing l with
  | nil => exact { Ontology.Advances.refl _ with length_axioms := rfl, imports_eq := rfl }
  | cons a as ih =>
    rw [fst_addAll_cons]
    exact (adds_add h a).trans (ih (by rwa [length_add]))

end Library

/-- One operation leads from an ontology to another and reports a number of changes: it makes a
difference to the axioms or to the imports exactly when it reports any. -/
structure Ontology.Reports (o o' : Ontology) (n : Nat) : Prop extends o.Advances o' n where
  same_iff : n = 0 ↔ o'.axioms = o.axioms ∧ o'.imports = o.imports

namespace Ontology.Reports

variable {o o' : Ontology} {n : Nat}

theorem none (o : Ontology) : o.Reports o 0 where
  toAdvances := .refl o
  same_iff := iff_of_true rfl ⟨rfl, rfl⟩

theorem one (hrevision : o'.revision = o.revision + 1)
    (hne : o'.axioms = o.axioms → o'.imports ≠ o.imports) : o.Reports o' 1 where
  toAdvances := .of_one hrevision
  same_iff := iff_of_false Nat.one_ne_zero fun hsame => hne hsame.1 hsame.2

theorem of_adds (h : Library.Adds o o' n) : o.Reports o' n where
  toAdvances := h.toAdvances
  same_iff := by
    constructor
    · intro hzero
      rw [h.unchanged hzero]
      exact ⟨rfl, rfl⟩
    · rintro ⟨haxioms, -⟩
      have hlength := h.length_axioms
      rw [haxioms] at hlength
      omega

theorem remove (o : Ontology) (a : Axiom) :
    o.Reports (o.remove a).2 (o.remove a).1.toNat := by
  unfold Ontology.remove AxiomIndex.remove
  by_cases ha : o.index.contains a = true
  · simp only [ha, ↓reduceIte]
    refine one rfl fun hsame => ?_
    -- the list has become shorter
    have hmem : a ∈ o.index.axioms := of_decide_eq_true ha
    have hlength : (o.index.axioms.erase a).length = o.index.axioms.length :=
      congrArg List.length hsame
    have hpos := List.length_pos_of_mem hmem
    rw [List.length_erase_of_mem hmem] at hlength
    omega
  · simp only [ha]
    exact none o

theorem addImport (o : Ontology) (target : OntologyRef) :
    o.Reports (o.addImport target).2 (o.addImport target).1.toNat := by
  unfold Ontology.addImport
  split
  · exact none o
  · exact one rfl fun _ => by simp

theorem removeImport (o : Ontology) (id : Iri) :
    o.Reports (o.removeImport id).2 (o.removeImport id).1.toNat := by
  unfold Ontology.removeImport
  split
  · next h =>
    obtain ⟨r, hr, hid⟩ := List.any_eq_true.1 h
    refine one rfl fun _ hsame => ?_
    -- the import that was found is no longer there
    have hkept := List.filter_eq_self.1 hsame r hr
    rw [bne, hid] at hkept
    cases hkept
  · exact none o

end Ontology.Reports

/-! ### Runs -/

namespace Edit

variable {l : Library} {r : OntologyRef}

theorem reports (h : r.position < l.ontologies.length) (e : Edit) :
    (l.get r).Reports ((e.apply l r).get r) (e.changes l r) := by
  have hset {o : Ontology} (ho : o.id = (l.get r).id) : (l.set r o ho).get r = o :=
    Library.get_eq_of_set h rfl
  cases e with
  | add a => exact .of_adds (Library.adds_add h a)
  | addAll as => exact .of_adds (Library.adds_addAll h as)
  | remove a =>
    rw [apply, Library.remove, hset]
    exact .remove _ a
  | addImport target =>
    rw [apply, Library.addImport, hset]
    exact .addImport _ target
  | removeImport id =>
    rw [apply, Library.removeImport, hset]
    exact .removeImport _ id

theorem changes_add_eq_zero_iff (h : r.position < l.ontologies.length) (a : Axiom) :
    (l.add r a).1.toNat = 0 ↔ a ∈ (l.get r).axioms := by
  obtain ⟨cache, own, hreport, -, -⟩ := Library.exists_add h a
  by_cases ha : a ∈ (l.get r).axioms
  · rw [hreport, Ontology.add_of_contains (decide_eq_true ha)]
    exact iff_of_true rfl ha
  · obtain ⟨htrue, -⟩ := Ontology.add_of_not_contains (decide_eq_false ha) cache l.nextObject
    rw [hreport, htrue]
    exact iff_of_false Nat.one_ne_zero ha

theorem changes_addAll_eq_zero_iff (h : r.position < l.ontologies.length) (as : List Axiom) :
    (l.addAll r as).1 = 0 ↔ ∀ a ∈ as, a ∈ (l.get r).axioms := by
  induction as generalizing l with
  | nil => exact iff_of_true rfl (by simp)
  | cons a as ih =>
    rw [Library.fst_addAll_cons, Nat.add_eq_zero_iff, ih (by rwa [Library.length_add]),
      List.forall_mem_cons, ← changes_add_eq_zero_iff h]
    -- when the first axiom is there, the others are looked for in the same ontology
    refine and_congr_right fun hzero => ?_
    rw [(Library.adds_add h a).unchanged hzero]

theorem changes_eq_zero_iff (h : r.position < l.ontologies.length) (e : Edit) :
    e.changes l r = 0 ↔ e.IsDone (l.get r) := by
  cases e with
  | add a => exact changes_add_eq_zero_iff h a
  | addAll as => exact changes_addAll_eq_zero_iff h as
  | remove a =>
    show (Library.remove l r a).1.toNat = 0 ↔ a ∉ (l.get r).axioms
    rw [Library.remove, Ontology.fst_remove, Ontology.contains, Bool.toNat_eq_zero]
    exact decide_eq_false_iff_not
  | addImport target =>
    show (Library.addImport l r target).1.toNat = 0 ↔ ∃ s ∈ (l.get r).imports, s.id = target.id
    rw [Library.addImport, Ontology.fst_addImport, Bool.toNat_eq_zero]
    simp
  | removeImport id =>
    show (Library.removeImport l r id).1.toNat = 0 ↔ ∀ s ∈ (l.get r).imports, s.id ≠ id
    rw [Library.removeImport, Ontology.fst_removeImport, Bool.toNat_eq_zero]
    simp

theorem length_apply (l : Library) (r : OntologyRef) (e : Edit) :
    (e.apply l r).ontologies.length = l.ontologies.length := by
  cases e with
  | add a => exact l.length_add r a
  | addAll as => exact l.length_addAll r as
  | remove | addImport | removeImport => exact List.length_set

theorem advances_run (h : r.position < l.ontologies.length) (edits : List Edit) :
    (l.get r).Advances ((run l r edits).get r) (changesIn l r edits) := by
  induction edits generalizing l with
  | nil => exact .refl _
  | cons e edits ih =>
    exact (reports h e).toAdvances.trans (ih (by rwa [length_apply]))

theorem length_run (l : Library) (r : OntologyRef) (edits : List Edit) :
    (run l r edits).ontologies.length = l.ontologies.length := by
  induction edits generalizing l with
  | nil => rfl
  | cons e edits ih => exact (ih (e.apply l r)).trans (length_apply l r e)

end Edit

/-- Through any run of changes to an ontology that starts without axioms, the revision is the number
of single changes that the operations have reported. An operation reports none just when it has
nothing to do, and just when the axioms, in their order, and the imports are as before; then the
whole ontology is as before, with what it answers to any question and its revision. So between two
points of a run with the same revision nothing has changed. -/
theorem Ontology.revision_counts_changes (l : Library) (r : OntologyRef)
    (own : Option (SignatureCache Axiom))
    (h : l.ontologies[r.position]? = some (.empty r.id own)) :
    let after (edits : List Edit) : Ontology := (Edit.run l r edits).get r
    (∀ edits, (after edits).revision = Edit.changesIn l r edits) ∧
      (∀ edits e,
        let reported := Edit.changes (Edit.run l r edits) r e
        let next := after (edits ++ [e])
        (reported = 0 ↔ e.IsDone (after edits)) ∧
          (reported = 0 ↔
            next.axioms = (after edits).axioms ∧ next.imports = (after edits).imports) ∧
          (reported = 0 → next = after edits)) ∧
      ∀ before rest, (after (before ++ rest)).revision = (after before).revision →
        after (before ++ rest) = after before := by
  intro after
  have hplace : r.position < l.ontologies.length := (List.getElem?_eq_some_iff.1 h).1
  have hplaceAfter (edits : List Edit) :
      r.position < (Edit.run l r edits).ontologies.length := by rwa [Edit.length_run]
  have hstart : (l.get r).revision = 0 := by
    unfold Library.get
    rw [h]
    rfl
  refine ⟨?_, ?_, ?_⟩
  · intro edits
    rw [(Edit.advances_run hplace edits).revision_eq, hstart, Nat.zero_add]
  · intro edits e reported next
    have hnext : next = (e.apply (Edit.run l r edits) r).get r := by
      show (Edit.run l r (edits ++ [e])).get r = _
      rw [Edit.run_append]
      rfl
    have hreports := Edit.reports (hplaceAfter edits) e
    rw [hnext]
    exact ⟨Edit.changes_eq_zero_iff (hplaceAfter edits) e, hreports.same_iff, hreports.unchanged⟩
  · intro before rest hsame
    have hadvances := Edit.advances_run (hplaceAfter before) rest
    simp only [after, Edit.run_append] at hsame ⊢
    exact hadvances.unchanged (Nat.left_eq_add.1 (hsame.symm.trans hadvances.revision_eq))

/-- An axiom and an import are there when they are added again, and others are not when they are
removed. -/
theorem Ontology.revision_counts_changes_repeated :
    let r : OntologyRef := ⟨0, ⟨"o"⟩⟩
    let l := ((Library.empty 1).standalone r.id).2
    let own := some (SignatureCache.empty SignatureCache.defaultCapacity)
    let p : ObjectPropertyExpression := .named ⟨⟨"p"⟩⟩
    let a : Axiom := .symmetricObjectProperty p
    let b : Axiom := .transitiveObjectProperty p
    let before : List Edit := [.add a, .addAll [b, a, b], .addImport r, .remove a]
    let rest : List Edit := [.addAll [b], .addImport ⟨1, r.id⟩, .remove a, .removeImport ⟨"x"⟩]
    l.ontologies[r.position]? = some (.empty r.id own) ∧
      ((Edit.run l r before).get r).revision = 4 ∧
      (Edit.run l r (before ++ rest)).get r = (Edit.run l r before).get r := by
  intro r l own p a b before rest
  have hempty : l.ontologies[r.position]? = some (.empty r.id own) := rfl
  obtain ⟨hcount, -, hsame⟩ := Ontology.revision_counts_changes l r own hempty
  have hbefore : Edit.changesIn l r before = 4 := by decide
  have hall : Edit.changesIn l r (before ++ rest) = 4 := by decide
  refine ⟨hempty, (hcount before).trans hbefore, hsame before rest ?_⟩
  rw [hcount, hcount, hbefore, hall]

end OwlStructure
