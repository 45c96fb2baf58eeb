import Mathlib.Data.List.Induction
import OwlStructure.Library

/-!
What an ontology imports in any number of steps. Ontologies are told apart by their IRIs: the
imports closure has the root and what its members import, in the order of the imports, and of
several ontologies with one IRI the first alone. Whatever the imports are, this determines it.
-/
namespace OwlStructure.Library

section Listing

variable {ontologies : List Ontology} {r : OntologyRef} {rest : List OntologyRef}
  {listed : List Iri} {o : Ontology}

theorem listImports_of_none (ho : ontologies[r.position]? = none) :
    listImports ontologies (r :: rest) listed = listImports ontologies rest listed := by
  rw [listImports]
  split
  · rfl
  · next h => cases ho.symm.trans h

theorem listImports_of_some (ho : ontologies[r.position]? = some o) :
    listImports ontologies (r :: rest) listed =
      if o.id ∈ listed then listImports ontologies rest listed
      else o :: listImports ontologies (rest ++ o.imports) (o.id :: listed) := by
  rw [listImports]
  split
  · next h => cases ho.symm.trans h
  · next h =>
    cases ho.symm.trans h
    split <;> rfl

end Listing

/-! ### The graph of imports -/

/-- An ontology is imported in a number of steps. -/
inductive ImportsIn (l : Library) (r : OntologyRef) : Nat → OntologyRef → Prop where
  | start : ImportsIn l r 0 r
  | step {n p s} (hp : ImportsIn l r n p) (hs : s ∈ (l.get p).imports) : ImportsIn l r (n + 1) s

variable {l : Library} {r s t : OntologyRef} {n : Nat} {refs refs' done queue : List OntologyRef}

/-- References that hold the root, and with each what its ontology imports, hold all imports. -/
theorem ImportsIn.mem_of_closed (hr : r ∈ refs)
    (hclosed : ∀ p ∈ refs, ∀ s ∈ (l.get p).imports, s ∈ refs) (h : l.ImportsIn r n s) :
    s ∈ refs := by
  induction h with
  | start => exact hr
  | step _ hs ih => exact hclosed _ ih _ hs

/-! ### The first ontology of each IRI -/

/-- The IRIs of the ontologies at some references. -/
def iris (l : Library) (refs : List OntologyRef) : List Iri := refs.map fun s => (l.get s).id

/-- Lists a reference behind others, if there is an ontology at its place and none with its IRI is
listed. -/
def listNew (l : Library) (done : List OntologyRef) (s : OntologyRef) : List OntologyRef :=
  if s.position < l.ontologies.length ∧ (l.get s).id ∉ l.iris done then done ++ [s] else done

theorem iris_append (l : Library) (refs refs' : List OntologyRef) :
    l.iris (refs ++ refs') = l.iris refs ++ l.iris refs' := List.map_append

theorem prefix_foldl_listNew (l : Library) (refs done : List OntologyRef) :
    done <+: refs.foldl l.listNew done := by
  induction refs generalizing done with
  | nil => exact List.prefix_rfl
  | cons s refs ih =>
    apply List.IsPrefix.trans _ (ih (l.listNew done s))
    unfold listNew
    split
    · exact List.prefix_append done [s]
    · exact List.prefix_rfl

theorem mem_foldl_listNew (h : t ∈ refs.foldl l.listNew done) :
    t ∈ done ∨ t.position < l.ontologies.length := by
  induction refs generalizing done with
  | nil => exact .inl h
  | cons s refs ih =>
    rcases ih h with ht | ht
    · unfold listNew at ht
      split at ht
      · next hs =>
        rcases List.mem_append.1 ht with ht | ht
        · exact .inl ht
        · exact .inr (List.mem_singleton.1 ht ▸ hs.1)
      · exact .inl ht
    · exact .inr ht

/-- Of every ontology that is there the IRI gets listed. -/
theorem id_mem_iris_foldl_listNew (hs : s ∈ refs) (hplace : s.position < l.ontologies.length) :
    (l.get s).id ∈ l.iris (refs.foldl l.listNew done) := by
  induction refs generalizing done with
  | nil => cases hs
  | cons t refs ih =>
    rcases List.mem_cons.1 hs with rfl | hs
    · have hlisted : (l.get s).id ∈ l.iris (l.listNew done s) := by
        unfold listNew
        split
        · simp [iris]
        · next hold => simpa [hplace] using hold
      exact ((prefix_foldl_listNew l refs _).map _).subset hlisted
    · exact ih hs

theorem nodup_iris_foldl_listNew (h : (l.iris done).Nodup) :
    (l.iris (refs.foldl l.listNew done)).Nodup := by
  induction refs generalizing done with
  | nil => exact h
  | cons s refs ih =>
    apply ih
    unfold listNew
    split
    · next hs =>
      rw [iris_append, List.nodup_append]
      refine ⟨h, by simp [iris], fun id hid id' hid' he => hs.2 ?_⟩
      have hid'' : id' = (l.get s).id := List.mem_singleton.1 hid'
      rwa [← hid'', ← he]
    · exact h

/-! ### Imports closures -/

/-- The root, and what the listed ontologies import, in the order of the queue. -/
def queued (l : Library) (r : OntologyRef) (done : List OntologyRef) : List OntologyRef :=
  r :: done.flatMap fun p => (l.get p).imports

theorem queued_append (l : Library) (r : OntologyRef) (done more : List OntologyRef) :
    l.queued r (done ++ more) = l.queued r done ++ more.flatMap fun p => (l.get p).imports := by
  rw [queued, List.flatMap_append, ← List.cons_append, ← queued]

/-- The imports closure of an ontology. Each member is the root or imported by an earlier member,
and the members are the first of each IRI among the root and what they import. -/
structure IsImportsClosure (l : Library) (r : OntologyRef) (refs : List OntologyRef) : Prop where
  imported : ∀ before s after, refs = before ++ s :: after → s ∈ l.queued r before
  firsts : (l.queued r refs).foldl l.listNew [] = refs

namespace IsImportsClosure

theorem isThere (h : l.IsImportsClosure r refs) (hs : s ∈ refs) :
    s.position < l.ontologies.length := by
  rw [← h.firsts] at hs
  exact (mem_foldl_listNew hs).resolve_left List.not_mem_nil

theorem nodup_iris (h : l.IsImportsClosure r refs) : (l.iris refs).Nodup := by
  rw [← h.firsts]
  exact nodup_iris_foldl_listNew List.nodup_nil

theorem importsIn (h : l.IsImportsClosure r refs) (hs : s ∈ refs) : ∃ n, l.ImportsIn r n s := by
  have hprefix (before : List OntologyRef) :
      ∀ after, refs = before ++ after → ∀ t ∈ before, ∃ n, l.ImportsIn r n t := by
    induction before using List.reverseRecOn with
    | nil => exact fun _ _ t ht => absurd ht List.not_mem_nil
    | append_singleton before p ih =>
      intro after hrefs t ht
      rw [List.append_assoc, List.singleton_append] at hrefs
      have hbefore := ih (p :: after) hrefs
      rcases List.mem_append.1 ht with ht | ht
      · exact hbefore t ht
      · obtain rfl := List.mem_singleton.1 ht
        rcases List.mem_cons.1 (h.imported before t after hrefs) with rfl | ht
        · exact ⟨0, .start⟩
        · obtain ⟨q, hq, ht⟩ := List.mem_flatMap.1 ht
          obtain ⟨n, hn⟩ := hbefore q hq
          exact ⟨n + 1, hn.step ht⟩
  exact hprefix refs [] (List.append_nil refs).symm s hs

/-- What the first members import comes to the front of the closure. -/
theorem foldl_queued_prefix (h : l.IsImportsClosure r refs) {before : List OntologyRef}
    (hbefore : before <+: refs) : (l.queued r before).foldl l.listNew [] <+: refs := by
  obtain ⟨after, rfl⟩ := hbefore
  have hfirsts := h.firsts
  rw [queued_append, List.foldl_append] at hfirsts
  conv_rhs => rw [← hfirsts]
  exact prefix_foldl_listNew l _ _

/-- Member by member the other closure has the same front. Each member stands among what the
members before it import, which comes to the front of both closures. -/
theorem isPrefix (h : l.IsImportsClosure r refs) (h' : l.IsImportsClosure r refs') :
    refs <+: refs' := by
  have hprefix (before : List OntologyRef) :
      ∀ after, refs = before ++ after → before <+: refs' := by
    induction before using List.reverseRecOn with
    | nil => exact fun _ _ => List.nil_prefix
    | append_singleton before s ih =>
      intro after hrefs
      have hbefore : before ++ [s] <+: refs := ⟨after, hrefs.symm⟩
      rw [List.append_assoc, List.singleton_append] at hrefs
      have hfirst := h.foldl_queued_prefix ⟨s :: after, hrefs.symm⟩
      have hfirst' := h'.foldl_queued_prefix (ih (s :: after) hrefs)
      have hs : s ∈ refs := by simp [hrefs]
      have hid : (l.get s).id ∈ l.iris ((l.queued r before).foldl l.listNew []) :=
        id_mem_iris_foldl_listNew (h.imported before s after hrefs) (h.isThere hs)
      have hlong : before.length < ((l.queued r before).foldl l.listNew []).length := by
        by_contra hshort
        have hold := List.prefix_of_prefix_length_le hfirst ⟨s :: after, hrefs.symm⟩
          (Nat.le_of_not_lt hshort)
        have hnodup := h.nodup_iris
        rw [hrefs, iris_append, List.nodup_append] at hnodup
        exact hnodup.2.2 _ ((hold.map _).subset hid) _ List.mem_cons_self rfl
      have hlength : (before ++ [s]).length ≤ ((l.queued r before).foldl l.listNew []).length := by
        rw [List.length_append, List.length_singleton]
        exact hlong
      exact (List.prefix_of_prefix_length_le hbefore hfirst hlength).trans hfirst'
  exact hprefix refs [] (List.append_nil refs).symm

theorem unique (h : l.IsImportsClosure r refs) (h' : l.IsImportsClosure r refs') :
    refs = refs' := by
  apply (h.isPrefix h').eq_of_length
  exact Nat.le_antisymm (h.isPrefix h').length_le (h'.isPrefix h).length_le

end IsImportsClosure

/-! ### Listing -/

/-- Some ontologies have been listed. They are those that have left the queue, and the queue still
holds the rest of what has entered it. -/
structure Lists (l : Library) (r : OntologyRef) (queue done : List OntologyRef)
    (listed : List Iri) : Prop where
  queue_eq : ∃ left : List OntologyRef, left ++ queue = l.queued r done ∧
    left.foldl l.listNew [] = done
  imported : ∀ before s after, done = before ++ s :: after → s ∈ l.queued r before
  listed_eq : ∀ id, id ∈ listed ↔ id ∈ l.iris done

namespace Lists

variable {listed : List Iri}

theorem start (l : Library) (r : OntologyRef) : l.Lists r [r] [] [] where
  queue_eq := ⟨[], rfl, rfl⟩
  imported _ _ _ h := by simp at h
  listed_eq _ := Iff.rfl

theorem skip (h : l.Lists r (s :: queue) done listed) (hs : l.listNew done s = done) :
    l.Lists r queue done listed where
  queue_eq := by
    obtain ⟨left, hqueue, hdone⟩ := h.queue_eq
    refine ⟨left ++ [s], by rw [← hqueue, List.append_assoc, List.singleton_append], ?_⟩
    rw [List.foldl_append, hdone, List.foldl_cons, List.foldl_nil, hs]
  imported := h.imported
  listed_eq := h.listed_eq

theorem list (h : l.Lists r (s :: queue) done listed) (hs : l.listNew done s = done ++ [s]) :
    l.Lists r (queue ++ (l.get s).imports) (done ++ [s]) ((l.get s).id :: listed) where
  queue_eq := by
    obtain ⟨left, hqueue, hdone⟩ := h.queue_eq
    refine ⟨left ++ [s], ?_, ?_⟩
    · rw [queued_append, ← hqueue]
      simp
    · rw [List.foldl_append, hdone, List.foldl_cons, List.foldl_nil, hs]
  imported before t after hdone := by
    rcases List.eq_nil_or_concat after with rfl | ⟨after, p, rfl⟩
    · obtain ⟨rfl, ht⟩ := List.append_inj' hdone rfl
      obtain ⟨left, hqueue, -⟩ := h.queue_eq
      rw [← hqueue, ← (List.cons.inj ht).1]
      exact List.mem_append_right left List.mem_cons_self
    · rw [List.concat_eq_append, ← List.cons_append, ← List.append_assoc] at hdone
      exact h.imported before t after (List.append_inj' hdone rfl).1
  listed_eq id := by
    rw [List.mem_cons, h.listed_eq, iris_append, List.mem_append, or_comm]
    simp [iris]

end Lists

/-- Listing goes on until the queue is empty. -/
theorem exists_isImportsClosure_of_lists {listed : List Iri} (h : l.Lists r queue done listed) :
    ∃ more, listImports l.ontologies queue listed = more.map l.get ∧
      l.IsImportsClosure r (done ++ more) := by
  have hget {s : OntologyRef} {o : Ontology} (ho : l.ontologies[s.position]? = some o) :
      s.position < l.ontologies.length ∧ l.get s = o :=
    ⟨(List.getElem?_eq_some_iff.1 ho).1, by rw [get, ho, Option.getD_some]⟩
  fun_induction listImports l.ontologies queue listed generalizing done with
  | case1 listed =>
    obtain ⟨left, hqueue, hdone⟩ := h.queue_eq
    rw [List.append_nil] at hqueue
    refine ⟨[], rfl, ?_⟩
    rw [List.append_nil]
    exact ⟨h.imported, hqueue ▸ hdone⟩
  | case2 listed s rest hnone ih =>
    have hplace := List.getElem?_eq_none_iff.1 hnone
    exact ih (h.skip (if_neg fun hs => absurd hs.1 (Nat.not_lt.2 hplace)))
  | case3 listed s rest o ho hlisted ih =>
    obtain ⟨-, rfl⟩ := hget ho
    exact ih (h.skip (if_neg fun hs => hs.2 ((h.listed_eq _).1 hlisted)))
  | case4 listed s rest o ho hnew ih =>
    obtain ⟨hplace, rfl⟩ := hget ho
    have hs : l.listNew done s = done ++ [s] :=
      if_pos ⟨hplace, fun hid => hnew ((h.listed_eq _).2 hid)⟩
    obtain ⟨more, hmore, hclosure⟩ := ih (h.list hs)
    refine ⟨s :: more, ?_, ?_⟩
    · rw [List.map_cons, hmore]
    · rwa [List.append_cons]

/-- What is listed is an imports closure, and so it is the only one. -/
theorem exists_isImportsClosure (l : Library) (r : OntologyRef) :
    ∃ refs, l.importsClosure r = refs.map l.get ∧ l.IsImportsClosure r refs :=
  exists_isImportsClosure_of_lists (.start l r)

end OwlStructure.Library
