import OwlStructure.Proofs.Collections.FirstOccurrence
import OwlStructure.Proofs.Store.Imports

/-!
The imports closure of an ontology that reaches no two ontologies with one IRI. Its members, the
root first, come in the order in which they first stand among the root and the imports of members.
This says already which ontologies are members and how far away they are: imports of nearer
ontologies come first.
-/
namespace OwlStructure.Library

/-! ### Distances -/

/-- The least number of steps in which an ontology is imported. -/
structure IsDistance (l : Library) (r : OntologyRef) (n : Nat) (s : OntologyRef) : Prop where
  importsIn : l.ImportsIn r n s
  least : ∀ m, l.ImportsIn r m s → n ≤ m

theorem ImportsIn.exists_distance {l : Library} {r s : OntologyRef} {n : Nat}
    (h : l.ImportsIn r n s) : ∃ m ≤ n, l.IsDistance r m s := by
  induction n using Nat.strongRecOn with
  | ind n ih =>
    by_cases hless : ∃ m < n, l.ImportsIn r m s
    · obtain ⟨m, hm, hs⟩ := hless
      obtain ⟨k, hk, hdistance⟩ := ih m hm hs
      exact ⟨k, Nat.le_trans hk (Nat.le_of_lt hm), hdistance⟩
    · exact ⟨n, Nat.le_refl n, h, fun m hm => Nat.not_lt.1 fun hlt => hless ⟨m, hlt, hm⟩⟩

/-- The ontologies that can be reached are there, and no two of them have one IRI. -/
structure DistinctImports (l : Library) (r : OntologyRef) : Prop where
  good : ∀ n s, l.ImportsIn r n s → s.IsGood l.ontologies
  eq_of_id_eq : ∀ m n s t, l.ImportsIn r m s → l.ImportsIn r n t → s.id = t.id → s = t

theorem getElem?_of_isGood {l : Library} {s : OntologyRef} (h : s.IsGood l.ontologies) :
    l.ontologies[s.position]? = some (l.get s) ∧ (l.get s).id = s.id := by
  obtain ⟨o, ho, hid⟩ := Option.map_eq_some_iff.1 h
  have hget : l.get s = o := by rw [get, ho, Option.getD_some]
  rw [hget]
  exact ⟨ho, hid⟩

variable {l : Library} {r s t : OntologyRef} {done refs : List OntologyRef}

/-- It is enough to look at references that hold the root, and with each what it imports. -/
theorem DistinctImports.of_closed (hr : r ∈ refs)
    (hclosed : ∀ p ∈ refs, ∀ s ∈ (l.get p).imports, s ∈ refs)
    (hgood : ∀ s ∈ refs, s.IsGood l.ontologies)
    (hids : ∀ s ∈ refs, ∀ t ∈ refs, s.id = t.id → s = t) : l.DistinctImports r where
  good _ s hs := hgood s (hs.mem_of_closed hr hclosed)
  eq_of_id_eq _ _ s t hs ht := hids s (hs.mem_of_closed hr hclosed) t (ht.mem_of_closed hr hclosed)

namespace DistinctImports

theorem listNew_eq (hl : l.DistinctImports r) (hs : ∃ n, l.ImportsIn r n s)
    (hdone : ∀ t ∈ done, ∃ n, l.ImportsIn r n t) : l.listNew done s = appendNew done s := by
  have hgood {t : OntologyRef} (ht : ∃ n, l.ImportsIn r n t) :
      l.ontologies[t.position]? = some (l.get t) ∧ (l.get t).id = t.id := by
    obtain ⟨n, hn⟩ := ht
    exact getElem?_of_isGood (hl.good n t hn)
  have hplace := (List.getElem?_eq_some_iff.1 (hgood hs).1).1
  have hlisted : (l.get s).id ∈ l.iris done ↔ s ∈ done := by
    rw [iris, List.mem_map]
    constructor
    · rintro ⟨t, ht, hid⟩
      rw [(hgood (hdone t ht)).2, (hgood hs).2] at hid
      obtain ⟨m, hm⟩ := hdone t ht
      obtain ⟨n, hn⟩ := hs
      exact hl.eq_of_id_eq m n t s hm hn hid ▸ ht
    · exact fun hs => ⟨s, hs, rfl⟩
  unfold listNew appendNew
  by_cases h : s ∈ done <;> simp [h, hplace, hlisted]

theorem foldl_listNew_eq (hl : l.DistinctImports r) (hrefs : ∀ s ∈ refs, ∃ n, l.ImportsIn r n s)
    (hdone : ∀ t ∈ done, ∃ n, l.ImportsIn r n t) :
    refs.foldl l.listNew done = refs.foldl appendNew done := by
  induction refs generalizing done with
  | nil => rfl
  | cons s refs ih =>
    obtain ⟨hs, hrefs⟩ := List.forall_mem_cons.1 hrefs
    rw [List.foldl_cons, List.foldl_cons, hl.listNew_eq hs hdone]
    apply ih hrefs
    intro t ht
    rcases mem_appendNew.1 ht with ht | rfl
    · exact hdone t ht
    · exact hs

end DistinctImports

/-! ### The order of the members -/

namespace IsImportsClosure

theorem queued_importsIn (h : l.IsImportsClosure r refs) (hs : s ∈ l.queued r refs) :
    ∃ n, l.ImportsIn r n s := by
  rcases List.mem_cons.1 hs with rfl | hs
  · exact ⟨0, .start⟩
  · obtain ⟨p, hp, hs⟩ := List.mem_flatMap.1 hs
    obtain ⟨n, hn⟩ := h.importsIn hp
    exact ⟨n + 1, hn.step hs⟩

section Distinct

variable (h : l.IsImportsClosure r refs) (hl : l.DistinctImports r)

include h hl

theorem foldl_queued : (l.queued r refs).foldl appendNew [] = refs := by
  rw [← hl.foldl_listNew_eq (fun s hs => h.queued_importsIn hs) (by simp)]
  exact h.firsts

theorem mem_iff_mem_queued : s ∈ refs ↔ s ∈ l.queued r refs := by
  conv_lhs => rw [← h.foldl_queued hl]
  rw [mem_foldl_appendNew, or_iff_right List.not_mem_nil]

theorem nodup : refs.Nodup :=
  h.foldl_queued hl ▸ nodup_foldl_appendNew .nil

/-- All imports are members. -/
theorem mem_iff : s ∈ refs ↔ ∃ n, l.ImportsIn r n s := by
  constructor
  · exact h.importsIn
  · rintro ⟨n, hn⟩
    rw [h.mem_iff_mem_queued hl]
    induction hn with
    | start => exact List.mem_cons_self
    | step hp hs ih =>
      exact List.mem_cons_of_mem r (List.mem_flatMap.2 ⟨_, (h.mem_iff_mem_queued hl).2 ih, hs⟩)

theorem pairwise_idxOf :
    refs.Pairwise fun s t => (l.queued r refs).idxOf s < (l.queued r refs).idxOf t := by
  have hpairwise := pairwise_idxOf_foldl_appendNew (l.queued r refs)
  rwa [h.foldl_queued hl] at hpairwise

/-- The root is listed first, since it is first in the queue. -/
theorem exists_eq_cons : ∃ rest, refs = r :: rest := by
  have hr : r ∈ refs := (h.mem_iff_mem_queued hl).2 List.mem_cons_self
  cases hrefs : refs with
  | nil => cases hrefs ▸ hr
  | cons s rest =>
    have hpairwise := h.pairwise_idxOf hl
    rw [hrefs] at hr hpairwise
    rcases List.mem_cons.1 hr with rfl | hr
    · exact ⟨rest, rfl⟩
    · have hlt := (List.pairwise_cons.1 hpairwise).1 r hr
      rw [queued, List.idxOf_cons_eq _ rfl] at hlt
      exact absurd hlt (Nat.not_lt_zero _)

theorem firstBefore (hs : s ≠ r) (ht : t ∈ refs)
    (hlt : (l.queued r refs).idxOf s < (l.queued r refs).idxOf t) :
    FirstBefore (fun p => (l.get p).imports) refs s t := by
  have htr : t ≠ r := by
    rintro rfl
    rw [queued, List.idxOf_cons_eq _ rfl] at hlt
    exact absurd hlt (Nat.not_lt_zero _)
  rw [queued, List.idxOf_cons_ne _ hs.symm, List.idxOf_cons_ne _ htr.symm] at hlt
  rw [h.mem_iff_mem_queued hl, queued, List.mem_cons] at ht
  exact .of_idxOf_lt (ht.resolve_left htr) (Nat.lt_of_succ_lt_succ hlt)

/-- What is listed before an ontology is not farther away: this holds of the ontology that imports
it first, which is not listed behind the last one on the way to the other. -/
theorem importsIn_of_idxOf_lt {n : Nat} (hn : l.ImportsIn r n t) (hs : s ∈ refs)
    (hlt : (l.queued r refs).idxOf s < (l.queued r refs).idxOf t) :
    ∃ m ≤ n, l.ImportsIn r m s := by
  induction hn generalizing s with
  | start =>
    rw [queued, List.idxOf_cons_eq _ rfl] at hlt
    exact absurd hlt (Nat.not_lt_zero _)
  | @step n p t hp ht ih =>
    by_cases hsr : s = r
    · exact ⟨0, Nat.zero_le _, hsr ▸ .start⟩
    · have hmem : t ∈ refs := (h.mem_iff hl).2 ⟨n + 1, hp.step ht⟩
      obtain ⟨q, q', hq, hq', hfirst⟩ := h.firstBefore hl hsr hmem hlt
      obtain ⟨hqrefs, hsq⟩ := mem_of_firstBlock hq
      have hprefs : p ∈ refs := (h.mem_iff hl).2 ⟨n, hp⟩
      have hle : refs.idxOf q ≤ refs.idxOf p := by
        have hle' := idxOf_firstBlock_le hq' ht
        rcases hfirst with hfirst | ⟨rfl, -⟩
        · omega
        · exact hle'
      rcases Nat.eq_or_lt_of_le hle with heq | hqp
      · obtain rfl := (List.idxOf_inj hqrefs).1 heq
        exact ⟨n + 1, Nat.le_refl _, hp.step hsq⟩
      · have hbefore := rel_of_idxOf_lt (h.pairwise_idxOf hl) hprefs hqp
        obtain ⟨m, hm, hqm⟩ := ih hqrefs hbefore
        exact ⟨m + 1, Nat.succ_le_succ hm, hqm.step hsq⟩

theorem pairwise_distance :
    refs.Pairwise fun s t => ∃ m n, l.IsDistance r m s ∧ l.IsDistance r n t ∧ m ≤ n := by
  refine (h.pairwise_idxOf hl).imp_of_mem fun hs ht hlt => ?_
  obtain ⟨n, hn⟩ := (h.mem_iff hl).1 ht
  obtain ⟨n, -, hdistance⟩ := hn.exists_distance
  obtain ⟨m, hm, hmn⟩ := h.importsIn_of_idxOf_lt hl hdistance.importsIn hs hlt
  obtain ⟨k, hk, hdistance'⟩ := hmn.exists_distance
  exact ⟨k, n, hdistance', hdistance, Nat.le_trans hk hm⟩

end Distinct

end IsImportsClosure

/-- Where no two ontologies that can be reached have one IRI, whatever cycles, diamonds and
self-imports there are, the imports closure of an ontology starts with it and lists just what it
imports in any number of steps, each once and with the nearer ones first. Of two others, that one is
first which is first imported by an earlier one, or by the same one and has the earlier place among
its imports. -/
theorem importsClosure_breadth_first (l : Library) (r : OntologyRef) (h : l.DistinctImports r) :
    ∃ refs : List OntologyRef, l.importsClosure r = refs.map l.get ∧
      refs.head? = some r ∧
      (refs.Nodup ∧ ((l.importsClosure r).map Ontology.id).Nodup) ∧
      (∀ s, s ∈ refs ↔ ∃ n, l.ImportsIn r n s) ∧
      (refs.Pairwise fun s t => ∃ m n, l.IsDistance r m s ∧ l.IsDistance r n t ∧ m ≤ n) ∧
      refs.tail.Pairwise (FirstBefore (fun p => (l.get p).imports) refs) := by
  obtain ⟨refs, hclosure, hrefs⟩ := l.exists_isImportsClosure r
  obtain ⟨rest, hrest⟩ := hrefs.exists_eq_cons h
  have hnodup := hrefs.nodup h
  have hpairwise := hrefs.pairwise_idxOf h
  refine ⟨refs, hclosure, by rw [hrest, List.head?_cons], ⟨hnodup, ?_⟩,
    fun s => hrefs.mem_iff h, hrefs.pairwise_distance h, ?_⟩
  · rw [hclosure, List.map_map]
    exact hrefs.nodup_iris
  · refine (hpairwise.sublist (List.tail_sublist refs)).imp_of_mem fun {s t} hs ht hlt => ?_
    rw [hrest, List.nodup_cons] at hnodup
    rw [hrest, List.tail_cons] at hs ht
    refine hrefs.firstBefore h (ne_of_mem_of_not_mem hs hnodup.1) ?_ hlt
    exact hrest ▸ List.mem_cons_of_mem r ht

/-- Two ontologies import a third, which imports the root; one of them imports itself as well. -/
theorem importsClosure_breadth_first_cyclic :
    let a : OntologyRef := ⟨0, ⟨"a"⟩⟩
    let b : OntologyRef := ⟨1, ⟨"b"⟩⟩
    let c : OntologyRef := ⟨2, ⟨"c"⟩⟩
    let d : OntologyRef := ⟨3, ⟨"d"⟩⟩
    let made := [a, b, c, d].foldl (fun l r => (l.standalone r.id).2) (empty 1)
    let l := [(a, b), (a, c), (b, d), (c, c), (c, d), (d, a)].foldl
      (fun (l : Library) e => (l.addImport e.1 e.2).2) made
    l.DistinctImports a ∧
      ∃ refs : List OntologyRef, l.importsClosure a = refs.map l.get ∧ refs.head? = some a ∧
        refs.Perm [a, b, c, d] := by
  intro a b c d made l
  have hclosed : ∀ p ∈ [a, b, c, d], ∀ s ∈ (l.get p).imports, s ∈ [a, b, c, d] := by decide
  have hdistinct : l.DistinctImports a :=
    .of_closed List.mem_cons_self hclosed (by decide) (by decide)
  obtain ⟨refs, hclosure, hhead, ⟨hnodup, -⟩, hmem, -⟩ :=
    importsClosure_breadth_first l a hdistinct
  refine ⟨hdistinct, refs, hclosure, hhead, ?_⟩
  refine (List.perm_ext_iff_of_nodup hnodup (by decide)).2 fun s => (hmem s).trans ?_
  refine ⟨fun ⟨n, hn⟩ => hn.mem_of_closed List.mem_cons_self hclosed, fun hs => ?_⟩
  have hb : l.ImportsIn a 1 b := .step .start (by decide)
  have hc : l.ImportsIn a 1 c := .step .start (by decide)
  have hd : l.ImportsIn a 2 d := hb.step (by decide)
  simp only [List.mem_cons, List.not_mem_nil, or_false] at hs
  rcases hs with rfl | rfl | rfl | rfl
  · exact ⟨0, .start⟩
  · exact ⟨1, hb⟩
  · exact ⟨1, hc⟩
  · exact ⟨2, hd⟩

end OwlStructure.Library
