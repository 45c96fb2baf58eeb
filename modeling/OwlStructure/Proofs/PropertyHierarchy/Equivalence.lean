import OwlStructure.Ontology
import OwlStructure.PropertyHierarchy.Equivalence
import OwlStructure.Proofs.Collections.MaximalSets
import OwlStructure.Proofs.Components.Strong

/-!
Equivalence classes are the sets of two or more properties that lead to each other by sub-property
axioms. They are disjoint and in the order of their least members.
-/
namespace OwlStructure.PropertyHierarchy

open Relation

section Graph

variable {α : Type u} [DecidableEq α] {members : List α} {arrows : List (α × α)}

theorem edge_arrowGraph (hm : members.Nodup) {i j : Fin members.length} :
    (arrowGraph members arrows).Edge i j ↔ (members.get i, members.get j) ∈ arrows := by
  have hidx {x : α} : members.finIdxOf? x = some j ↔ members.get j = x := by
    rw [List.finIdxOf?_eq_some_iff]
    refine and_iff_left_of_imp fun hj k hk he => ?_
    have hkj : k = j := hm.injective_get (he.trans hj.symm)
    exact absurd (hkj ▸ hk) (Nat.lt_irrefl _)
  show j ∈ (arrowGraph members arrows).successors[i] ↔ _
  unfold arrowGraph
  rw [Fin.getElem_fin, Vector.getElem_ofFn, List.mem_filterMap]
  constructor
  · rintro ⟨⟨x, y⟩, he, hf⟩
    split at hf
    · next hx =>
      obtain rfl : members.get j = y := hidx.1 hf
      obtain rfl : x = members.get i := hx
      exact he
    · cases hf
  · intro he
    exact ⟨_, he, (if_pos rfl).trans (hidx.2 rfl)⟩

/-- Positions lead to each other as the members at them do. -/
theorem reach_arrowGraph (hm : members.Nodup) (hends : ∀ e ∈ arrows, e.1 ∈ members)
    {i j : Fin members.length} :
    (arrowGraph members arrows).Reach i j ↔
      ReflTransGen (fun x y => (x, y) ∈ arrows) (members.get i) (members.get j) := by
  constructor
  · intro h
    exact h.lift members.get fun _ _ he => (edge_arrowGraph hm).1 he
  · generalize hy : members.get j = y
    intro h
    induction h generalizing j with
    | refl => rw [hm.injective_get hy]
    | tail _ he ih =>
      obtain ⟨k, rfl⟩ := List.get_of_mem (hends _ he)
      refine (ih rfl).tail ((edge_arrowGraph hm).2 ?_)
      rw [hy]
      exact he

end Graph

variable {axioms : List Axiom} {p q : ObjectPropertyExpression}
  {s t : SortedSet ObjectPropertyExpression}

/-! ### The graph of the sub-property axioms -/

/-- One of some stores holds a sub-property axiom for the first property and the second. -/
def Linked (stores : List Ontology) (p q : ObjectPropertyExpression) : Prop :=
  ∃ o ∈ stores, ∃ a ∈ o.axioms, ∃ sub sup,
    a.kind = .subObjectPropertyOf sub sup ∧ p = sub.simplified ∧ q = sup.simplified

theorem mem_subPropertyArrows :
    (p, q) ∈ (subPropertyArrows axioms).toList ↔
      ∃ a ∈ axioms, ∃ sub sup,
        a.kind = .subObjectPropertyOf sub sup ∧ p = sub.simplified ∧ q = sup.simplified := by
  have harrow (k : AxiomKind) :
      subPropertyArrow? k = some (p, q) ↔
        ∃ sub sup, k = .subObjectPropertyOf sub sup ∧ p = sub.simplified ∧ q = sup.simplified := by
    constructor
    · intro h
      cases k <;> simp only [subPropertyArrow?, reduceCtorEq] at h
      case subObjectPropertyOf sub sup =>
        cases h
        exact ⟨sub, sup, rfl, rfl, rfl⟩
    · rintro ⟨sub, sup, rfl, rfl, rfl⟩
      rfl
  unfold subPropertyArrows
  rw [SortedSet.mem_toList, SortedSet.mem_ofList, List.mem_filterMap]
  simp only [harrow]

theorem mem_subPropertyArrows_stores {stores : List Ontology} :
    (p, q) ∈ (subPropertyArrows (stores.flatMap Ontology.axioms)).toList ↔
      Linked stores p q := by
  unfold Linked
  rw [mem_subPropertyArrows]
  constructor
  · rintro ⟨a, ha, h⟩
    obtain ⟨o, ho, ha⟩ := List.mem_flatMap.1 ha
    exact ⟨o, ho, a, ha, h⟩
  · rintro ⟨o, ho, a, ha, h⟩
    exact ⟨a, List.mem_flatMap.2 ⟨o, ho, ha⟩, h⟩

theorem nodup_nodes (axioms : List Axiom) : (nodes axioms).Nodup := by
  refine nodup_foldl_appendNew ((mentioned axioms).nodup_toList.map ?_)
  intro p q h
  exact ObjectPropertyExpression.named.inj h

theorem fst_mem_nodes {e : PropertyArrow} (he : e ∈ (subPropertyArrows axioms).toList) :
    e.1 ∈ nodes axioms :=
  mem_foldl_appendNew.2 (.inr (List.mem_flatMap.2 ⟨e, he, by simp⟩))

/-- The graph in which the classes are found. -/
def graph (axioms : List Axiom) : Digraph (nodes axioms).length :=
  arrowGraph (nodes axioms) (subPropertyArrows axioms).toList

theorem reach_graph {i j : Fin (nodes axioms).length} :
    (graph axioms).Reach i j ↔
      ReflTransGen (fun p q => (p, q) ∈ (subPropertyArrows axioms).toList)
        ((nodes axioms).get i) ((nodes axioms).get j) :=
  reach_arrowGraph (nodup_nodes axioms) fun _ he => fst_mem_nodes he

/-! ### The classes -/

/-- The properties at some positions. -/
def members (axioms : List Axiom) (c : List (Fin (nodes axioms).length)) :
    SortedSet ObjectPropertyExpression :=
  .ofList (c.map (nodes axioms).get)

theorem mem_members {c : List (Fin (nodes axioms).length)} :
    p ∈ members axioms c ↔ ∃ i ∈ c, (nodes axioms).get i = p := by
  unfold members
  rw [SortedSet.mem_ofList, List.mem_map]

theorem size_members {c : List (Fin (nodes axioms).length)} (hc : c.Nodup) :
    (members axioms c).size = c.length := by
  have hperm := SortedSet.toList_ofList_perm (c.map (nodes axioms).get)
  rw [(hc.map (nodup_nodes axioms).injective_get).dedup] at hperm
  exact hperm.length_eq.trans (List.length_map _)

/-- Positions with a property in common are one component. -/
theorem component_eq {c d : List (Fin (nodes axioms).length)} (hc : c ∈ (graph axioms).components)
    (hd : d ∈ (graph axioms).components) (hp : p ∈ members axioms c) (hp' : p ∈ members axioms d) :
    c = d := by
  obtain ⟨i, hi, rfl⟩ := mem_members.1 hp
  obtain ⟨j, hj, he⟩ := mem_members.1 hp'
  obtain rfl : j = i := (nodup_nodes axioms).injective_get he
  exact Digraph.component_unique hc hd hi hj

/-- No class is dropped, as none is contained in another. -/
theorem mem_equivalenceClasses :
    s ∈ equivalenceClasses axioms ↔
      ∃ c ∈ (graph axioms).components, 1 < c.length ∧ members axioms c = s := by
  show s ∈ SortedSet.maximal
    (((graph axioms).components.filter fun c => 1 < c.length).map (members axioms)) ↔ _
  rw [SortedSet.mem_maximal]
  simp only [List.mem_map, List.mem_filter, decide_eq_true_eq, and_assoc]
  refine and_iff_left_of_imp ?_
  rintro ⟨c, hc, hlen, rfl⟩ _ ⟨d, hd, -, rfl⟩ hsub
  obtain ⟨i, hi⟩ := List.exists_mem_of_length_pos (Nat.lt_trans Nat.zero_lt_one hlen)
  have hp : (nodes axioms).get i ∈ members axioms c := mem_members.2 ⟨i, hi, rfl⟩
  rw [component_eq hd hc (hsub _ hp) hp]

theorem eq_of_common (hs : s ∈ equivalenceClasses axioms) (ht : t ∈ equivalenceClasses axioms)
    (hp : p ∈ s) (hp' : p ∈ t) : s = t := by
  obtain ⟨c, hc, -, rfl⟩ := mem_equivalenceClasses.1 hs
  obtain ⟨d, hd, -, rfl⟩ := mem_equivalenceClasses.1 ht
  rw [component_eq hc hd hp hp']

theorem two_le_size (hs : s ∈ equivalenceClasses axioms) : 2 ≤ s.size := by
  obtain ⟨c, hc, hlen, rfl⟩ := mem_equivalenceClasses.1 hs
  rw [size_members (Digraph.nodup_component hc)]
  exact hlen

theorem exists_class_iff (hne : p ≠ q) :
    (∃ s ∈ equivalenceClasses axioms, p ∈ s ∧ q ∈ s) ↔
      ReflTransGen (fun p q => (p, q) ∈ (subPropertyArrows axioms).toList) p q ∧
        ReflTransGen (fun p q => (p, q) ∈ (subPropertyArrows axioms).toList) q p := by
  constructor
  · rintro ⟨s, hs, hp, hq⟩
    obtain ⟨c, hc, -, rfl⟩ := mem_equivalenceClasses.1 hs
    obtain ⟨i, hi, rfl⟩ := mem_members.1 hp
    obtain ⟨j, hj, rfl⟩ := mem_members.1 hq
    obtain ⟨hij, hji⟩ := Digraph.exists_component_iff.1 ⟨c, hc, hi, hj⟩
    exact ⟨reach_graph.1 hij, reach_graph.1 hji⟩
  · rintro ⟨hpq, hqp⟩
    -- each is the source of a first step, so each has a position
    obtain ⟨p', hp', -⟩ := hpq.cases_head.resolve_left hne
    obtain ⟨q', hq', -⟩ := hqp.cases_head.resolve_left hne.symm
    obtain ⟨i, rfl⟩ := List.get_of_mem (fst_mem_nodes hp')
    obtain ⟨j, rfl⟩ := List.get_of_mem (fst_mem_nodes hq')
    obtain ⟨c, hc, hic, hjc⟩ :=
      Digraph.exists_component_iff.2 ⟨reach_graph.2 hpq, reach_graph.2 hqp⟩
    have hlen : 1 < c.length := by
      by_contra hle
      obtain ⟨k, hk⟩ := List.length_eq_one_iff.1
        (Nat.le_antisymm (Nat.le_of_not_lt hle) (List.length_pos_of_mem hic))
      rw [hk, List.mem_singleton] at hic hjc
      exact hne (by rw [hic, hjc])
    exact ⟨_, mem_equivalenceClasses.2 ⟨c, hc, hlen, rfl⟩, mem_members.2 ⟨_, hic, rfl⟩,
      mem_members.2 ⟨_, hjc, rfl⟩⟩

/-- With one of its members a class holds exactly what the arrows lead to and back from. -/
theorem mem_iff_of_mem_class (hs : s ∈ equivalenceClasses axioms) (hp : p ∈ s) :
    q ∈ s ↔
      ReflTransGen (fun p q => (p, q) ∈ (subPropertyArrows axioms).toList) p q ∧
        ReflTransGen (fun p q => (p, q) ∈ (subPropertyArrows axioms).toList) q p := by
  by_cases hne : p = q
  · subst hne
    exact iff_of_true hp ⟨.refl, .refl⟩
  · rw [← exists_class_iff hne]
    constructor
    · exact fun hq => ⟨s, hs, hp, hq⟩
    · rintro ⟨t, ht, hp', hq⟩
      rwa [eq_of_common hs ht hp hp']

/-- The classes are determined by the arrows: a class has two members at least, and with one of them
it holds exactly what the arrows lead to and back from. -/
theorem mem_equivalenceClasses_iff :
    s ∈ equivalenceClasses axioms ↔
      2 ≤ s.size ∧ ∀ p ∈ s, ∀ q, q ∈ s ↔
        ReflTransGen (fun p q => (p, q) ∈ (subPropertyArrows axioms).toList) p q ∧
          ReflTransGen (fun p q => (p, q) ∈ (subPropertyArrows axioms).toList) q p := by
  refine ⟨fun hs => ⟨two_le_size hs, fun p hp q => mem_iff_of_mem_class hs hp⟩, ?_⟩
  rintro ⟨hsize, hclosed⟩
  -- two members lie together in some class, and that class is the set
  obtain ⟨p, hp, q, hq, hne⟩ := SortedSet.exists_ne hsize
  obtain ⟨t, ht, hpt, -⟩ := (exists_class_iff hne).2 ((hclosed p hp q).1 hq)
  have hst : s = t := by
    refine SortedSet.ext fun x => ?_
    rw [hclosed p hp x, mem_iff_of_mem_class ht hpt]
  rwa [hst]

theorem equivalenceClasses_sorted (axioms : List Axiom) :
    (equivalenceClasses axioms).Pairwise Before := SortedSet.maximal_sorted _

/-- Disjoint classes in ascending order ascend by their least members. -/
theorem equivalenceClasses_ascending (axioms : List Axiom) :
    (equivalenceClasses axioms).Pairwise fun s t =>
      ∃ p q, s.IsLeast p ∧ t.IsLeast q ∧ Before p q := by
  refine (equivalenceClasses_sorted axioms).imp_of_mem fun {s t} hs ht hst => ?_
  have hmember {s : SortedSet ObjectPropertyExpression} (hs : s ∈ equivalenceClasses axioms) :
      ∃ p, p ∈ s := List.exists_mem_of_length_pos (Nat.lt_of_lt_of_le Nat.two_pos (two_le_size hs))
  obtain ⟨p, hp⟩ := hmember hs
  obtain ⟨q, hq⟩ := hmember ht
  obtain ⟨p, l, hpl, hp⟩ := SortedSet.exists_isLeast hp
  obtain ⟨q, m, hqm, hq⟩ := SortedSet.exists_isLeast hq
  have hne : p ≠ q := by
    rintro rfl
    exact hst.ne (eq_of_common hs ht hp.1 hq.1)
  exact ⟨p, q, hp, hq, SortedSet.before_of_heads hpl hqm hne hst⟩

/-- The equivalence classes of some stores are the strongly connected components of their
sub-property axioms that have more than one member, in ascending order. -/
theorem equivalenceClasses_strongly_connected (stores : List Ontology) :
    let classes := equivalenceClasses (stores.flatMap Ontology.axioms)
    (∀ p q, p ≠ q →
      ((∃ s ∈ classes, p ∈ s ∧ q ∈ s) ↔
        ReflTransGen (Linked stores) p q ∧ ReflTransGen (Linked stores) q p)) ∧
    (∀ s ∈ classes, 2 ≤ s.size) ∧
    (∀ s ∈ classes, ∀ t ∈ classes, ∀ p, p ∈ s → p ∈ t → s = t) ∧
    classes.Nodup ∧
    classes.Pairwise fun s t => ∃ p q, s.IsLeast p ∧ t.IsLeast q ∧ Before p q := by
  have hlinked : (fun p q => (p, q) ∈ (subPropertyArrows (stores.flatMap Ontology.axioms)).toList) =
      Linked stores := by
    funext p q
    exact propext mem_subPropertyArrows_stores
  intro classes
  refine ⟨fun p q hne => ?_, fun s hs => two_le_size hs, fun s hs t ht p => eq_of_common hs ht,
    ?_, equivalenceClasses_ascending _⟩
  · rw [← hlinked]
    exact exists_class_iff hne
  · exact (equivalenceClasses_sorted _).imp Before.ne

/-- Two stores close a cycle, one of them through nested inverses. -/
theorem equivalenceClasses_strongly_connected_cycle :
    let p : ObjectPropertyExpression := .named ⟨⟨"p"⟩⟩
    let q : ObjectPropertyExpression := .inverse (.named ⟨⟨"q"⟩⟩)
    let store (a : Axiom) : Ontology := ((Ontology.empty ⟨"o"⟩ none).add (.empty 1) ⟨0, a⟩).2.1
    let stores := [store (.subObjectPropertyOf p (.inverse (.inverse q))),
      store (.subObjectPropertyOf q p)]
    p ≠ q ∧ ∃ s ∈ equivalenceClasses (stores.flatMap Ontology.axioms), p ∈ s ∧ q ∈ s := by
  intro p q store stores
  have hne : p ≠ q := by decide
  have hpq : Linked stores p q :=
    ⟨_, List.mem_cons_self, _, List.mem_cons_self, _, _, rfl, by decide, by decide⟩
  have hqp : Linked stores q p :=
    ⟨_, List.mem_cons_of_mem _ List.mem_cons_self, _, List.mem_cons_self, _, _, rfl, by decide,
      by decide⟩
  refine ⟨hne, ?_⟩
  exact ((equivalenceClasses_strongly_connected stores).1 p q hne).2 ⟨.single hpq, .single hqp⟩

end OwlStructure.PropertyHierarchy
