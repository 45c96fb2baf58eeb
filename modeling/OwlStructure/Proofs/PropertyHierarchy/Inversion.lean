import OwlStructure.Proofs.Expression.Property
import OwlStructure.Proofs.PropertyHierarchy.Closure

/-!
Inversion in the property hierarchy. With every declared step goes the step between the inverses, so
inversion maps the steps, the paths along them and the entries of the closure to each other. For any
relation with this symmetry, its closure has it too.
-/
namespace OwlStructure.PropertyHierarchy

open Relation ObjectPropertyExpression

variable {axioms : List Axiom} {k : AxiomKind} {m : PropertyMap}
  {p q : ObjectPropertyExpression}

/-! ### Steps -/

theorem Declares.inverse (h : Declares k p q) :
    ∃ p' q', Declares k p' q' ∧ p'.simplified = p.inverseSimplified ∧
      q'.simplified = q.inverseSimplified := by
  have hi (x : ObjectPropertyExpression) :
      x.simplified = (ObjectPropertyExpression.inverse x).inverseSimplified :=
    (inverseSimplified_inverse x).symm
  cases h with
  | sub => exact ⟨_, _, .subInverse _ _, rfl, rfl⟩
  | subInverse => exact ⟨_, _, .sub _ _, hi _, hi _⟩
  | equivalent hp hq hne => exact ⟨_, _, .equivalentInverse hp hq hne, rfl, rfl⟩
  | equivalentInverse hp hq hne => exact ⟨_, _, .equivalent hp hq hne, hi _, hi _⟩
  | first => exact ⟨_, _, .firstInverse _ _, rfl, hi _⟩
  | firstInverse => exact ⟨_, _, .first _ _, hi _, rfl⟩
  | second => exact ⟨_, _, .secondInverse _ _, rfl, hi _⟩
  | secondInverse => exact ⟨_, _, .second _ _, hi _, rfl⟩
  | symmetric => exact ⟨_, _, .symmetricInverse _, rfl, hi _⟩
  | symmetricInverse => exact ⟨_, _, .symmetric _, hi _, rfl⟩

theorem Step.inverse (h : Step axioms p q) :
    Step axioms p.inverseSimplified q.inverseSimplified := by
  obtain ⟨a, ha, sub, sup, hd, rfl, rfl⟩ := h
  obtain ⟨sub', sup', hd', hsub, hsup⟩ := hd.inverse
  refine ⟨a, ha, sub', sup', hd', ?_, ?_⟩
  · rw [inverseSimplified_simplified, hsub]
  · rw [inverseSimplified_simplified, hsup]

theorem Step.simplified (h : Step axioms p q) : p.simplified = p ∧ q.simplified = q := by
  obtain ⟨a, -, sub, sup, -, rfl, rfl⟩ := h
  exact ⟨simplified_simplified sub, simplified_simplified sup⟩

/-- What leads to a property leads, inverted, to its inverse. -/
theorem inverse_steps (h : ReflTransGen (Step axioms) p q) :
    ReflTransGen (Step axioms) p.inverseSimplified q.inverseSimplified :=
  h.lift inverseSimplified fun _ _ => Step.inverse

/-! ### Maps -/

/-- A map between simplified expressions that inversion maps to itself. -/
structure Mirrored (m : PropertyMap) : Prop where
  simplified_key : ∀ p ∈ m.keys, p.simplified = p
  simplified_member : ∀ p q, m.Leads p q → q.simplified = q
  mem_keys_iff : ∀ p : ObjectPropertyExpression,
    p.simplified ∈ m.keys ↔ p.inverseSimplified ∈ m.keys
  leads_iff : ∀ p q : ObjectPropertyExpression,
    m.Leads p.simplified q.simplified ↔ m.Leads p.inverseSimplified q.inverseSimplified

namespace Mirrored

theorem leads_inverse (h : Mirrored m) (hl : m.Leads p q) :
    m.Leads p.inverseSimplified q.inverseSimplified := by
  obtain ⟨s, hs, -⟩ := SortedMap.leads_iff.1 hl
  have hp := h.simplified_key p (SortedMap.mem_keys_iff.2 ⟨s, hs⟩)
  have hq := h.simplified_member p q hl
  exact (h.leads_iff p q).1 (by rwa [hp, hq])

theorem mem_keys_inverse (h : Mirrored m) (hp : p ∈ m.keys) : p.inverseSimplified ∈ m.keys :=
  (h.mem_keys_iff p).1 (by rwa [h.simplified_key p hp])

/-- As inversion undoes itself, it is enough that it keeps keys and members. -/
theorem of_inverse (hkey : ∀ p ∈ m.keys, p.simplified = p ∧ p.inverseSimplified ∈ m.keys)
    (hleads : ∀ p q, m.Leads p q →
      q.simplified = q ∧ m.Leads p.inverseSimplified q.inverseSimplified) : Mirrored m where
  simplified_key p hp := (hkey p hp).1
  simplified_member p q hl := (hleads p q hl).1
  mem_keys_iff p := by
    refine ⟨fun hp => ?_, fun hp => ?_⟩
    · simpa using (hkey _ hp).2
    · simpa using (hkey _ hp).2
  leads_iff p q := by
    refine ⟨fun hl => ?_, fun hl => ?_⟩
    · simpa using (hleads _ _ hl).2
    · simpa using (hleads _ _ hl).2

/-- Where no entry is empty, the keys are the expressions that lead somewhere. -/
theorem of_leads (hne : m.NoneEmpty)
    (h : ∀ p q, m.Leads p q → p.simplified = p ∧ q.simplified = q ∧
      m.Leads p.inverseSimplified q.inverseSimplified) : Mirrored m := by
  refine of_inverse (fun p hp => ?_) fun p q hl => (h p q hl).2
  obtain ⟨q, hl⟩ := hne.mem_keys_iff.1 hp
  obtain ⟨hsimp, -, hinv⟩ := h p q hl
  exact ⟨hsimp, hne.mem_keys_iff.2 ⟨_, hinv⟩⟩

end Mirrored

theorem mirrored_direct (axioms : List Axiom) : Mirrored (direct axioms) := by
  refine .of_leads (noneEmpty_direct axioms) fun p q hl => ?_
  have hstep := leads_direct.1 hl
  exact ⟨hstep.simplified.1, hstep.simplified.2, leads_direct.2 hstep.inverse⟩

/-! ### Closures -/

theorem Mirrored.mem_domain_inverse (h : Mirrored m) (hp : p ∈ domain axioms m) :
    p.simplified = p ∧ p.inverseSimplified ∈ domain axioms m := by
  rcases mem_domain.1 hp with ⟨q, hq, rfl | rfl⟩ | hp | ⟨x, hl⟩
  · exact ⟨rfl, mem_domain.2 (.inl ⟨q, hq, .inr rfl⟩)⟩
  · exact ⟨rfl, mem_domain.2 (.inl ⟨q, hq, .inl (inverseSimplified_inverse (.named q))⟩)⟩
  · exact ⟨h.simplified_key p hp, mem_domain.2 (.inr (.inl (h.mem_keys_inverse hp)))⟩
  · exact ⟨h.simplified_member x p hl, mem_domain.2 (.inr (.inr ⟨_, h.leads_inverse hl⟩))⟩

theorem leads_closure :
    (closure axioms m).Leads p q ↔ p ∈ domain axioms m ∧ ReflTransGen m.Leads p q := by
  rw [SortedMap.leads_iff]
  simp only [find?_closure, Option.ite_none_right_eq_some, Option.some.injEq]
  constructor
  · rintro ⟨_, ⟨hp, rfl⟩, hq⟩
    exact ⟨hp, SortedMap.mem_reachable_iff.1 hq⟩
  · rintro ⟨hp, hq⟩
    exact ⟨_, ⟨hp, rfl⟩, SortedMap.mem_reachable_iff.2 hq⟩

/-- Inversion maps paths to paths, so it keeps what can be reached. -/
theorem Mirrored.closure (h : Mirrored m) (axioms : List Axiom) : Mirrored (closure axioms m) := by
  refine .of_inverse (fun p hp => ?_) fun p q hl => ?_
  · rw [keys_closure] at hp ⊢
    exact h.mem_domain_inverse hp
  · obtain ⟨hp, hpath⟩ := leads_closure.1 hl
    have hq : q.simplified = q := by
      rcases hpath.cases_tail with rfl | ⟨x, -, hstep⟩
      · exact (h.mem_domain_inverse hp).1
      · exact h.simplified_member x q hstep
    refine ⟨hq, leads_closure.2 ⟨(h.mem_domain_inverse hp).2, ?_⟩⟩
    exact hpath.lift inverseSimplified fun _ _ => h.leads_inverse

/-- The entries of the closure of the direct relation: the properties that are mentioned, their
inverses, and the ends of the steps. -/
theorem mem_domain_direct :
    p ∈ domain axioms (direct axioms) ↔
      (∃ q ∈ mentioned axioms, p = .named q ∨ p = .inverse (.named q)) ∨
        ∃ q, Step axioms p q ∨ Step axioms q p := by
  rw [mem_domain, (noneEmpty_direct axioms).mem_keys_iff, exists_or]
  simp only [leads_direct]

theorem inverseSimplified_mem_domain (h : p ∈ domain axioms (direct axioms)) :
    p.inverseSimplified ∈ domain axioms (direct axioms) :=
  ((mirrored_direct axioms).mem_domain_inverse h).2

end OwlStructure.PropertyHierarchy
