import Mathlib.Order.Monotone.Basic
import OwlStructure.ModelObject
import OwlStructure.Proofs.Order.Lexicographic

/-!
The order of model objects. It is total, and two objects are equal in it just when they are the same
apart from how a named class, object property or datatype is wrapped. The type indices ascend with
the forms of each sort, so two objects of one sort compare as they do in their own order.
-/
namespace OwlStructure

open Keyed (key)

/-- An index that ascends with what is compared first changes nothing. -/
theorem compare_then_of_strictMono {f : Nat → Nat} (hf : StrictMono f) (m n : Nat)
    (o : Ordering) :
    (compare (f m) (f n)).then ((compare m n).then o) = (compare m n).then o := by
  rcases lt_trichotomy m n with h | rfl | h
  · rw [Nat.compare_eq_lt.2 h, Nat.compare_eq_lt.2 (hf h)]
    rfl
  · simp only [Std.ReflCmp.compare_self, Ordering.eq_then]
  · rw [Nat.compare_eq_gt.2 h, Nat.compare_eq_gt.2 (hf h)]
    rfl

/-- The index of a class expression, read off the position of its form. -/
def TypeIndex.ofForm (position : Nat) : Nat :=
  if position = 0 then EntityKind.namedClass.typeIndex else classBase + position

theorem TypeIndex.ofForm_strictMono : StrictMono ofForm := by
  intro m n h
  have hnamed : EntityKind.namedClass.typeIndex < classBase := by decide
  unfold ofForm
  split <;> split <;> omega

theorem ClassTerm.typeIndex_eq (c : ClassTerm) : c.typeIndex = TypeIndex.ofForm c.ordinal := by
  cases c <;> rfl

namespace ModelObject

/-- The objects that are plain entities, each with its entity. -/
inductive Plain : ModelObject → Entity → Prop
  | entity (e : Entity) : Plain (.entity e) e
  | property (p : ObjectProperty) : Plain (.property (.named p)) (.objectProperty p)
  | classExpression (c : Class) : Plain (.classExpression (.named c)) (.namedClass c)
  | range (d : Datatype) : Plain (.range (.datatype d)) (.datatype d)

variable {x y : ModelObject} {e : Entity}

theorem asEntity?_eq_some_iff : x.asEntity? = some e ↔ Plain x e := by
  constructor
  · intro h
    cases x with
    | entity a => cases h; exact .entity _
    | property p =>
      cases p with
      | named p => cases h; exact .property p
      | inverse p => cases h
    | classExpression c =>
      obtain ⟨t, ht⟩ := c
      cases t with
      | named c => cases h; exact .classExpression c
      | _ => cases h
    | range r =>
      cases r with
      | datatype d => cases h; exact .range d
      | oneOf values => cases h
    | statement a => cases h
  · rintro (_ | _ | _ | _) <;> rfl

theorem Plain.sortKey_eq (h : Plain x e) : x.sortKey = .tag e.typeIndex :: key e := by
  cases h <;> rfl

theorem sortKey_of_asEntity?_eq_none (h : x.asEntity? = none) :
    x.sortKey = .tag x.typeIndex :: x.ownKey := by
  rw [sortKey, h]

/-! ### Type indices -/

/-- Where the indices of the objects lie that are no plain entities: each sort has its own range. -/
theorem typeIndex_of_asEntity?_eq_none (h : x.asEntity? = none) :
    match x with
    | .entity _ => False
    | .property _ => x.typeIndex = 1008
    | .classExpression _ => 3000 < x.typeIndex ∧ x.typeIndex < 4000
    | .range _ => x.typeIndex = 4001
    | .statement _ => 2000 ≤ x.typeIndex ∧ x.typeIndex < 3000 := by
  cases x with
  | entity e => cases h
  | property p =>
    cases p with
    | named p => cases h
    | inverse p => rfl
  | classExpression c =>
    obtain ⟨t, ht⟩ := c
    cases t with
    | named c => cases h
    | _ => simp [typeIndex, ClassTerm.typeIndex, TypeIndex.classBase, ClassTerm.ordinal]
  | range r =>
    cases r with
    | datatype d => cases h
    | oneOf values => rfl
  | statement a =>
    have hordinal : ∀ t : AxiomType, t.ordinal < 1000 := fun t => by cases t <;> decide
    exact ⟨Nat.le_add_right _ _, Nat.add_lt_add_left (hordinal a.type) 2000⟩

theorem Plain.typeIndex_lt (h : Plain x e) : x.typeIndex < 1008 := by
  have hkind (k : EntityKind) : k.typeIndex < 1008 := by cases k <;> decide
  cases h <;> exact hkind _

/-- The index of an object shows whether it is a plain entity. -/
theorem asEntity?_eq_none_iff : x.asEntity? = none ↔ 1008 ≤ x.typeIndex := by
  constructor
  · intro h
    have hrange := typeIndex_of_asEntity?_eq_none h
    cases x <;> simp only at hrange <;> omega
  · intro h
    refine Option.eq_none_iff_forall_ne_some.2 fun e he => ?_
    have hplain := (asEntity?_eq_some_iff.1 he).typeIndex_lt
    omega

/-! ### Equality -/

theorem order_eq_iff_sortKey : order x y = .eq ↔ x.sortKey = y.sortKey := by
  rw [order]
  exact Std.LawfulEqCmp.compare_eq_iff_eq

/-- Objects of one index that are no plain entities are of one sort. -/
theorem eq_of_ownKey_eq (hx : x.asEntity? = none) (hy : y.asEntity? = none)
    (hindex : x.typeIndex = y.typeIndex) (hkey : x.ownKey = y.ownKey) : x = y := by
  have hrange := typeIndex_of_asEntity?_eq_none hx
  have hrange' := typeIndex_of_asEntity?_eq_none hy
  cases x <;> cases y <;> simp only at hrange hrange' <;> try omega
  all_goals exact congrArg _ (Keyed.key_injective hkey)

theorem order_eq_iff : order x y = .eq ↔ x = y ∨ ∃ e, Plain x e ∧ Plain y e := by
  rw [order_eq_iff_sortKey]
  constructor
  · intro h
    have hindex : x.typeIndex = y.typeIndex := by
      simpa only [sortKey, List.cons.injEq, KeySymbol.tag.injEq] using (List.cons.inj h).1
    cases hx : x.asEntity? with
    | none =>
      have hy : y.asEntity? = none := asEntity?_eq_none_iff.2 (hindex ▸ asEntity?_eq_none_iff.1 hx)
      rw [sortKey_of_asEntity?_eq_none hx, sortKey_of_asEntity?_eq_none hy] at h
      exact .inl (eq_of_ownKey_eq hx hy hindex (List.cons.inj h).2)
    | some e =>
      have hplain := asEntity?_eq_some_iff.1 hx
      cases hy : y.asEntity? with
      | none =>
        have hlarge := asEntity?_eq_none_iff.1 hy
        have hsmall := hplain.typeIndex_lt
        omega
      | some e' =>
        have hplain' := asEntity?_eq_some_iff.1 hy
        rw [hplain.sortKey_eq, hplain'.sortKey_eq] at h
        obtain rfl : e = e' := Keyed.key_injective (List.cons.inj h).2
        exact .inr ⟨e, hplain, hplain'⟩
  · rintro (rfl | ⟨e, hx, hy⟩)
    · rfl
    · rw [hx.sortKey_eq, hy.sortKey_eq]

/-! ### One sort -/

/-- Plain entities compare as entities, whatever wraps them. -/
theorem order_of_plain {e' : Entity} (hx : Plain x e) (hy : Plain y e') :
    order x y = compare e e' := by
  have hmono : StrictMono (1001 + ·) := fun m n h => Nat.add_lt_add_left h 1001
  have horder : order x y = (compare e.typeIndex e'.typeIndex).then (compare e e') := by
    rw [order, hx.sortKey_eq, hy.sortKey_eq]
    exact List.compare_cons_cons
  rw [horder, Entity.compare_eq]
  exact compare_then_of_strictMono hmono _ _ _

theorem order_entity (a b : Entity) : order (.entity a) (.entity b) = compare a b :=
  order_of_plain (.entity a) (.entity b)

theorem order_property (p q : ObjectPropertyExpression) :
    order (.property p) (.property q) = compare p q := by
  cases p with
  | named p =>
    cases q with
    | named q =>
      -- entities of one kind and expressions of one form both compare by the name that is left
      have hentity : compare (Entity.objectProperty p) (.objectProperty q) = compare p q :=
        Keyed.compare_cons_self _ _ _
      rw [order_of_plain (.property p) (.property q), hentity]
      exact (Keyed.compare_cons_self _ _ _).symm
    | inverse q => rfl
  | inverse p =>
    cases q with
    | named q => rfl
    | inverse q => exact Keyed.compare_cons_self _ _ _

theorem order_range (r s : DataRange) : order (.range r) (.range s) = compare r s := by
  cases r with
  | datatype d =>
    cases s with
    | datatype d' =>
      have hentity : compare (Entity.datatype d) (.datatype d') =
          compare [KeySymbol.text d.iri.text] [.text d'.iri.text] := Keyed.compare_cons_self _ _ _
      rw [order_of_plain (.range d) (.range d'), hentity]
      exact (Keyed.compare_cons_self _ _ _).symm
    | oneOf values => rfl
  | oneOf values =>
    cases s with
    | datatype d => rfl
    | oneOf values' => exact Keyed.compare_cons_self _ _ _

theorem sortKey_classExpression (c : ClassExpression) :
    (classExpression c).sortKey = .tag c.term.typeIndex :: key c := by
  obtain ⟨t, ht⟩ := c
  cases t <;> rfl

theorem order_classExpression (c d : ClassExpression) :
    order (.classExpression c) (.classExpression d) = compare c d := by
  have horder : order (.classExpression c) (.classExpression d) =
      (compare c.term.typeIndex d.term.typeIndex).then (compare c.term d.term) := by
    rw [order, sortKey_classExpression, sortKey_classExpression]
    exact List.compare_cons_cons
  rw [horder, ClassTerm.typeIndex_eq, ClassTerm.typeIndex_eq, ClassTerm.compare_eq,
    compare_then_of_strictMono TypeIndex.ofForm_strictMono, ← ClassTerm.compare_eq]
  rfl

theorem order_statement (a b : Axiom) : order (.statement a) (.statement b) = compare a b := by
  have hmono : StrictMono (2000 + ·) := fun m n h => Nat.add_lt_add_left h 2000
  have horder : order (.statement a) (.statement b) =
      (compare a.type.typeIndex b.type.typeIndex).then (compare a b) := List.compare_cons_cons
  obtain ⟨o, ho⟩ := a.exists_compare_eq b
  rw [horder, ho, AxiomType.compare_eq]
  exact compare_then_of_strictMono hmono _ _ _

/-! ### The order of all objects -/

instance : Std.TransCmp order where
  eq_swap {x y} := @Std.OrientedCmp.eq_swap (List KeySymbol) compare _ x.sortKey y.sortKey
  isLE_trans {x y z} :=
    @Std.TransCmp.isLE_trans (List KeySymbol) compare _ x.sortKey y.sortKey z.sortKey

theorem order_of_typeIndex_ne (h : x.typeIndex ≠ y.typeIndex) :
    order x y = compare x.typeIndex y.typeIndex := by
  have hne : compare x.typeIndex y.typeIndex ≠ .eq := fun e => h (Nat.compare_eq_eq.1 e)
  exact List.compare_cons_cons.trans (then_of_ne hne _)

/-- The order of all objects is total: antisymmetric, transitive, and any two objects compare. Type
indices come first. Objects are equal in it when they are the same value, or the same plain entity
in two wrappings. Within one sort it is the order of that sort; two subclass axioms compare by
superclass first, all other axioms as their kinds. -/
theorem order_lawful :
    (∀ x y, order y x = (order x y).swap) ∧
      (∀ x y z, (order x y).isLE → (order y z).isLE → (order x z).isLE) ∧
      (∀ x y, (order x y).isLE ∨ (order y x).isLE) ∧
      (∀ x y, x.typeIndex ≠ y.typeIndex → order x y = compare x.typeIndex y.typeIndex) ∧
      (∀ x y, order x y = .eq ↔ x = y ∨ ∃ e, Plain x e ∧ Plain y e) ∧
      (∀ a b, order (.entity a) (.entity b) = compare a b) ∧
      (∀ p q, order (.property p) (.property q) = compare p q) ∧
      (∀ c d, order (.classExpression c) (.classExpression d) = compare c d) ∧
      (∀ r s, order (.range r) (.range s) = compare r s) ∧
      (∀ a b, order (.statement a) (.statement b) = compare a b) ∧
      (∀ sub sup sub' sup',
        order (.statement (.subClassOf sub sup)) (.statement (.subClassOf sub' sup')) =
          (compare sup sup').then (compare sub sub')) ∧
      ∀ a b : Axiom, a.type ≠ .subClassOf ∨ b.type ≠ .subClassOf →
        order (.statement a) (.statement b) = compare a.kind b.kind := by
  have hswap (x y : ModelObject) : order y x = (order x y).swap := Std.OrientedCmp.eq_swap
  refine ⟨hswap, fun _ _ _ => Std.TransCmp.isLE_trans, fun x y => ?_,
    fun _ _ => order_of_typeIndex_ne, fun _ _ => order_eq_iff, order_entity, order_property,
    order_classExpression, order_range, order_statement, fun sub sup sub' sup' => ?_,
    fun a b h => ?_⟩
  · rw [hswap x y]
    cases order x y <;> decide
  · rw [order_statement, Axiom.compare_subClassOf]
  · rw [order_statement, Axiom.compare_kind h]

/-- A named class as an expression, a class, an axiom: the order goes through all of them. -/
theorem order_lawful_mixed :
    let a : Class := ⟨⟨"A"⟩⟩
    let b : Class := ⟨⟨"B"⟩⟩
    let x := classExpression (.named a)
    let y := entity (.namedClass b)
    let z := statement (.declaration (.namedClass a))
    (order x y).isLE ∧ order y z = .lt ∧ (order x z).isLE ∧
      order x (.entity (.namedClass a)) = .eq := by
  intro a b x y z
  obtain ⟨-, htrans, -, hindex, hequal, -⟩ := order_lawful
  have hxy : (order x y).isLE := by decide +kernel
  have hyz : order y z = .lt := (hindex y z (by decide)).trans (by decide)
  have hle : (order y z).isLE := by rw [hyz]; rfl
  exact ⟨hxy, hyz, htrans x y z hxy hle,
    (hequal _ _).2 (.inr ⟨.namedClass a, .classExpression a, .entity _⟩)⟩

end ModelObject

end OwlStructure
