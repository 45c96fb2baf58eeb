import OwlStructure.Proofs.Expression.ClassTerm
import OwlStructure.Proofs.Signature.Renaming
import OwlStructure.Signature

/-!
The signature is the support. A renaming carries the places of an object along, and changes the
object only if it changes one of them; so one entity can be put in place of another without any
effect just where the signature and the anonymous individuals leave it out.
-/
namespace OwlStructure

/-- The places after a renaming are the renamed places, and nothing changes if they are fixed. -/
structure Follows (ρ : Renaming) (before after : List Entity) (unchanged : Prop) : Prop where
  mem_iff : ∀ y, y ∈ after ↔ ∃ z ∈ before, z.renamed ρ = y
  fixed : (∀ z ∈ before, z.renamed ρ = z) → unchanged

namespace Follows

variable {ρ : Renaming} {e e' : Entity} {l l' m m' : List Entity} {P Q : Prop}

theorem place (he : e.renamed ρ = e') (h : e' = e → P) : Follows ρ [e] [e'] P where
  mem_iff y := by
    simp only [List.mem_singleton, exists_eq_left, he]
    exact eq_comm
  fixed hfix := h (he.symm.trans (hfix e List.mem_cons_self))

theorem imp (h : Follows ρ l l' P) (hPQ : P → Q) : Follows ρ l l' Q :=
  ⟨h.mem_iff, fun hfix => hPQ (h.fixed hfix)⟩

theorem append (h : Follows ρ l l' P) (h' : Follows ρ m m' Q) :
    Follows ρ (l ++ m) (l' ++ m') (P ∧ Q) where
  mem_iff y := by
    simp only [List.mem_append, h.mem_iff, h'.mem_iff, or_and_right, exists_or]
  fixed hfix := by
    obtain ⟨hl, hm⟩ := List.forall_mem_append.1 hfix
    exact ⟨h.fixed hl, h'.fixed hm⟩

section Parts

variable {α β γ δ : Type} {a a' : α} {b b' : β} {c c' : γ} {n n' : List Entity}

/-- An object that is made of two parts follows when both do. -/
theorem pair {g : α → β → δ} (h : Follows ρ l l' (a' = a)) (h' : Follows ρ m m' (b' = b)) :
    Follows ρ (l ++ m) (l' ++ m') (g a' b' = g a b) :=
  (h.append h').imp fun hparts => congrArg₂ g hparts.1 hparts.2

theorem triple {g : α → β → γ → δ} (h : Follows ρ l l' (a' = a)) (h' : Follows ρ m m' (b' = b))
    (h'' : Follows ρ n n' (c' = c)) :
    Follows ρ (l ++ m ++ n) (l' ++ m' ++ n') (g a' b' c' = g a b c) :=
  ((h.append h').append h'').imp fun hparts => by rw [hparts.1.1, hparts.1.2, hparts.2]

end Parts

section Operands

variable {α : Type} {places : α → List Entity} {entity : α → Entity} {f : α → α}

/-- Operands that are images under one function, in any order and number. -/
theorem image {xs ys : List α} (hmem : ∀ b, b ∈ ys ↔ ∃ a ∈ xs, f a = b)
    (h : ∀ a, Follows ρ (places a) (places (f a)) (f a = a)) :
    Follows ρ (xs.flatMap places) (ys.flatMap places) (∀ a ∈ xs, f a = a) where
  mem_iff y := by
    simp only [List.mem_flatMap]
    constructor
    · rintro ⟨b, hb, hy⟩
      obtain ⟨a, ha, rfl⟩ := (hmem b).1 hb
      obtain ⟨z, hz, hzy⟩ := ((h a).mem_iff y).1 hy
      exact ⟨z, ⟨a, ha, hz⟩, hzy⟩
    · rintro ⟨z, ⟨a, ha, hz⟩, hzy⟩
      exact ⟨f a, (hmem _).2 ⟨a, ha, rfl⟩, ((h a).mem_iff y).2 ⟨z, hz, hzy⟩⟩
  fixed hfix a ha := (h a).fixed fun z hz => hfix z (List.mem_flatMap.2 ⟨a, ha, hz⟩)

theorem chain (xs : List α) (h : ∀ a, Follows ρ [entity a] [entity (f a)] (f a = a)) :
    Follows ρ (xs.map entity) ((xs.map f).map entity) (xs.map f = xs) := by
  rw [List.map_eq_flatMap, List.map_eq_flatMap (f := entity)]
  refine (image (fun b => List.mem_map) h).imp fun hfix => ?_
  exact (List.map_congr_left hfix).trans (List.map_id' xs)

variable [Keyed α]

theorem operands (s : SortedSet α) (h : ∀ a, Follows ρ (places a) (places (f a)) (f a = a)) :
    Follows ρ (s.toList.flatMap places) ((s.map f).toList.flatMap places) (s.map f = s) :=
  (image (fun _ => SortedSet.mem_map) h).imp SortedSet.map_eq_self

theorem members (s : SortedSet α) (h : ∀ a, Follows ρ [entity a] [entity (f a)] (f a = a)) :
    Follows ρ (s.toList.map entity) ((s.map f).toList.map entity) (s.map f = s) := by
  rw [List.map_eq_flatMap, List.map_eq_flatMap]
  exact operands s h

end Operands

end Follows

/-! ### Expressions -/

section Expressions

variable (ρ : Renaming)

theorem Class.renamed_follows (c : Class) :
    Follows ρ [.namedClass c] [.namedClass (c.renamed ρ)] (c.renamed ρ = c) :=
  .place rfl Entity.namedClass.inj

theorem DataProperty.renamed_follows (p : DataProperty) :
    Follows ρ [.dataProperty p] [.dataProperty (p.renamed ρ)] (p.renamed ρ = p) :=
  .place rfl Entity.dataProperty.inj

theorem AnnotationProperty.renamed_follows (p : AnnotationProperty) :
    Follows ρ [.annotationProperty p] [.annotationProperty (p.renamed ρ)] (p.renamed ρ = p) :=
  .place rfl Entity.annotationProperty.inj

theorem Datatype.renamed_follows (d : Datatype) :
    Follows ρ [.datatype d] [.datatype (d.renamed ρ)] (d.renamed ρ = d) :=
  .place rfl Entity.datatype.inj

theorem ObjectPropertyExpression.renamed_follows (p : ObjectPropertyExpression) :
    Follows ρ [p.entity] [(p.renamed ρ).entity] (p.renamed ρ = p) := by
  induction p with
  | named p => exact .place rfl fun h => congrArg _ (Entity.objectProperty.inj h)
  | inverse p ih => exact ih.imp (congrArg _)

theorem Individual.renamed_follows (i : Individual) :
    Follows ρ [i.entity] [(i.renamed ρ).entity] (i.renamed ρ = i) := by
  cases i <;> exact .place rfl entity_injective

theorem Literal.renamed_follows (l : Literal) :
    Follows ρ [l.entity] [(l.renamed ρ).entity] (l.renamed ρ = l) :=
  (l.datatype.renamed_follows ρ).imp fun h => congrArg (Literal.mk l.lexical · l.lang) h

theorem DataRange.renamed_follows (r : DataRange) :
    Follows ρ r.entities (r.renamed ρ).entities (r.renamed ρ = r) := by
  cases r with
  | datatype d => exact (d.renamed_follows ρ).imp (congrArg _)
  | oneOf values => exact (Follows.members values (Literal.renamed_follows ρ)).imp (congrArg _)

namespace ClassTerm

mutual

theorem renamed_follows : (c : ClassTerm) →
    Follows ρ c.entities (c.renamed ρ).entities (c.renamed ρ = c)
  | .named c => (c.renamed_follows ρ).imp (congrArg _)
  | .intersection ops | .union ops => (renamedOperands_follows ops).imp (congrArg _)
  | .complement c => (renamed_follows c).imp (congrArg _)
  | .oneOf is => (Follows.members is (Individual.renamed_follows ρ)).imp (congrArg _)
  | .someValues p c | .allValues p c | .minCardinality _ p c | .exactCardinality _ p c
  | .maxCardinality _ p c => (p.renamed_follows ρ).pair (renamed_follows c)
  | .hasValue p i => (p.renamed_follows ρ).pair (i.renamed_follows ρ)
  | .hasSelf p => (p.renamed_follows ρ).imp (congrArg _)
  | .dataSomeValues p r | .dataAllValues p r => (p.renamed_follows ρ).pair (r.renamed_follows ρ)
  | .dataHasValue p v => (p.renamed_follows ρ).pair (v.renamed_follows ρ)

theorem renamedOperands_follows : (l : List ClassTerm) →
    Follows ρ (operandEntities l) (operandEntities (renamedOperands ρ l)) (renamedOperands ρ l = l)
  | [] => ⟨fun _ => by simp [operandEntities, renamedOperands], fun _ => rfl⟩
  | c :: l => (renamed_follows c).pair (renamedOperands_follows l)

end

end ClassTerm

theorem ClassExpression.renamed_follows (c : ClassExpression) :
    Follows ρ c.entities (c.renamed ρ).entities (c.renamed ρ = c) where
  mem_iff y := (ClassTerm.mem_entities_normal _).trans ((c.term.renamed_follows ρ).mem_iff y)
  fixed hfix := by rw [renamed, (c.term.renamed_follows ρ).fixed hfix, ofTerm_term]

end Expressions

/-! ### Axioms -/

theorem Entity.renamed_follows (ρ : Renaming) (e : Entity) :
    Follows ρ [e] [e.renamed ρ] (e.renamed ρ = e) := .place rfl id

theorem AxiomKind.renamed_follows (ρ : Renaming) (k : AxiomKind) :
    Follows ρ k.entities (k.renamed ρ).entities (k.renamed ρ = k) := by
  have hc (c : ClassExpression) := c.renamed_follows ρ
  have hp (p : ObjectPropertyExpression) := p.renamed_follows ρ
  have hd (p : DataProperty) := p.renamed_follows ρ
  have hi (i : Individual) := i.renamed_follows ρ
  have hv (v : Literal) := v.renamed_follows ρ
  cases k with
  | declaration e => exact (e.renamed_follows ρ).imp (congrArg _)
  | subClassOf c d => exact (hc c).pair (hc d)
  | equivalentClasses ops | disjointClasses ops => exact (Follows.operands ops hc).imp (congrArg _)
  | disjointUnion c ops => exact (c.renamed_follows ρ).pair (Follows.operands ops hc)
  | subPropertyChainOf chain p => exact (Follows.chain chain hp).pair (hp p)
  | equivalentObjectProperties ops | disjointObjectProperties ops =>
    exact (Follows.members ops hp).imp (congrArg _)
  | subObjectPropertyOf p q | inverseObjectProperties p q => exact (hp p).pair (hp q)
  | objectPropertyDomain p c | objectPropertyRange p c => exact (hp p).pair (hc c)
  | functionalObjectProperty p | inverseFunctionalObjectProperty p | reflexiveObjectProperty p
  | irreflexiveObjectProperty p | symmetricObjectProperty p | asymmetricObjectProperty p
  | transitiveObjectProperty p => exact (hp p).imp (congrArg _)
  | subDataPropertyOf p q => exact (hd p).pair (hd q)
  | equivalentDataProperties ops | disjointDataProperties ops =>
    exact (Follows.members ops hd).imp (congrArg _)
  | dataPropertyDomain p c => exact (hd p).pair (hc c)
  | dataPropertyRange p r => exact (hd p).pair (r.renamed_follows ρ)
  | functionalDataProperty p => exact (hd p).imp (congrArg _)
  | classAssertion c i => exact (hc c).pair (hi i)
  | objectPropertyAssertion p i j | negativeObjectPropertyAssertion p i j =>
    exact (hp p).triple (hi i) (hi j)
  | dataPropertyAssertion p i v => exact (hd p).triple (hi i) (hv v)
  | sameIndividual ops | differentIndividuals ops =>
    exact (Follows.members ops hi).imp (congrArg _)
  | hasKey c ps ds => exact (hc c).triple (Follows.members ps hp) (Follows.members ds hd)
  | annotationAssertion p subject v =>
    -- the subject is no place: it stays as it is
    exact Follows.pair (g := fun p v => annotationAssertion p subject v) (p.renamed_follows ρ)
      (hv v)

theorem Axiom.renamed_follows (ρ : Renaming) (x : Axiom) :
    Follows ρ (entities x) (entities (x.renamed ρ)) (x.renamed ρ = x) :=
  (x.kind.renamed_follows ρ).imp fun h => ext h

/-! ### Signatures -/

theorem mem_entities_iff [HasEntities α] {a : α} {e : Entity} :
    e ∈ OwlStructure.entities a ↔
      e ∈ signature a ∨ e ∈ (anonymousIndividuals a).map .anonymousIndividual := by
  rw [mem_signature, SortedSet.mem_map]
  simp only [mem_anonymousIndividuals]
  cases e <;> simp [Entity.isAnonymous]

@[simp] theorem Entity.isAnonymous_renamed (ρ : Renaming) (e : Entity) :
    (e.renamed ρ).isAnonymous = e.isAnonymous := by cases e <;> rfl

namespace Follows

variable {α : Type} [HasEntities α] {ρ : Renaming} {a b : α} {P : Prop}

theorem signature_eq (h : Follows ρ (entities a) (entities b) P) :
    signature b = (signature a).map (Entity.renamed ρ) := by
  refine SortedSet.ext fun y => ?_
  simp only [mem_signature, SortedSet.mem_map, h.mem_iff]
  constructor
  · rintro ⟨⟨z, hz, rfl⟩, hy⟩
    exact ⟨z, ⟨hz, (z.isAnonymous_renamed ρ).symm.trans hy⟩, rfl⟩
  · rintro ⟨z, ⟨hz, hnamed⟩, rfl⟩
    exact ⟨⟨z, hz, rfl⟩, (z.isAnonymous_renamed ρ).trans hnamed⟩

theorem anonymousIndividuals_eq (h : Follows ρ (entities a) (entities b) P) :
    (anonymousIndividuals b).map Entity.anonymousIndividual =
      ((anonymousIndividuals a).map .anonymousIndividual).map (Entity.renamed ρ) := by
  refine SortedSet.ext fun y => ?_
  simp only [SortedSet.mem_map, mem_anonymousIndividuals, h.mem_iff]
  constructor
  · rintro ⟨i, ⟨z, hz, hzi⟩, rfl⟩
    -- what becomes an anonymous individual is one
    cases z with
    | anonymousIndividual j => exact ⟨_, ⟨j, hz, rfl⟩, hzi⟩
    | _ => cases hzi
  · rintro ⟨_, ⟨j, hj, rfl⟩, rfl⟩
    exact ⟨_, ⟨_, hj, rfl⟩, rfl⟩

end Follows

/-- The entity that stands where `z` stood after `e` has given way to `e'`. -/
def Entity.replace (e e' z : Entity) : Entity := if z = e then e' else z

theorem Entity.renamed_replacing {e e' : Entity} (hkind : e.kind = e'.kind) (z : Entity) :
    z.renamed (.replacing e e') = replace e e' z := by
  unfold renamed Renaming.replacing replace
  by_cases hz : z = e
  · subst hz
    rw [if_pos ⟨rfl, rfl⟩, if_pos rfl, hkind, ofKind_kind_name]
  · have hdiff : ¬ (z.kind = e.kind ∧ z.name = e.name) := fun ⟨hk, hn⟩ =>
      hz (by rw [← z.ofKind_kind_name, ← e.ofKind_kind_name, hk, hn])
    rw [if_neg hdiff, if_neg hz, ofKind_kind_name]

namespace Axiom

variable {e e' : Entity}

/-- An axiom is left as it is just when the entity that gives way stands at none of its places. -/
theorem renamed_replacing_eq_iff (hkind : e.kind = e'.kind) (hne : e ≠ e') (x : Axiom) :
    x.renamed (.replacing e e') = x ↔ e ∉ x.entities := by
  have hfollows := x.renamed_follows (.replacing e e')
  constructor
  · intro hsame he
    obtain ⟨z, -, hz⟩ := (hfollows.mem_iff e).1 (by rwa [hsame])
    rw [Entity.renamed_replacing hkind, Entity.replace] at hz
    split at hz
    · exact hne hz.symm
    · next h => exact h hz
  · intro he
    refine hfollows.fixed fun z hz => ?_
    rw [Entity.renamed_replacing hkind, Entity.replace, if_neg (ne_of_mem_of_not_mem hz he)]

/-- The signature and the anonymous individuals of an axiom are its support: the entities that
cannot give way to another of their kind without changing the axiom. Where one does give way, it
does so in both sets. -/
theorem signature_eq_support (hkind : e.kind = e'.kind) (hne : e ≠ e') (x : Axiom) :
    (x.renamed (.replacing e e') = x ↔
        e ∉ signature x ∧ e ∉ (anonymousIndividuals x).map .anonymousIndividual) ∧
      signature (x.renamed (.replacing e e')) = (signature x).map (Entity.replace e e') ∧
      (anonymousIndividuals (x.renamed (.replacing e e'))).map Entity.anonymousIndividual =
        ((anonymousIndividuals x).map .anonymousIndividual).map (Entity.replace e e') ∧
      ∀ i, Entity.anonymousIndividual i ∉ signature x := by
  have hfollows := x.renamed_follows (.replacing e e')
  have hreplace : Entity.renamed (.replacing e e') = Entity.replace e e' :=
    funext (Entity.renamed_replacing hkind)
  refine ⟨?_, hreplace ▸ hfollows.signature_eq, hreplace ▸ hfollows.anonymousIndividuals_eq,
    fun i hi => ?_⟩
  · rw [renamed_replacing_eq_iff hkind hne, ← not_or]
    exact not_congr (mem_entities_iff (a := x))
  · exact Bool.noConfusion (mem_signature.1 hi).2

/-- Here two operands fall together, under a name that also stands in a restriction. -/
theorem signature_eq_support_merging :
    let a : Class := ⟨⟨"A"⟩⟩
    let b : Class := ⟨⟨"B"⟩⟩
    let p : ObjectProperty := ⟨⟨"p"⟩⟩
    let x := subClassOf (.intersection [.named a, .named b])
      (.someValues (.inverse (.named p)) (.complement (.named a)))
    let y := subClassOf (.intersection [.named b])
      (.someValues (.inverse (.named p)) (.complement (.named b)))
    x.renamed (.replacing (.namedClass a) (.namedClass b)) = y ∧ y ≠ x ∧
      (signature y).toList = [.namedClass b, .objectProperty p] := by
  intro a b p x y
  have hkind : (Entity.namedClass a).kind = (Entity.namedClass b).kind := rfl
  have hne : Entity.namedClass a ≠ .namedClass b := by decide
  have hy : x.renamed (.replacing (.namedClass a) (.namedClass b)) = y := by decide +kernel
  obtain ⟨hfixed, hsignature, -⟩ := signature_eq_support hkind hne x
  rw [hy] at hfixed hsignature
  refine ⟨hy, fun h => ?_, ?_⟩
  · exact (hfixed.1 h).1 (by decide +kernel)
  · rw [hsignature]
    decide +kernel

end Axiom

end OwlStructure
