import OwlStructure.Encoding.Axiom
import OwlStructure.Proofs.Encoding.ClassExpression
import OwlStructure.Proofs.Json.Nesting

/-!
Nesting of the model in JSON. Whatever is read is written with no more containers around each other
than were read through: sets lose repeated items, and the operands of class expressions are sorted
and lose repeated ones, but nothing moves to a deeper level.
-/
namespace OwlStructure

open Json

/-! ### Entities and expressions without classes -/

theorem Iri.fits : Fits Iri.decode? Iri.encode := .flat fun _ => rfl

theorem DataProperty.fits : Fits DataProperty.decode? DataProperty.encode := .flat fun _ => rfl

theorem AnonymousIndividual.fits :
    Fits AnonymousIndividual.decode? AnonymousIndividual.encode := .flat fun _ => rfl

theorem Entity.fits : Fits Entity.decode? Entity.encode := by
  intro limit j e h
  unfold decode? at h
  split at h
  · have hname : (Json.text e.name).depth = 0 := rfl
    exact (nestsWithin_flat hname).variant _
  · cases h

theorem Individual.fits : Fits Individual.decode? Individual.encode := by
  intro limit j i h
  unfold decode? at h
  split at h
  · next n payload =>
    obtain ⟨i, hi, rfl⟩ := Option.map_eq_some_iff.1 h
    exact (Iri.fits n payload i hi).variant _
  · next n payload =>
    obtain ⟨a, ha, rfl⟩ := Option.map_eq_some_iff.1 h
    exact (AnonymousIndividual.fits n payload a ha).variant _
  · cases h

theorem ObjectPropertyExpression.fits :
    Fits ObjectPropertyExpression.decode? ObjectPropertyExpression.encode := by
  intro limit j e h
  fun_induction decode? limit j generalizing e with
  | case1 n payload =>
    obtain ⟨i, hi, rfl⟩ := Option.map_eq_some_iff.1 h
    exact (Iri.fits n payload i hi).variant _
  | case2 n payload ih =>
    obtain ⟨e, he, rfl⟩ := Option.map_eq_some_iff.1 h
    exact (ih e he).variant _
  | case3 => cases h

theorem Literal.depth_encode (l : Literal) : l.encode.depth = 1 := by
  simp [encode, Iri.encode, depthItems, depth_encodeLang]

theorem Literal.fits : Fits Literal.decode? Literal.encode := by
  intro limit j l h
  unfold NestsWithin
  rw [depth_encode]
  cases limit with
  | zero => cases h
  | succ limit =>
    refine ⟨Nat.succ_pos limit, ?_⟩
    cases j with
    | obj | arr => exact Nat.succ_pos _
    | null | bool | int | real | str => cases h

/-! ### Sets -/

section Sets

variable {α : Type} [Keyed α] {read : Nat → Json → Option α} {encode : α → Json}

/-- A set is written with some of the items that it was made of. -/
theorem depth_encodeSet_ofList_le (encode : α → Json) (l : List α) :
    (encodeSet encode (.ofList l)).depth ≤ (Json.arr (l.map encode)).depth := by
  unfold encodeSet
  rw [depth_arr, depth_arr, Nat.add_le_add_iff_right, depthItems_le_iff]
  intro j hj
  obtain ⟨x, hx, rfl⟩ := List.mem_map.1 hj
  exact depthItems_le_iff.1 (Nat.le_refl _) _ (List.mem_map_of_mem (SortedSet.mem_ofList.1 hx))

theorem fits_set (h : Fits read encode) : Fits (decodeSet? read) (encodeSet encode) :=
  h.listOf.map (depth_encodeSet_ofList_le encode)

theorem nestsWithin_set (h : Fits read encode) {limit : Nat} {j : Json} {l : List α}
    (hread : listOf? read limit j = some l) : (encodeSet encode (.ofList l)).NestsWithin limit j :=
  fits_set h limit j _ (Option.map_eq_some_iff.2 ⟨l, hread, rfl⟩)

end Sets

theorem DataRange.fits : Fits DataRange.decode? DataRange.encode := by
  intro limit j r h
  unfold decode? at h
  split at h
  · next n payload =>
    obtain ⟨i, hi, rfl⟩ := Option.map_eq_some_iff.1 h
    exact (Iri.fits n payload i hi).variant _
  · next n payload =>
    obtain ⟨l, hl, rfl⟩ := Option.map_eq_some_iff.1 h
    exact (nestsWithin_set Literal.fits hl).variant _
  · cases h

/-! ### Class expressions -/

namespace ClassTerm

theorem depth_encode (t : ClassTerm) : t.encode.depth = t.payload.depth + 1 := depth_variant ..

/-- What stands under the name of a form is read with one level less, and the operands and the
fillers in it with two. -/
theorem nestsWithin_payload {positional : Bool} {n : Nat} {tag : String} {payload : Json}
    {t : ClassTerm}
    (ih : ∀ m ≤ n, ∀ j t, decode? positional m j = some t → t.encode.NestsWithin m j)
    (h : decode? positional (n + 1) (.obj [(some tag, payload)]) = some t) :
    t.payload.NestsWithin n payload := by
  have hproperty := ObjectPropertyExpression.fits
  have hdata := DataProperty.fits
  unfold decode? at h
  split at h
  case h_1 =>
    obtain ⟨i, hi, rfl⟩ := Option.map_eq_some_iff.1 h
    exact Iri.fits n payload i hi
  -- Intersections and unions.
  case h_2 | h_3 =>
    split at h
    · next m items =>
      obtain ⟨ops, hops, rfl⟩ := Option.map_eq_some_iff.1 h
      show (Json.arr (encodeOperands ops)).NestsWithin _ _
      rw [encodeOperands_eq]
      exact nestsWithin_items (ih m (Nat.le_succ m)) hops
    · cases h
  case h_4 =>
    obtain ⟨c, hc, rfl⟩ := Option.map_eq_some_iff.1 h
    exact ih n (Nat.le_refl n) payload c hc
  case h_5 =>
    obtain ⟨is, his, rfl⟩ := Option.map_eq_some_iff.1 h
    exact nestsWithin_set Individual.fits his
  -- Quantifiers over an object property.
  case h_6 | h_7 =>
    split at h
    · next m p c hfields =>
      obtain ⟨x, y, hx, hy, rfl⟩ := exists_of_pair h
      exact nestsWithin_pair _ _ hfields (hproperty m p x hx) (ih m (Nat.le_succ m) c y hy)
    · cases h
  case h_8 =>
    split at h
    · next m p i hfields =>
      obtain ⟨x, y, hx, hy, rfl⟩ := exists_of_pair h
      exact nestsWithin_pair _ _ hfields (hproperty m p x hx) (Individual.fits m i y hy)
    · cases h
  -- Cardinalities: the number is no container.
  case h_9 | h_10 | h_11 =>
    split at h
    · next m k p c hfields =>
      obtain ⟨_, x, y, -, hx, hy, rfl⟩ := exists_of_triple h
      exact nestsWithin_triple _ _ _ hfields (nestsWithin_flat rfl) (hproperty m p x hx)
        (ih m (Nat.le_succ m) c y hy)
    · cases h
  case h_12 =>
    obtain ⟨p, hp, rfl⟩ := Option.map_eq_some_iff.1 h
    exact hproperty n payload p hp
  -- Quantifiers over a data property.
  case h_13 | h_14 =>
    split at h
    · next m p r hfields =>
      obtain ⟨x, y, hx, hy, rfl⟩ := exists_of_pair h
      exact nestsWithin_pair _ _ hfields (hdata m p x hx) (DataRange.fits m r y hy)
    · cases h
  case h_15 =>
    split at h
    · next m p v hfields =>
      obtain ⟨x, y, hx, hy, rfl⟩ := exists_of_pair h
      exact nestsWithin_pair _ _ hfields (hdata m p x hx) (Literal.fits m v y hy)
    · cases h
  case h_16 => cases h

theorem exists_of_decode? {positional : Bool} {limit : Nat} {j : Json} {t : ClassTerm}
    (h : decode? positional limit j = some t) :
    ∃ n tag payload, limit = n + 1 ∧ j = .obj [(some tag, payload)] := by
  unfold decode? at h
  split at h
  · next n tag payload => exact ⟨n, tag, payload, rfl, rfl⟩
  · cases h

theorem fits (positional : Bool) : Fits (decode? positional) encode := by
  intro limit
  induction limit using Nat.strong_induction_on with
  | _ limit ih =>
    intro j t h
    obtain ⟨n, tag, payload, rfl, rfl⟩ := exists_of_decode? h
    exact (nestsWithin_payload (fun m hm => ih m (Nat.lt_succ_of_le hm)) h).variant _

mutual

/-- Sorting operands leaves them on their level. -/
theorem depth_payload_normal_le : (t : ClassTerm) → t.normal.payload.depth ≤ t.payload.depth
  | .intersection ops | .union ops => Nat.succ_le_succ (depthItems_normalOperands_le ops)
  | .complement c => by
    simp only [normal, payload, depth_variant]
    exact Nat.succ_le_succ (depth_payload_normal_le c)
  | .someValues _ c | .allValues _ c | .minCardinality _ _ c | .exactCardinality _ _ c
  | .maxCardinality _ _ c => by
    have hc := depth_payload_normal_le c
    simp only [normal, payload, depth_record, List.map_cons, List.map_nil, depthItems,
      depth_variant]
    omega
  | .named _ | .oneOf _ | .hasValue .. | .hasSelf _ | .dataSomeValues .. | .dataAllValues ..
  | .dataHasValue .. => Nat.le_refl _

theorem depthItems_normalOperands_le : (ops : List ClassTerm) →
    depthItems (encodeOperands (normalOperands ops)) ≤ depthItems (encodeOperands ops)
  | [] => Nat.le_refl _
  | c :: ops => by
    have hc := depth_payload_normal_le c
    have hops := depthItems_normalOperands_le ops
    rw [encodeOperands_eq, depthItems_le_iff] at hops ⊢
    rw [encodeOperands, depthItems, depth_variant]
    intro j hj
    obtain ⟨d, hd, rfl⟩ := List.mem_map.1 hj
    rcases SortedSet.mem_place.1 hd with rfl | hd
    · rw [depth_encode]
      omega
    · have hrest := hops _ (List.mem_map_of_mem hd)
      omega

end

end ClassTerm

theorem ClassExpression.fits (positional : Bool) :
    Fits (ClassExpression.decode? positional) ClassExpression.encode :=
  (ClassTerm.fits positional).map fun t => by
    show t.normal.encode.depth ≤ t.encode.depth
    rw [ClassTerm.depth_encode, ClassTerm.depth_encode]
    exact Nat.succ_le_succ t.depth_payload_normal_le

/-! ### Axioms -/

namespace AxiomKind

section Fields

variable {α β γ δ : Type} {first : Nat → Json → Option α} {second : Nat → Json → Option β}
  {third : Nat → Json → Option γ} {f : α → Json} {g : β → Json} {h : γ → Json} {p q r : String}
  {encode : δ → Json} (positional : Bool)

theorem fits_pair {make : α → β → δ} (hx : Fits first f) (hy : Fits second g)
    (hmake : ∀ x y, encode (make x y) = .record [(p, f x), (q, g y)]) :
    Fits (decodePair? positional [p, q] first second make) encode := by
  intro limit j z hread
  cases limit with
  | zero => cases hread
  | succ n =>
    simp only [decodePair?] at hread
    split at hread
    · next a b hfields =>
      obtain ⟨x, y, ha, hb, rfl⟩ := exists_of_pair hread
      rw [hmake]
      exact nestsWithin_pair p q hfields (hx n a x ha) (hy n b y hb)
    · cases hread

theorem fits_triple {make : α → β → γ → δ} (hx : Fits first f) (hy : Fits second g)
    (hz : Fits third h)
    (hmake : ∀ x y z, encode (make x y z) = .record [(p, f x), (q, g y), (r, h z)]) :
    Fits (decodeTriple? positional [p, q, r] first second third make) encode := by
  intro limit j w hread
  cases limit with
  | zero => cases hread
  | succ n =>
    simp only [decodeTriple?] at hread
    split at hread
    · next a b c hfields =>
      obtain ⟨x, y, z, ha, hb, hc, rfl⟩ := exists_of_triple hread
      rw [hmake]
      exact nestsWithin_triple p q r hfields (hx n a x ha) (hy n b y hb) (hz n c z hc)
    · cases hread

end Fields

variable (positional : Bool)

theorem fits_payload (type : AxiomType) : Fits (decodePayload? positional type) payload := by
  have hclass := ClassExpression.fits positional
  have hclasses := fits_set hclass
  have hproperty := ObjectPropertyExpression.fits
  have hproperties := fits_set hproperty
  have hdata := DataProperty.fits
  have hdatas := fits_set hdata
  have hindividual := Individual.fits
  have hindividuals := fits_set hindividual
  have hmap {α : Type} {read : Nat → Json → Option α} {f : α → Json} {make : α → AxiomKind}
      (hread : Fits read f) (hmake : ∀ x, (make x).payload = f x) :
      Fits (fun limit j => (read limit j).map make) payload :=
    hread.map fun x => Nat.le_of_eq (congrArg depth (hmake x))
  cases type with
  | declaration => exact hmap Entity.fits fun _ => rfl
  | equivalentClasses | disjointClasses => exact hmap hclasses fun _ => rfl
  | equivalentObjectProperties | disjointObjectProperties => exact hmap hproperties fun _ => rfl
  | equivalentDataProperties | disjointDataProperties => exact hmap hdatas fun _ => rfl
  | sameIndividual | differentIndividuals => exact hmap hindividuals fun _ => rfl
  | functionalObjectProperty | inverseFunctionalObjectProperty | reflexiveObjectProperty
  | irreflexiveObjectProperty | symmetricObjectProperty | asymmetricObjectProperty
  | transitiveObjectProperty => exact hmap hproperty fun _ => rfl
  | functionalDataProperty => exact hmap hdata fun _ => rfl
  | subClassOf => exact fits_pair _ hclass hclass fun _ _ => rfl
  | disjointUnion => exact fits_pair _ Iri.fits hclasses fun _ _ => rfl
  | subObjectPropertyOf | inverseObjectProperties =>
    exact fits_pair _ hproperty hproperty fun _ _ => rfl
  | subPropertyChainOf => exact fits_pair _ hproperty.listOf hproperty fun _ _ => rfl
  | objectPropertyDomain | objectPropertyRange =>
    exact fits_pair _ hproperty hclass fun _ _ => rfl
  | subDataPropertyOf => exact fits_pair _ hdata hdata fun _ _ => rfl
  | dataPropertyDomain => exact fits_pair _ hdata hclass fun _ _ => rfl
  | dataPropertyRange => exact fits_pair _ hdata DataRange.fits fun _ _ => rfl
  | classAssertion => exact fits_pair _ hclass hindividual fun _ _ => rfl
  | objectPropertyAssertion | negativeObjectPropertyAssertion =>
    exact fits_triple _ hproperty hindividual hindividual fun _ _ _ => rfl
  | dataPropertyAssertion =>
    exact fits_triple _ hdata hindividual Literal.fits fun _ _ _ => rfl
  | hasKey => exact fits_triple _ hclass hproperties hdatas fun _ _ _ => rfl
  | annotationAssertion =>
    exact fits_triple _ Iri.fits Iri.fits Literal.fits fun _ _ _ => rfl

theorem fits : Fits (decode? positional) encode := by
  intro limit j k h
  unfold decode? at h
  split at h
  · next n tag payload =>
    obtain ⟨type, -, hk⟩ := Option.bind_eq_some_iff.1 h
    exact (fits_payload positional type n payload k hk).variant _
  · cases h

end AxiomKind

namespace Axiom

variable {positional : Bool} {limit : Nat} {j : Json} {a : Axiom}

/-- An axiom is read where its kind is. -/
theorem decode?_eq_some_iff :
    decode? positional limit j = some a ↔ AxiomKind.decode? positional limit j = some a.kind := by
  constructor
  · intro h
    obtain ⟨k, hk, ha⟩ := Option.bind_eq_some_iff.1 h
    cases hkind : ofKind? k with
    | error e =>
      rw [hkind] at ha
      cases ha
    | ok b =>
      rw [hkind] at ha
      cases ha
      rw [hk, ofKind?_eq_ok_iff.1 hkind]
  · intro h
    rw [decode?, h, Option.bind_some, ofKind?_kind]
    rfl

theorem fits (positional : Bool) : Fits (decode? positional) encode := fun limit j a h =>
  AxiomKind.fits positional limit j a.kind (decode?_eq_some_iff.1 h)

end Axiom

end OwlStructure
