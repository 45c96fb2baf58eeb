import OwlStructure.Encoding.Axiom
import OwlStructure.Proofs.Encoding.ClassExpression

/-! Axioms of every kind are restored from their JSON. -/
namespace OwlStructure

open Json

theorem restores_set {α : Type} [Keyed α] {read : Nat → Json → Option α} {f : α → Json}
    (h : ∀ x, Restores read (f x) x) (s : SortedSet α) :
    Restores (decodeSet? read) (encodeSet f s) s := by
  have hlist := (Restores.listOf fun x (_ : x ∈ s.toList) => h x).map SortedSet.ofList
  rw [SortedSet.ofList_toList] at hlist
  exact hlist

namespace AxiomKind

section Fields

variable {α β γ δ : Type} {first : Nat → Json → Option α} {second : Nat → Json → Option β}
  {third : Nat → Json → Option γ} {j k l : Json} {x : α} {y : β} {z : γ} {p q r : String}
  (positional : Bool)

theorem restores_pair {make : α → β → δ} (hnames : [p, q].Nodup) (hx : Restores first j x)
    (hy : Restores second k y) :
    Restores (decodePair? positional [p, q] first second make) (.record [(p, j), (q, k)])
      (make x y) := by
  refine .pair hx hy make rfl fun limit => ?_
  have hfields := payload?_record [(p, j), (q, k)] hnames positional
  simp only [List.map_cons, List.map_nil] at hfields
  simp only [decodePair?, hfields]

theorem restores_triple {make : α → β → γ → δ} (hnames : [p, q, r].Nodup)
    (hx : Restores first j x) (hy : Restores second k y) (hz : Restores third l z) :
    Restores (decodeTriple? positional [p, q, r] first second third make)
      (.record [(p, j), (q, k), (r, l)]) (make x y z) := by
  refine .triple hx hy hz make rfl fun limit => ?_
  have hfields := payload?_record [(p, j), (q, k), (r, l)] hnames positional
  simp only [List.map_cons, List.map_nil] at hfields
  simp only [decodeTriple?, hfields]

end Fields

variable (positional : Bool)

theorem restores_payload (k : AxiomKind) :
    Restores (decodePayload? positional k.type) k.payload k := by
  have hclass := ClassExpression.restores positional
  have hclasses := restores_set hclass
  have hproperty := ObjectPropertyExpression.restores
  have hproperties := restores_set hproperty
  have hdata := DataProperty.restores
  have hdatas := restores_set hdata
  have hindividual := Individual.restores
  have hindividuals := restores_set hindividual
  cases k with
  | declaration e => exact e.restores.map declaration
  | subClassOf sub sup => exact restores_pair _ (by decide) (hclass sub) (hclass sup)
  | equivalentClasses ops => exact (hclasses ops).map equivalentClasses
  | disjointClasses ops => exact (hclasses ops).map disjointClasses
  | disjointUnion c ops => exact restores_pair _ (by decide) c.iri.restores (hclasses ops)
  | subObjectPropertyOf sub sup => exact restores_pair _ (by decide) (hproperty sub) (hproperty sup)
  | subPropertyChainOf chain sup =>
    exact restores_pair _ (by decide) (.listOf fun p _ => hproperty p) (hproperty sup)
  | equivalentObjectProperties ops => exact (hproperties ops).map equivalentObjectProperties
  | disjointObjectProperties ops => exact (hproperties ops).map disjointObjectProperties
  | inverseObjectProperties p q => exact restores_pair _ (by decide) (hproperty p) (hproperty q)
  | objectPropertyDomain p c => exact restores_pair _ (by decide) (hproperty p) (hclass c)
  | objectPropertyRange p c => exact restores_pair _ (by decide) (hproperty p) (hclass c)
  | functionalObjectProperty p => exact (hproperty p).map functionalObjectProperty
  | inverseFunctionalObjectProperty p => exact (hproperty p).map inverseFunctionalObjectProperty
  | reflexiveObjectProperty p => exact (hproperty p).map reflexiveObjectProperty
  | irreflexiveObjectProperty p => exact (hproperty p).map irreflexiveObjectProperty
  | symmetricObjectProperty p => exact (hproperty p).map symmetricObjectProperty
  | asymmetricObjectProperty p => exact (hproperty p).map asymmetricObjectProperty
  | transitiveObjectProperty p => exact (hproperty p).map transitiveObjectProperty
  | subDataPropertyOf sub sup => exact restores_pair _ (by decide) (hdata sub) (hdata sup)
  | equivalentDataProperties ops => exact (hdatas ops).map equivalentDataProperties
  | disjointDataProperties ops => exact (hdatas ops).map disjointDataProperties
  | dataPropertyDomain p c => exact restores_pair _ (by decide) (hdata p) (hclass c)
  | dataPropertyRange p r => exact restores_pair _ (by decide) (hdata p) r.restores
  | functionalDataProperty p => exact (hdata p).map functionalDataProperty
  | classAssertion c i => exact restores_pair _ (by decide) (hclass c) (hindividual i)
  | objectPropertyAssertion p s o =>
    exact restores_triple _ (by decide) (hproperty p) (hindividual s) (hindividual o)
  | negativeObjectPropertyAssertion p s o =>
    exact restores_triple _ (by decide) (hproperty p) (hindividual s) (hindividual o)
  | dataPropertyAssertion p s v =>
    exact restores_triple _ (by decide) (hdata p) (hindividual s) v.restores
  | sameIndividual ops => exact (hindividuals ops).map sameIndividual
  | differentIndividuals ops => exact (hindividuals ops).map differentIndividuals
  | hasKey c ps ds => exact restores_triple _ (by decide) (hclass c) (hproperties ps) (hdatas ds)
  | annotationAssertion p s v =>
    exact restores_triple _ (by decide) p.iri.restores s.restores v.restores

theorem restores (k : AxiomKind) : Restores (decode? positional) k.encode k := by
  refine (k.restores_payload positional).variant rfl fun limit => ?_
  simp only [Json.variant, record, List.map_cons, List.map_nil, decode?]
  rw [AxiomType.ofName?_name, Option.bind_some]

end AxiomKind

/-- The operands of an axiom are there, so its kind is accepted again. -/
theorem Axiom.restores (positional : Bool) (a : Axiom) :
    Restores (Axiom.decode? positional) a.encode a := by
  intro limit
  rw [Axiom.decode?, encode, a.kind.restores positional limit]
  split
  · rw [Option.bind_some, ofKind?_kind]
    rfl
  · rfl

end OwlStructure
