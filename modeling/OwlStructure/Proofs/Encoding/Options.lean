import OwlStructure.Encoding.Options
import OwlStructure.Explanation.Orderer
import OwlStructure.Proofs.Encoding.Rereading

/-!
Options for building explanations are restored from their text, unless their namespace is blank; and
a builder takes just the options that some text is read as.
-/
namespace OwlStructure

open Json

theorem isBlank_eq_false_iff {s : String} :
    isBlank s = false ↔ ∃ x ∈ s.toList, isBlankChar x = false := by
  simp [isBlank]

namespace ExplanationConfig

variable {c : ExplanationConfig}

/-- A namespace is good if it has a character that is no white space. -/
def HasNamespace (c : ExplanationConfig) : Prop :=
  ∃ x ∈ c.stagingNamespace.toList, isBlankChar x = false

instance : Decidable c.HasNamespace := inferInstanceAs (Decidable (∃ x ∈ _, _))

theorem check?_eq (c : ExplanationConfig) :
    c.check? = if c.HasNamespace then .ok c else .error .blankNamespace := by
  unfold check? HasNamespace
  simp only [← isBlank_eq_false_iff]
  cases isBlank c.stagingNamespace <;> rfl

theorem restores (c : ExplanationConfig) : Restores decode? c.encode c := by
  have htypes : Restores (listOf? AxiomType.decode?) (.arr (c.passThrough.map AxiomType.encode))
      c.passThrough := .listOf fun t _ => t.restores
  have hnamespace : Restores (fun _ => text?) (.text c.stagingNamespace) c.stagingNamespace :=
    .flat rfl fun _ => rfl
  refine htypes.pair hnamespace mk rfl fun limit => ?_
  have hfields := fields?_record [("pass_through", .arr (c.passThrough.map AxiomType.encode)),
    ("staging_namespace", .text c.stagingNamespace)] (by simp) true
  simp only [List.map_cons, List.map_nil] at hfields
  simp only [decode?, hfields, optionField?]

/-- The names of types stand in an array, and the array in a record. -/
theorem depth_encode (c : ExplanationConfig) : c.encode.depth = 2 := by
  have hnames : depthItems (c.passThrough.map AxiomType.encode) = 0 := by
    refine Nat.le_zero.1 ((depthItems_le_iff).2 fun j hj => ?_)
    obtain ⟨t, -, rfl⟩ := List.mem_map.1 hj
    exact Nat.le_refl 0
  simp [encode, depthItems, hnames]

theorem ofJson?_toJson_eq_check? (c : ExplanationConfig) : ofJson? c.toJson = c.check? := by
  have hread : ofText? decode? c.toJson = some c := by
    rw [toJson, c.restores.ofText?_indented, depth_encode]
    rfl
  rw [ofJson?, hread]

/-- What is read from a text has been checked. -/
theorem check?_of_ofJson? {text : String} (h : ofJson? text = .ok c) : c.check? = .ok c := by
  unfold ofJson? at h
  split at h
  · next d _ =>
    rw [check?_eq] at h ⊢
    split at h
    · next hd =>
      cases h
      rw [if_pos hd]
    · cases h
  · cases h

theorem exists_ofJson?_iff : (∃ text, ofJson? text = .ok c) ↔ c.HasNamespace := by
  constructor
  · rintro ⟨text, htext⟩
    by_contra hblank
    have hcheck := check?_of_ofJson? htext
    rw [check?_eq, if_neg hblank] at hcheck
    cases hcheck
  · intro hgood
    exact ⟨c.toJson, by rw [ofJson?_toJson_eq_check?, check?_eq, if_pos hgood]⟩

theorem ofConfig?_eq (c : ExplanationConfig) :
    ExplanationOrderer.ofConfig? c =
      if c.HasNamespace then .ok (.new c) else .error .blankNamespace := by
  rw [ExplanationOrderer.ofConfig?, check?_eq]
  split <;> rfl

/-- Options with types in any order and repeated, and with any text as their namespace. From the
text that is written for them they are read again if the namespace has a character that is no white
space; otherwise that text is refused as an invalid argument. A builder takes, as they are, just the
options that are read from some text, and refuses all others as an invalid argument. -/
theorem ofJson?_toJson_eq_ite (c : ExplanationConfig) :
    ofJson? c.toJson = (if c.HasNamespace then .ok c else .error .blankNamespace) ∧
      (ExplanationOrderer.ofConfig? c = .ok (.new c) ↔ ∃ text, ofJson? text = .ok c) ∧
      (ExplanationOrderer.ofConfig? c = .error .blankNamespace ↔
        ¬ ∃ text, ofJson? text = .ok c) ∧
      AnalysisError.blankNamespace.message? =
        some "Invalid argument: staging_namespace cannot be empty" := by
  rw [exists_ofJson?_iff, ofConfig?_eq]
  refine ⟨(ofJson?_toJson_eq_check? c).trans c.check?_eq, ?_, ?_, rfl⟩
  · by_cases hgood : c.HasNamespace <;> simp [hgood]
  · by_cases hgood : c.HasNamespace <;> simp [hgood]

end ExplanationConfig

end OwlStructure
