import Mathlib.Data.List.TakeWhile
import OwlStructure.Iri
import OwlStructure.Proofs.Text.ByteOffsets

/-!
The parts of an IRI. Every text is cut in one way into a part that is empty or ends in a separator
and a part without separators. The first is the namespace, and the second the short form unless it
is empty; joining them puts the IRI together again. Found by byte offsets the parts are the same.
-/
namespace OwlStructure.Iri

def endsInSeparator (t : String) : Bool := t.toList.getLast?.any isSeparator

/-- A text cut behind its last separator, or in front of everything if it has none. -/
structure Cut (t front back : String) : Prop where
  eq_append : t = front ++ back
  front_ends : front = "" ∨ endsInSeparator front = true
  back_free : ∀ c ∈ back.toList, isSeparator c = false

theorem isSeparator_iff {c : Char} : isSeparator c = true ↔ c = '#' ∨ c = '/' := by
  unfold isSeparator
  rw [Bool.or_eq_true, decide_eq_true_eq, decide_eq_true_eq]

theorem endsInSeparator_iff {t : String} :
    endsInSeparator t = true ↔
      ∃ start c, t = start ++ String.singleton c ∧ isSeparator c = true := by
  unfold endsInSeparator
  rw [Option.any_eq_true]
  constructor
  · rintro ⟨c, hlast, hc⟩
    obtain ⟨start, hstart⟩ := List.getLast?_eq_some_iff.1 hlast
    refine ⟨String.ofList start, c, String.toList_inj.1 ?_, hc⟩
    simpa using hstart
  · rintro ⟨start, c, rfl, hc⟩
    exact ⟨c, by simp, hc⟩

/-- Separators are not white space. -/
theorem isBlank_of_endsInSeparator {front : String} (h : endsInSeparator front = true)
    (back : String) : isBlank (front ++ back) = false := by
  obtain ⟨start, c, rfl, hc⟩ := endsInSeparator_iff.1 h
  have hblank : isBlankChar c = false := by
    rcases isSeparator_iff.1 hc with rfl | rfl <;> decide
  unfold isBlank
  rw [List.all_eq_false]
  exact ⟨c, by simp, by rw [hblank]; exact Bool.false_ne_true⟩

theorem cut_parts (t : String) :
    Cut t (String.ofList (namespaceChars t.toList)) (String.ofList (localChars t.toList)) where
  eq_append := by
    rw [← String.ofList_append, namespaceChars_append_localChars, String.ofList_toList]
  front_ends := by
    have hhead := List.head?_dropWhile_not (fun c => !isSeparator c) t.toList.reverse
    unfold endsInSeparator namespaceChars
    cases hdrop : t.toList.reverse.dropWhile fun c => !isSeparator c with
    | nil => exact .inl rfl
    | cons c rest =>
      rw [hdrop] at hhead
      have hc : isSeparator c = true := by simpa using hhead
      exact .inr (by simp [hc])
  back_free c hc := by
    rw [String.toList_ofList, localChars, List.mem_reverse] at hc
    simpa using List.mem_takeWhile_imp hc

namespace Cut

variable {t front back : String}

theorem localChars_eq (h : Cut t front back) : localChars t.toList = back.toList := by
  have hfree : ∀ c ∈ back.toList.reverse, (!isSeparator c) = true := fun c hc => by
    rw [h.back_free c (List.mem_reverse.1 hc)]
    rfl
  have hfront : front.toList.reverse.takeWhile (fun c => !isSeparator c) = [] := by
    rcases h.front_ends with rfl | hends
    · rfl
    · obtain ⟨start, c, rfl, hc⟩ := endsInSeparator_iff.1 hends
      simp [hc]
  unfold localChars
  rw [h.eq_append, String.toList_append, List.reverse_append,
    List.takeWhile_append_of_pos hfree, hfront, List.append_nil, List.reverse_reverse]

/-- A text is cut in one way only. -/
theorem namespaceChars_eq (h : Cut t front back) : namespaceChars t.toList = front.toList := by
  have hall := namespaceChars_append_localChars t.toList
  rw [h.localChars_eq] at hall
  refine List.append_cancel_right (hall.trans ?_)
  rw [← String.toList_append, ← h.eq_append]

variable {i : Iri}

theorem namespaceText_eq (h : Cut i.text front back) : i.namespaceText = front := by
  rw [namespaceText, h.namespaceChars_eq, String.ofList_toList]

theorem shortForm_eq (h : Cut i.text front back) :
    i.shortForm = if back = "" then i.text else back := by
  unfold shortForm
  rw [h.localChars_eq]
  split
  · next hnil => rw [if_pos (String.toList_eq_nil_iff.1 hnil)]
  · next hne =>
    rw [if_neg (fun he => hne (String.toList_eq_nil_iff.2 he)), String.ofList_toList]

theorem endsInSeparator_iff (h : Cut t front back) :
    endsInSeparator t = true ↔ back = "" ∧ front ≠ "" := by
  rw [h.eq_append]
  by_cases hback : back = ""
  · subst hback
    rw [String.append_empty]
    rcases h.front_ends with rfl | hends
    · decide
    · have hne : front ≠ "" := by
        rintro rfl
        exact Bool.false_ne_true hends
      exact iff_of_true hends ⟨rfl, hne⟩
  · -- the last character is in the part without separators
    have hne : back.toList ≠ [] := fun he => hback (String.toList_eq_nil_iff.1 he)
    have hlast : (front ++ back).toList.getLast? = some (back.toList.getLast hne) := by
      rw [String.toList_append, List.getLast?_append, List.getLast?_eq_some_getLast hne]
      rfl
    refine iff_of_false ?_ fun hends => hback hends.1
    unfold endsInSeparator
    rw [hlast, Option.any_some, h.back_free _ (List.getLast_mem hne)]
    exact Bool.false_ne_true

end Cut

/-! ### The parts by bytes -/

/-- The namespace, from the first byte to that of the last separator. -/
def namespaceBytes? (i : Iri) : Option String :=
  match lastOffset? isSeparator i.text with
  | some n => byteSlice? i.text 0 (n + 1)
  | none => some ""

/-- The short form, from the byte behind the last separator on if there is one. -/
def shortFormBytes? (i : Iri) : Option String :=
  match lastOffset? isSeparator i.text with
  | some n =>
    if n + 1 < i.text.utf8ByteSize then byteSlice? i.text (n + 1) i.text.utf8ByteSize
    else some i.text
  | none => some i.text

namespace Cut

variable {i : Iri} {front back : String}

theorem lastOffset?_eq_none (h : Cut i.text "" back) : lastOffset? isSeparator i.text = none := by
  refine OwlStructure.lastOffset?_eq_none ?_
  rw [h.eq_append, String.empty_append]
  exact h.back_free

/-- A separator has one byte, so the next byte begins what stands behind it. -/
theorem exists_lastOffset? (h : Cut i.text front back) (hends : endsInSeparator front = true) :
    ∃ n, lastOffset? isSeparator i.text = some n ∧ n + 1 = front.utf8ByteSize := by
  obtain ⟨start, c, rfl, hc⟩ := Iri.endsInSeparator_iff.1 hends
  have hsize : c.utf8Size = 1 := by rcases isSeparator_iff.1 hc with rfl | rfl <;> rfl
  refine ⟨start.utf8ByteSize, ?_, ?_⟩
  · rw [h.eq_append]
    exact lastOffset?_append start back hc h.back_free
  · rw [String.utf8ByteSize_append, String.utf8ByteSize_singleton, hsize]

theorem namespaceBytes?_eq (h : Cut i.text front back) : i.namespaceBytes? = some front := by
  unfold namespaceBytes?
  rcases h.front_ends with rfl | hends
  · rw [h.lastOffset?_eq_none]
  · obtain ⟨n, hn, hsize⟩ := h.exists_lastOffset? hends
    have hslice := byteSlice?_append "" front back
    rw [String.empty_append, ← h.eq_append] at hslice
    rw [hn]
    show byteSlice? i.text 0 (n + 1) = some front
    rw [hsize]
    exact hslice

theorem shortFormBytes?_eq (h : Cut i.text front back) :
    i.shortFormBytes? = some (if back = "" then i.text else back) := by
  unfold shortFormBytes?
  rcases h.front_ends with rfl | hends
  · have htext : i.text = back := h.eq_append.trans (String.empty_append)
    rw [h.lastOffset?_eq_none, htext, ite_self]
  · obtain ⟨n, hn, hsize⟩ := h.exists_lastOffset? hends
    have htotal : i.text.utf8ByteSize = front.utf8ByteSize + back.utf8ByteSize := by
      rw [← String.utf8ByteSize_append, ← h.eq_append]
    rw [hn]
    show (if n + 1 < i.text.utf8ByteSize then byteSlice? i.text (n + 1) i.text.utf8ByteSize
      else some i.text) = _
    rw [hsize]
    by_cases hback : back = ""
    · have hend : ¬ front.utf8ByteSize < i.text.utf8ByteSize := by
        rw [htotal, hback]
        exact Nat.lt_irrefl _
      rw [if_neg hend, if_pos hback]
    · have hpos : back.utf8ByteSize ≠ 0 := fun he => hback (String.utf8ByteSize_eq_zero_iff.1 he)
      have hslice := byteSlice?_append front back ""
      rw [String.append_empty, ← h.eq_append] at hslice
      rw [if_pos (by omega), if_neg hback]
      exact hslice

end Cut

/-- The namespace of an IRI is what it begins with, up to its last separator. If the IRI goes on
behind it, the rest is the short form, has no separator, and can be joined to the namespace again;
if it does not, the namespace and the short form are the whole IRI. Both are found between
characters. The other way round, an IRI that is joined from a namespace that ends in a separator and
a short form without any has these two parts. -/
theorem parts_join :
    (∀ i : Iri, isBlank i.text = false →
      (∃ rest, i.text = i.namespaceText ++ rest) ∧
      (i.namespaceText = "" ∨ endsInSeparator i.namespaceText = true) ∧
      (endsInSeparator i.text = false →
        i.namespaceText ++ i.shortForm = i.text ∧
        (∀ c ∈ i.shortForm.toList, isSeparator c = false) ∧
        join? i.namespaceText i.shortForm = .ok i) ∧
      (endsInSeparator i.text = true → i.shortForm = i.text ∧ i.namespaceText = i.text) ∧
      i.namespaceBytes? = some i.namespaceText ∧ i.shortFormBytes? = some i.shortForm) ∧
    ∀ front back : String, endsInSeparator front = true → back ≠ "" →
      (∀ c ∈ back.toList, isSeparator c = false) →
      ∃ i, join? front back = .ok i ∧ i.namespaceText = front ∧ i.shortForm = back := by
  constructor
  · intro i hblank
    obtain ⟨front, back, h⟩ : ∃ front back, Cut i.text front back := ⟨_, _, cut_parts i.text⟩
    rw [h.namespaceBytes?_eq, h.shortFormBytes?_eq, h.namespaceText_eq, h.shortForm_eq]
    refine ⟨⟨back, h.eq_append⟩, h.front_ends, fun hends => ?_, fun hends => ?_, rfl, rfl⟩
    · have hback : back ≠ "" := by
        rintro rfl
        have hfront : front = "" := by
          by_contra hne
          rw [h.endsInSeparator_iff.2 ⟨rfl, hne⟩] at hends
          cases hends
        rw [h.eq_append, hfront] at hblank
        cases hblank
      rw [if_neg hback, ← h.eq_append]
      refine ⟨rfl, h.back_free, ?_⟩
      rw [join?, ← h.eq_append, ofText?, hblank]
      rfl
    · obtain ⟨rfl, -⟩ := h.endsInSeparator_iff.1 hends
      exact ⟨if_pos rfl, by rw [h.eq_append, String.append_empty]⟩
  · intro front back hends hback hfree
    let i : Iri := ⟨front ++ back⟩
    have hcut : Cut i.text front back := ⟨rfl, .inr hends, hfree⟩
    have hjoin : join? front back = .ok i := by
      rw [join?, ofText?, isBlank_of_endsInSeparator hends back]
      rfl
    refine ⟨i, hjoin, hcut.namespaceText_eq, ?_⟩
    rw [hcut.shortForm_eq, if_neg hback]

/-- Letters of two and three bytes on both sides of the last separator. -/
theorem parts_join_multibyte :
    let i : Iri := ⟨"ex:é/ö#名"⟩
    isBlank i.text = false ∧ endsInSeparator i.text = false ∧
      join? i.namespaceText i.shortForm = .ok i ∧
      i.namespaceBytes? = some i.namespaceText ∧ i.shortFormBytes? = some i.shortForm ∧
      ∃ j, join? "ex:é/" "ö名" = .ok j ∧ j.namespaceText = "ex:é/" ∧ j.shortForm = "ö名" := by
  intro i
  obtain ⟨hparts, hjoined⟩ := parts_join
  have hblank : isBlank i.text = false := by decide
  have hends : endsInSeparator i.text = false := by decide
  obtain ⟨-, -, hsplit, -, hnamespace, hshort⟩ := hparts i hblank
  refine ⟨hblank, hends, (hsplit hends).2.2, hnamespace, hshort, ?_⟩
  exact hjoined "ex:é/" "ö名" (by decide) (by decide) (by simp [isSeparator])

end OwlStructure.Iri
