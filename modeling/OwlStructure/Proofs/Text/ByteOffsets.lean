import Mathlib.Data.String.Basic

/-!
Texts by bytes. A byte offset is good to cut a text at only if it lies between two characters; where
a character was found, the offset of its first byte is, and so is the offset after its last one.
-/
namespace OwlStructure

/-- The part of a text between two byte offsets, if both of them lie between characters. -/
def byteSlice? (s : String) (start stop : Nat) : Option String :=
  if h : start ≤ stop ∧ String.Pos.Raw.IsValid s ⟨start⟩ ∧ String.Pos.Raw.IsValid s ⟨stop⟩ then
    some (s.extract (s.pos ⟨start⟩ h.2.1) (s.pos ⟨stop⟩ h.2.2))
  else none

/-- The characters with the offsets of their first bytes, counted on from a number. -/
def withOffsets (start : Nat) : List Char → List (Nat × Char)
  | [] => []
  | c :: cs => (start, c) :: withOffsets (start + c.utf8Size) cs

/-- The offset of the last character of a kind. -/
def lastOffset? (p : Char → Bool) (s : String) : Option Nat :=
  ((withOffsets 0 s.toList).reverse.find? fun e => p e.2).map Prod.fst

theorem isValid_utf8ByteSize (a b : String) :
    String.Pos.Raw.IsValid (a ++ b) ⟨a.utf8ByteSize⟩ :=
  String.Pos.Raw.isValid_rawEndPos.append_right b

/-- A text is cut out between the offsets at which it begins and ends. -/
theorem byteSlice?_append (a b c : String) :
    byteSlice? (a ++ b ++ c) a.utf8ByteSize (a ++ b).utf8ByteSize = some b := by
  have hle : a.utf8ByteSize ≤ (a ++ b).utf8ByteSize := by
    rw [String.utf8ByteSize_append]
    exact Nat.le_add_right _ _
  have hstart : String.Pos.Raw.IsValid (a ++ b ++ c) ⟨a.utf8ByteSize⟩ := by
    rw [String.append_assoc]
    exact isValid_utf8ByteSize a (b ++ c)
  have hstop := isValid_utf8ByteSize (a ++ b) c
  unfold byteSlice?
  rw [dif_pos ⟨hle, hstart, hstop⟩]
  have hsize : (a ++ b).toByteArray.size = (a ++ b).utf8ByteSize := String.size_toByteArray
  refine congrArg some (String.toByteArray_inj.1 ?_)
  show (a ++ b ++ c).toByteArray.extract a.utf8ByteSize (a ++ b).utf8ByteSize = b.toByteArray
  calc (a ++ b ++ c).toByteArray.extract a.utf8ByteSize (a ++ b).utf8ByteSize
      = (a ++ b).toByteArray.extract a.utf8ByteSize (a ++ b).utf8ByteSize := by
        rw [String.toByteArray_append, ← hsize, ByteArray.extract_append_size_left]
    _ = b.toByteArray := by
        rw [String.toByteArray_append, String.utf8ByteSize_append, ← String.size_toByteArray,
          ← String.size_toByteArray]
        exact ByteArray.extract_append_eq_right rfl rfl

/-- Between the two bytes of a character no text ends. -/
example : byteSlice? "é" 0 1 = none := by decide

theorem withOffsets_append (start : Nat) (l m : List Char) :
    withOffsets start (l ++ m) =
      withOffsets start l ++ withOffsets (start + String.utf8Len l) m := by
  induction l generalizing start with
  | nil => rfl
  | cons c l ih =>
    have hstart : start + c.utf8Size + String.utf8Len l = start + String.utf8Len (c :: l) := by
      rw [String.utf8Len_cons]
      omega
    rw [List.cons_append, withOffsets, ih, hstart]
    rfl

theorem snd_mem_of_mem_withOffsets {start : Nat} {l : List Char} {e : Nat × Char}
    (h : e ∈ withOffsets start l) : e.2 ∈ l := by
  induction l generalizing start with
  | nil => cases h
  | cons c l ih =>
    rcases List.mem_cons.1 h with rfl | h
    · exact List.mem_cons_self
    · exact List.mem_cons_of_mem _ (ih h)

theorem find?_withOffsets_eq_none {p : Char → Bool} {l : List Char} (start : Nat)
    (h : ∀ c ∈ l, p c = false) :
    (withOffsets start l).reverse.find? (fun e => p e.2) = none := by
  rw [List.find?_eq_none]
  intro e he
  rw [h e.2 (snd_mem_of_mem_withOffsets (List.mem_reverse.1 he))]
  exact Bool.false_ne_true

theorem lastOffset?_eq_none {p : Char → Bool} {s : String} (h : ∀ c ∈ s.toList, p c = false) :
    lastOffset? p s = none := by
  rw [lastOffset?, find?_withOffsets_eq_none 0 h]
  rfl

/-- The last character of a kind is found behind all that stands before it. -/
theorem lastOffset?_append {p : Char → Bool} {c : Char} (a b : String) (hc : p c = true)
    (hb : ∀ d ∈ b.toList, p d = false) :
    lastOffset? p (a ++ String.singleton c ++ b) = some a.utf8ByteSize := by
  have hchars : (a ++ String.singleton c ++ b).toList = a.toList ++ c :: b.toList := by simp
  unfold lastOffset?
  rw [hchars, withOffsets_append, List.reverse_append, withOffsets, List.reverse_cons,
    List.append_assoc, List.find?_append, find?_withOffsets_eq_none _ hb, Nat.zero_add,
    String.utf8Len_toList]
  simp [hc]

end OwlStructure
