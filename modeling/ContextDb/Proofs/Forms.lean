import ContextDb.Proofs.Escaping
import ContextDb.Proofs.Pieces
import ContextDb.Url.Form

/-!
# Forms read back

A query that has been written from names with values reads back as these names with
these values, whatever characters they have: each character reads back as its bytes, and
what separates names and values stands nowhere in them.
-/

namespace ContextDb

open Text

namespace Text

/-- The bytes of a text are read as the text. -/
theorem decodeLossy_encode (text : List Char) :
    decodeLossy ⟨(encode text).toArray⟩ = String.ofList text := by
  have whole : String.fromUTF8? ⟨(encode text).toArray⟩ = some (String.ofList text) :=
    decode?_encode text
  rw [decodeLossy, whole]

/-- The bytes of a string are read as the string. -/
theorem decodeLossy_toUTF8 (text : String) : decodeLossy text.toUTF8 = text := by
  have stored : (⟨(encode text.toList).toArray⟩ : ByteArray) = text.toUTF8 := by
    apply ByteArray.ext
    rw [← bytesOf_eq_encode, bytesOf]
  rw [← stored, decodeLossy_encode, String.ofList_toList]

/-- A letter or a digit is ASCII, and no blank. -/
theorem bounds_of_isAlphanum {c : Char} (isAlphanum : c.isAlphanum = true) :
    0x20 < c.toNat ∧ c.toNat < 0x7F := by
  have ranges : (decide (c.val ≥ 'A'.val ∧ c.val ≤ 'Z'.val) ||
      (c.val ≥ 'a'.val && c.val ≤ 'z'.val) || (c.val ≥ '0'.val && c.val ≤ '9'.val)) = true :=
    isAlphanum
  simp only [Bool.or_eq_true, Bool.and_eq_true, decide_eq_true_eq, ge_iff_le,
    UInt32.le_iff_toNat_le] at ranges
  have value : c.toNat = c.val.toNat := rfl
  have codes : 'A'.val.toNat = 0x41 ∧ 'Z'.val.toNat = 0x5A ∧ 'a'.val.toNat = 0x61 ∧
      'z'.val.toNat = 0x7A ∧ '0'.val.toNat = 0x30 ∧ '9'.val.toNat = 0x39 := by decide
  omega

end Text

namespace Url

variable {c : Char} {text : List Char} {pair : String × String}

/-! ## Characters of a form -/

/-- What stands for itself in a form is ASCII, and no blank. -/
theorem bounds_of_isFormPlain (plain : isFormPlain c = true) : 0x20 < c.toNat ∧ c.toNat < 0x7F := by
  simp only [isFormPlain, Bool.or_eq_true, decide_eq_true_eq] at plain
  rcases plain with (((isAlphanum | rfl) | rfl) | rfl) | rfl
  · exact bounds_of_isAlphanum isAlphanum
  all_goals decide

/-- Whether a character may stand in a name or a value of a form. -/
def isFormMark (c : Char) : Bool :=
  isFormPlain c || c = '+' || c = '%'

/-- Names and values are written with such characters. -/
theorem isFormMark_of_mem_formText {mark : Char} (member : mark ∈ formText text) :
    isFormMark mark = true := by
  have digits : ∀ value < 16, isFormMark (upperHexDigit value) = true := by decide
  obtain ⟨c, _, inChar⟩ := List.mem_flatMap.1 member
  rw [formChar] at inChar
  split at inChar
  · rename_i plain
    rw [List.mem_singleton.1 inChar, isFormMark, plain]
    rfl
  · split at inChar
    · rw [List.mem_singleton.1 inChar]
      decide
    · rcases mem_escapeChar inChar with rfl | ⟨value, small, rfl⟩
      · decide
      · exact digits value small

/-- What separates stands in no name and no value. -/
theorem not_mem_formText {mark : Char} (separates : isFormMark mark = false) :
    mark ∉ formText text := by
  intro member
  rw [isFormMark_of_mem_formText member] at separates
  cases separates

/-- A query is written with the characters of names and values and with what separates
them. -/
theorem mem_formEncode {pairs : List (String × String)} {mark : Char}
    (member : mark ∈ (formEncode pairs).toList) :
    isFormMark mark = true ∨ mark = '&' ∨ mark = '=' := by
  have inPair : ∀ pair : String × String, mark ∈ formPair pair →
      isFormMark mark = true ∨ mark = '&' ∨ mark = '=' := by
    intro pair inPair
    rcases List.mem_append.1 inPair with inName | behind
    · exact .inl (isFormMark_of_mem_formText inName)
    · rcases List.mem_cons.1 behind with isEqual | inValue
      · exact .inr (.inr isEqual)
      · exact .inl (isFormMark_of_mem_formText inValue)
  rw [formEncode, String.toList_ofList] at member
  cases pairs with
  | nil => cases member
  | cons first others =>
    rcases List.mem_append.1 member with inFirst | behind
    · exact inPair first inFirst
    · obtain ⟨piece, isPiece, inPiece⟩ := List.mem_flatMap.1 behind
      obtain ⟨other, _, rfl⟩ := List.mem_map.1 isPiece
      rcases List.mem_append.1 inPiece with separator | inOther
      · exact .inr (.inl (List.mem_singleton.1 separator))
      · exact inPair other inOther

/-! ## Reading back -/

/-- The character that stands in a form for a plus sign is a space. -/
def spaced (c : Char) : Char :=
  if c = '+' then ' ' else c

/-- A character of a form reads back as its bytes. -/
theorem unescape_formChar (c : Char) (rest : List UInt8) :
    unescape (encode ((formChar c).map spaced) ++ rest) =
      String.utf8EncodeChar c ++ unescape rest := by
  have single : ∀ mark : Char, encode [mark] = String.utf8EncodeChar mark := fun mark => by
    rw [encode_cons, encode_nil, List.append_nil]
  rw [formChar]
  split
  · rename_i plain
    obtain ⟨_, ascii⟩ := bounds_of_isFormPlain plain
    have notPlus : c ≠ '+' := by
      rintro rfl
      cases plain
    have notPercent : c ≠ '%' := by
      rintro rfl
      cases plain
    rw [List.map_singleton, spaced, if_neg notPlus, single]
    exact unescape_plain (by omega) notPercent rest
  · split
    · rename_i isSpace
      subst isSpace
      rw [List.map_singleton, spaced, if_pos rfl, single]
      exact unescape_plain (by decide) (by decide) rest
    · have noPlus : (escapeChar c).map spaced = escapeChar c := by
        have notDigit : ∀ value < 16, upperHexDigit value ≠ '+' := by decide
        refine (List.map_congr_left fun mark member => ?_).trans (List.map_id _)
        rcases mem_escapeChar member with rfl | ⟨value, small, rfl⟩
        · rfl
        · exact if_neg (notDigit value small)
      rw [noPlus, unescape_escapeChar]

/-- A name or a value reads back as it was. -/
theorem formValue_formText (text : List Char) : formValue (formText text) = String.ofList text := by
  have bytes : unescape (encode ((formText text).map spaced)) = encode text := by
    induction text with
    | nil => rfl
    | cons c text inductionHypothesis =>
      rw [formText, List.flatMap_cons, List.map_append, encode_append, unescape_formChar,
        encode_cons]
      exact congrArg _ inductionHypothesis
  have spelled : formValue (formText text) =
      decodeLossy ⟨(unescape (encode ((formText text).map spaced))).toArray⟩ := rfl
  rw [spelled, bytes, decodeLossy_encode]

/-- A name with its value reads back as it was. -/
theorem formSplit_formPair (pair : String × String) : formSplit (formPair pair) = pair := by
  rw [formSplit, formPair, cutAt?_append_cons (not_mem_formText (by decide))]
  simp only [formValue_formText, String.ofList_toList]

/-- A query reads back as the names with values from which it was written. -/
theorem formDecode_formEncode (pairs : List (String × String)) :
    formDecode (formEncode pairs) = pairs := by
  rw [formDecode, formEncode, String.toList_ofList]
  by_cases nothing : pairs = []
  · subst nothing
    rfl
  · have noSeparator : ∀ part ∈ pairs.map formPair, '&' ∉ part := by
      intro part member
      obtain ⟨pair, _, rfl⟩ := List.mem_map.1 member
      rw [formPair, List.mem_append, List.mem_cons]
      rintro (inName | isEqual | inValue)
      · exact not_mem_formText (by decide) inName
      · cases isEqual
      · exact not_mem_formText (by decide) inValue
    have nonempty : ∀ part ∈ pairs.map formPair, (!part.isEmpty) = true := by
      intro part member
      obtain ⟨pair, _, rfl⟩ := List.mem_map.1 member
      simp [formPair]
    rw [pieces_joinWith (by simpa using nothing) noSeparator, List.filter_eq_self.2 nonempty,
      List.map_map]
    exact (List.map_congr_left fun pair _ => formSplit_formPair pair).trans (List.map_id _)

end Url

end ContextDb
