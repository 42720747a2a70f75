import ContextDb.Url.Path

/-!
# Escapes

A text whose characters are written as they are or as escapes of their bytes reads
back as its bytes, and bytes of a text read back as the text. So nothing is lost in
a segment of a path but the characters that no URL has.
-/

namespace ContextDb.Text

/-- The bytes of a text read back as the text. -/
theorem decode?_encode (text : List Char) : decode? (encode text) = some (String.ofList text) := by
  have stored : (⟨(encode text).toArray⟩ : ByteArray) = text.utf8Encode := by
    apply ByteArray.ext
    simp [List.utf8Encode, encode]
  rw [decode?, stored, String.fromUTF8?, dif_pos ⟨text, rfl⟩]
  rfl

/-- Texts with the same bytes are the same. -/
theorem encode_injective : Function.Injective encode := by
  intro first second same
  have texts : String.ofList first = String.ofList second := by
    apply Option.some.inj
    rw [← decode?_encode, ← decode?_encode, same]
  exact String.ofList_injective texts

@[simp] theorem encode_nil : encode [] = [] := rfl

@[simp] theorem encode_append (first second : List Char) :
    encode (first ++ second) = encode first ++ encode second :=
  List.flatMap_append

theorem encode_cons (c : Char) (text : List Char) :
    encode (c :: text) = String.utf8EncodeChar c ++ encode text := rfl

theorem bytesOf_ofList (text : List Char) : bytesOf (String.ofList text) = encode text := by
  simp [bytesOf, encode, List.utf8Encode]

theorem bytesOf_eq_encode (text : String) : bytesOf text = encode text.toList := by
  rw [← bytesOf_ofList, String.ofList_toList]

/-- An ASCII character is a single byte. -/
theorem utf8EncodeChar_of_ascii {c : Char} (ascii : c.toNat < 0x80) :
    String.utf8EncodeChar c = [UInt8.ofNat c.toNat] := by
  have small : c.val.toNat ≤ 127 := Nat.le_of_lt_succ ascii
  rw [String.utf8EncodeChar, if_pos small]
  rfl

end ContextDb.Text

namespace ContextDb.Url

open Text

/-! ## Reading escapes -/

/-- A digit is a single byte, which reads back as its value. -/
theorem hexValue?_upperHexDigit : ∀ value < 16,
    String.utf8EncodeChar (upperHexDigit value) = [UInt8.ofNat (upperHexDigit value).toNat] ∧
      hexValue? (UInt8.ofNat (upperHexDigit value).toNat) = some value := by
  decide

/-- What has been collected stands in front of what is still to be read. -/
theorem unescapeFrom_eq (reversed bytes : List UInt8) :
    unescapeFrom reversed bytes = reversed.reverse ++ unescape bytes := by
  -- A whole escape is read in one step, so the induction is on the length.
  induction length : bytes.length using Nat.strongRecOn generalizing reversed bytes with
  | ind count inductionHypothesis =>
    subst length
    have next : ∀ byte tail, tail.length < bytes.length →
        unescapeFrom (byte :: reversed) tail = reversed.reverse ++ unescapeFrom [byte] tail := by
      intro byte tail shorter
      rw [inductionHypothesis _ shorter (byte :: reversed) tail rfl,
        inductionHypothesis _ shorter [byte] tail rfl]
      simp
    rw [unescape]
    unfold unescapeFrom
    split
    · simp
    · split
      · split
        · split
          · exact next _ _ (by simp only [List.length_cons]; omega)
          · exact next _ _ (by simp)
        · exact next _ _ (by simp)
        · exact next _ _ (by simp)
      · exact next _ _ (by simp)

@[simp] theorem unescape_nil : unescape [] = [] := rfl

/-- Any byte but the percent sign stands for itself. -/
theorem unescape_cons_of_ne {byte : UInt8} (plain : byte ≠ 0x25) (rest : List UInt8) :
    unescape (byte :: rest) = byte :: unescape rest := by
  have notPercent : (byte == 0x25) = false := by simpa using plain
  rw [unescape, unescapeFrom.eq_def]
  simp only [notPercent, Bool.false_eq_true, if_false]
  exact unescapeFrom_eq [byte] rest

/-- Any ASCII character but the percent sign stands for itself. -/
theorem unescape_plain {c : Char} (ascii : c.toNat < 0x80) (notPercent : c ≠ '%')
    (rest : List UInt8) :
    unescape (String.utf8EncodeChar c ++ rest) = String.utf8EncodeChar c ++ unescape rest := by
  have notByte : UInt8.ofNat c.toNat ≠ 0x25 := by
    intro same
    have values : c.toNat % 256 = 0x25 := congrArg UInt8.toNat same
    have code : '%'.toNat = 0x25 := rfl
    exact notPercent (Char.toNat_inj.1 (by omega))
  rw [utf8EncodeChar_of_ascii ascii, List.singleton_append, unescape_cons_of_ne notByte,
    List.singleton_append]

/-- An escaped byte reads back as the byte. -/
theorem unescape_escapeByte (byte : UInt8) (rest : List UInt8) :
    unescape (encode (escapeByte byte) ++ rest) = byte :: unescape rest := by
  have small : byte.toNat < 256 := byte.toNat_lt
  obtain ⟨highStored, highValue⟩ := hexValue?_upperHexDigit (byte.toNat / 16) (by omega)
  obtain ⟨lowStored, lowValue⟩ := hexValue?_upperHexDigit (byte.toNat % 16) (by omega)
  have percent : String.utf8EncodeChar '%' = [0x25] := rfl
  have whole : (byte.toNat / 16 * 16 + byte.toNat % 16).toUInt8 = byte := by
    rw [Nat.div_add_mod']
    exact UInt8.ofNat_toNat
  simp only [escapeByte, encode_cons, encode_nil, percent, highStored, lowStored,
    List.cons_append, List.nil_append]
  rw [unescape, unescapeFrom]
  simp only [beq_self_eq_true, if_true, highValue, lowValue, whole]
  exact unescapeFrom_eq [byte] rest

/-- An escaped character reads back as its bytes. -/
theorem unescape_escapeChar (c : Char) (rest : List UInt8) :
    unescape (encode (escapeChar c) ++ rest) = String.utf8EncodeChar c ++ unescape rest := by
  rw [escapeChar]
  induction String.utf8EncodeChar c with
  | nil => rfl
  | cons byte bytes inductionHypothesis =>
    rw [List.flatMap_cons, encode_append, List.append_assoc, unescape_escapeByte,
      inductionHypothesis, List.cons_append]

/-! ## Escaped texts -/

/-- The characters of a text that a URL can have. -/
def kept (text : List Char) : List Char :=
  text.filter (!isDropped ·)

/-- A text in which the percent sign and all but ASCII is escaped reads back as what
is kept of it. -/
theorem unescape_escapeWhere {escaped : Char → Bool}
    (plain : ∀ c, escaped c = false → c.toNat < 0x80 ∧ c ≠ '%') (text : List Char) :
    unescape (encode (escapeWhere escaped text)) = encode (kept text) := by
  rw [escapeWhere, ← kept]
  induction kept text with
  | nil => rfl
  | cons c rest inductionHypothesis =>
    rw [List.flatMap_cons, encode_append, encode_cons]
    cases isEscaped : escaped c with
    | true => rw [if_pos rfl, unescape_escapeChar, inductionHypothesis]
    | false =>
      obtain ⟨ascii, notPercent⟩ := plain c isEscaped
      rw [if_neg Bool.false_ne_true, encode_cons, encode_nil, List.append_nil,
        unescape_plain ascii notPercent, inductionHypothesis]

/-- A segment has what it does not escape in ASCII, and no percent sign among it. -/
theorem ascii_of_not_segmentEscaped (c : Char) (plain : isSegmentEscaped c = false) :
    c.toNat < 0x80 ∧ c ≠ '%' := by
  simp only [isSegmentEscaped, isPathEscaped, isControl, Bool.or_eq_false_iff] at plain
  refine ⟨?_, ?_⟩
  · have notControl := plain.1.1.2
    simp only [decide_eq_false_iff_not] at notControl
    omega
  · rintro rfl
    simp at plain

/-- A text as it stands in a segment of a path. -/
def segmentOf (text : List Char) : List Char :=
  escapeWhere isSegmentEscaped text

/-- A segment reads back as what is kept of its text. -/
theorem decode?_unescape_segmentOf (text : List Char) :
    decode? (unescape (encode (segmentOf text))) = some (String.ofList (kept text)) := by
  rw [segmentOf, unescape_escapeWhere ascii_of_not_segmentEscaped, decode?_encode]

/-- An escape is made of percent signs and digits. -/
theorem mem_escapeChar {c mark : Char} (member : mark ∈ escapeChar c) :
    mark = '%' ∨ ∃ value < 16, mark = upperHexDigit value := by
  obtain ⟨byte, _, inByte⟩ := List.mem_flatMap.1 member
  have small : byte.toNat < 256 := byte.toNat_lt
  simp only [escapeByte, List.mem_cons, List.not_mem_nil, or_false] at inByte
  rcases inByte with rfl | rfl | rfl
  · exact .inl rfl
  · exact .inr ⟨_, by omega, rfl⟩
  · exact .inr ⟨_, by omega, rfl⟩

/-- No character of an escape is a slash. -/
theorem slash_not_mem_escapeChar (c : Char) : '/' ∉ escapeChar c := by
  have notDigit : ∀ value < 16, '/' ≠ upperHexDigit value := by decide
  intro member
  rcases mem_escapeChar member with isPercent | ⟨value, small, isDigit⟩
  · cases isPercent
  · exact notDigit value small isDigit

/-- A segment has no slash. -/
theorem slash_not_mem_segmentOf (text : List Char) : '/' ∉ segmentOf text := by
  rw [segmentOf, escapeWhere, List.mem_flatMap]
  rintro ⟨c, _, member⟩
  cases isEscaped : isSegmentEscaped c with
  | true =>
    rw [isEscaped, if_pos rfl] at member
    exact slash_not_mem_escapeChar c member
  | false =>
    rw [isEscaped, if_neg Bool.false_ne_true, List.mem_singleton] at member
    subst member
    cases isEscaped

/-- A segment reads back as a given text only if that is what is kept of its own. -/
theorem kept_of_unescape_segmentOf {text meant : List Char}
    (same : unescape (encode (segmentOf text)) = encode meant) : kept text = meant := by
  rw [segmentOf, unescape_escapeWhere ascii_of_not_segmentEscaped] at same
  exact encode_injective same

/-- A segment means the same directory exactly if a dot is kept of its text. -/
theorem isOneDot_segmentOf (text : List Char) :
    isOneDot (segmentOf text) = true ↔ kept text = ['.'] := by
  have readBack : ∀ spelling ∈ dots, unescape (encode spelling) = encode ['.'] := by decide
  constructor
  · intro isDot
    have spelled : segmentOf text ∈ dots := by simpa [isOneDot] using isDot
    exact kept_of_unescape_segmentOf (readBack _ spelled)
  · intro dot
    rw [segmentOf, escapeWhere, ← kept, dot]
    decide

/-- A segment means the directory above exactly if two dots are kept of its text. -/
theorem isTwoDots_segmentOf (text : List Char) :
    isTwoDots (segmentOf text) = true ↔ kept text = ['.', '.'] := by
  have readBack : ∀ spelling ∈ dots.flatMap fun first => dots.map (first ++ ·),
      unescape (encode spelling) = encode ['.', '.'] := by decide
  constructor
  · intro isDots
    have spelled : segmentOf text ∈ dots.flatMap fun first => dots.map (first ++ ·) := by
      rw [isTwoDots] at isDots
      exact List.contains_iff_mem.1 isDots
    exact kept_of_unescape_segmentOf (readBack _ spelled)
  · intro dots
    rw [segmentOf, escapeWhere, ← kept, dots]
    decide

end ContextDb.Url
