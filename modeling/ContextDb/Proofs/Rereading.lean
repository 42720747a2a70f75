import ContextDb.Json.Lexical
import ContextDb.Proofs.Escaping
import ContextDb.Proofs.Printing

/-!
# Reading written words

Strings and integers are read back from every written form that they have: a string with all
its characters, whichever of them are escaped, and an integer of 64 bits up to where its
digits end.
-/

namespace ContextDb.Json

open Text
open Nat (toDigits ofDigitChars)

/-! ## Strings -/

/-- An ASCII character in front is one byte in front. -/
theorem encode_cons_of_ascii {c : Char} (ascii : c.toNat < 0x80) (text : List Char) :
    encode (c :: text) = UInt8.ofNat c.toNat :: encode text := by
  rw [encode_cons, utf8EncodeChar_of_ascii ascii, List.singleton_append]

/-- A byte that stands for itself in a string. -/
def IsPlain (byte : UInt8) : Prop :=
  0x20 ≤ byte ∧ byte ≠ 0x22 ∧ byte ≠ 0x5C

/-- The bytes of other characters than ASCII ones are beyond ASCII. -/
theorem le_of_mem_utf8EncodeChar {c : Char} (notAscii : 0x80 ≤ c.toNat) {byte : UInt8}
    (member : byte ∈ String.utf8EncodeChar c) : 0x80 ≤ byte.toNat := by
  have code : 0x80 ≤ c.val.toNat := notAscii
  rw [String.utf8EncodeChar] at member
  generalize c.val.toNat = code at *
  split_ifs at member <;>
    simp only [List.mem_cons, List.not_mem_nil, or_false] at member
  · omega
  all_goals
    rcases member with rfl | rfl | rfl | rfl
    all_goals
      rw [UInt8.toNat_ofNat']
      omega

/-- A character that stands for itself has bytes that stand for themselves. -/
theorem isPlain_of_mem_utf8EncodeChar {c : Char} (visible : 0x20 ≤ c.toNat)
    (notQuote : c ≠ '"') (notBackslash : c ≠ '\\') {byte : UInt8}
    (member : byte ∈ String.utf8EncodeChar c) : IsPlain byte := by
  simp only [IsPlain, UInt8.le_iff_toNat_le, ne_eq, ← UInt8.toNat_inj]
  rcases Nat.lt_or_ge c.toNat 0x80 with ascii | notAscii
  · rw [utf8EncodeChar_of_ascii ascii, List.mem_singleton] at member
    have code : byte.toNat = c.toNat := by
      rw [member, UInt8.toNat_ofNat']
      omega
    rw [code]
    exact ⟨visible, fun same => notQuote (Char.toNat_inj.1 same),
      fun same => notBackslash (Char.toNat_inj.1 same)⟩
  · have beyond := le_of_mem_utf8EncodeChar notAscii member
    refine ⟨Nat.le_trans (by decide) beyond, fun same => ?_, fun same => ?_⟩
    · exact absurd (same ▸ beyond) (by decide)
    · exact absurd (same ▸ beyond) (by decide)

/-- Bytes that stand for themselves are collected. -/
theorem readBytes?_append_of_plain {bytes : List UInt8} (plain : ∀ byte ∈ bytes, IsPlain byte)
    (reversed rest : List UInt8) :
    readBytes? reversed (bytes ++ rest) = readBytes? (bytes.reverse ++ reversed) rest := by
  induction bytes generalizing reversed with
  | nil => rfl
  | cons byte bytes inductionHypothesis =>
    rw [List.forall_mem_cons] at plain
    obtain ⟨⟨visible, notQuote, notBackslash⟩, others⟩ := plain
    have notControl : ¬ byte < 0x20 := UInt8.not_lt.2 visible
    rw [List.cons_append, readBytes?.eq_def]
    simp only [beq_iff_eq, notQuote, notBackslash, notControl, if_false]
    rw [inductionHypothesis others, List.reverse_cons, List.append_assoc]
    rfl

/-- A hexadecimal digit is a single byte with its value. -/
theorem encode_cons_of_hexDigit {c : Char} {value : Nat} (digit : hexDigitValue? c = some value)
    (text : List Char) :
    ∃ byte, encode (c :: text) = byte :: encode text ∧ hexValue? byte = some value := by
  rw [hexDigitValue?] at digit
  split at digit
  · rename_i ascii
    exact ⟨_, encode_cons_of_ascii ascii text, digit⟩
  · cases digit

/-- The code of a character is not half of a surrogate pair. -/
theorem not_surrogate (c : Char) : ¬ (0xD800 ≤ c.toNat ∧ c.toNat ≤ 0xDFFF) := by
  have valid := c.valid
  rintro ⟨least, most⟩
  rcases valid with small | ⟨large, _⟩
  · exact absurd least (Nat.not_le.2 small)
  · exact absurd most (Nat.not_le.2 large)

/-- A letter after a backslash is read as what it stands for. -/
theorem readBytes?_of_letter {letter escaped : UInt8} (notCode : letter ≠ 0x75)
    (standsFor : escapedByte? letter = some escaped) (reversed rest : List UInt8) :
    readBytes? reversed (0x5C :: letter :: rest) = readBytes? (escaped :: reversed) rest := by
  have notQuote : (0x5C : UInt8) ≠ 0x22 := by decide
  rw [readBytes?.eq_def]
  simp only [beq_iff_eq, notQuote, notCode, standsFor, if_true, if_false]

/-- A code after a backslash is read as its character. -/
theorem readBytes?_of_code {first second third fourth : UInt8} {c : Char}
    (isCode : fourDigits? first second third fourth = some c.toNat)
    (reversed rest : List UInt8) :
    readBytes? reversed (0x5C :: 0x75 :: first :: second :: third :: fourth :: rest) =
      readBytes? ((String.utf8EncodeChar c).reverse ++ reversed) rest := by
  have notQuote : (0x5C : UInt8) ≠ 0x22 := by decide
  have notSurrogate := not_surrogate c
  have notLow : ¬ (0xDC00 ≤ c.toNat ∧ c.toNat ≤ 0xDFFF) := by omega
  have notHigh : ¬ (0xD800 ≤ c.toNat ∧ c.toNat ≤ 0xDBFF) := by omega
  rw [readBytes?.eq_def]
  simp only [beq_iff_eq, notQuote, isCode, Bool.and_eq_true, decide_eq_true_eq, notLow, notHigh,
    if_true, if_false, reversedBytes, Char.ofNat_toNat]

/-- A written character is read as its bytes. -/
theorem readBytes?_of_spellsChar {c : Char} {piece : List Char} (spells : SpellsChar c piece)
    (reversed rest : List UInt8) :
    readBytes? reversed (encode piece ++ rest) =
      readBytes? ((String.utf8EncodeChar c).reverse ++ reversed) rest := by
  have backslash : ∀ text, encode ('\\' :: text) = 0x5C :: encode text := fun _ => rfl
  cases spells with
  | plain visible notQuote notBackslash =>
    rw [encode_cons, encode_nil, List.append_nil]
    exact readBytes?_append_of_plain
      (fun byte => isPlain_of_mem_utf8EncodeChar visible notQuote notBackslash) _ _
  | @letter letter standsFor =>
    have table : ∀ pair ∈ letters, pair.1.toNat < 0x80 ∧ pair.2.toNat < 0x80 ∧
        UInt8.ofNat pair.1.toNat ≠ 0x75 ∧
        escapedByte? (UInt8.ofNat pair.1.toNat) = some (UInt8.ofNat pair.2.toNat) := by
      decide
    obtain ⟨asciiLetter, ascii, notCode, escaped⟩ := table _ standsFor
    rw [backslash, encode_cons_of_ascii asciiLetter, encode_nil, utf8EncodeChar_of_ascii ascii]
    exact readBytes?_of_letter notCode escaped reversed rest
  | @code a b d e w x y z firstValue secondValue thirdValue fourthValue isCode =>
    obtain ⟨first, firstByte, firstValue⟩ := encode_cons_of_hexDigit firstValue [b, d, e]
    obtain ⟨second, secondByte, secondValue⟩ := encode_cons_of_hexDigit secondValue [d, e]
    obtain ⟨third, thirdByte, thirdValue⟩ := encode_cons_of_hexDigit thirdValue [e]
    obtain ⟨fourth, fourthByte, fourthValue⟩ := encode_cons_of_hexDigit fourthValue []
    have mark : ∀ text, encode ('u' :: text) = 0x75 :: encode text := fun _ => rfl
    rw [backslash, mark, firstByte, secondByte, thirdByte, fourthByte, encode_nil]
    refine readBytes?_of_code ?_ reversed rest
    simp only [fourDigits?, firstValue, secondValue, thirdValue, fourthValue, isCode]
    rfl

/-- A written string is read up to its closing quote. -/
theorem readBytes?_of_spells {characters text : List Char} (spells : Spells characters text)
    (reversed rest : List UInt8) :
    readBytes? reversed (encode text ++ 0x22 :: rest) =
      some (reversed.reverse ++ encode characters, rest) := by
  induction spells generalizing reversed with
  | nil =>
    rw [encode_nil, List.nil_append, List.append_nil, readBytes?.eq_def]
    rfl
  | cons spellsChar _ inductionHypothesis =>
    rw [encode_append, List.append_assoc, readBytes?_of_spellsChar spellsChar,
      inductionHypothesis, encode_cons]
    simp

/-- A written string is read as the string. -/
theorem readText?_of_spells {value : String} {text : List Char}
    (spells : Spells value.toList text) (rest : List UInt8) :
    readText? (encode text ++ 0x22 :: rest) = some (value, rest) := by
  rw [readText?, readBytes?_of_spells spells]
  simp only [List.reverse_nil, List.nil_append, Option.bind_eq_bind, Option.bind_some,
    decode?_encode, String.ofList_toList]
  rfl

/-! ## Numbers -/

/-- Bytes with which no number goes on. -/
def Stops (rest : List UInt8) : Prop :=
  ∀ byte ∈ rest.head?, isDigit byte = false ∧ byte ≠ 0x2E ∧ byte ≠ 0x65 ∧ byte ≠ 0x45

theorem bounds_of_isDigit {c : Char} (digit : c.isDigit = true) :
    0x30 ≤ c.toNat ∧ c.toNat ≤ 0x39 :=
  Char.isDigit_iff_toNat.1 digit

theorem toNat_ofNat_of_isDigit {c : Char} (digit : c.isDigit = true) :
    (UInt8.ofNat c.toNat).toNat = c.toNat := by
  have bounds := bounds_of_isDigit digit
  rw [UInt8.toNat_ofNat']
  omega

theorem encode_cons_of_isDigit {c : Char} (digit : c.isDigit = true) (text : List Char) :
    encode (c :: text) = UInt8.ofNat c.toNat :: encode text := by
  have bounds := bounds_of_isDigit digit
  exact encode_cons_of_ascii (by omega) text

/-- The bytes of digits are digits. -/
theorem isDigit_of_mem_encode {digits : List Char} (decimal : ∀ c ∈ digits, c.isDigit = true)
    {byte : UInt8} (member : byte ∈ encode digits) : isDigit byte = true := by
  induction digits with
  | nil => cases member
  | cons c digits inductionHypothesis =>
    rw [List.forall_mem_cons] at decimal
    rw [encode_cons_of_isDigit decimal.1, List.mem_cons] at member
    rcases member with rfl | later
    · have bounds := bounds_of_isDigit decimal.1
      simp only [isDigit, Bool.and_eq_true, decide_eq_true_eq, UInt8.le_iff_toNat_le,
        toNat_ofNat_of_isDigit decimal.1]
      exact bounds
    · exact inductionHypothesis decimal.2 later

theorem length_encode_of_isDigit {digits : List Char} (decimal : ∀ c ∈ digits, c.isDigit = true) :
    (encode digits).length = digits.length := by
  induction digits with
  | nil => rfl
  | cons c digits inductionHypothesis =>
    rw [List.forall_mem_cons] at decimal
    rw [encode_cons_of_isDigit decimal.1, List.length_cons, List.length_cons,
      inductionHypothesis decimal.2]

/-- A number ends where it stops. -/
theorem takeWhile_isDigit {rest : List UInt8} (stops : Stops rest) :
    rest.takeWhile isDigit = [] ∧ rest.dropWhile isDigit = rest := by
  cases rest with
  | nil => exact ⟨rfl, rfl⟩
  | cons byte rest =>
    have notDigit := (stops byte rfl).1
    simp [notDigit]

/-- The digits of a natural number are read as its whole part. -/
theorem readWhole?_of_toDigits (n : Nat) {rest : List UInt8} (stops : Stops rest) :
    readWhole? (encode (toDigits 10 n) ++ rest) = some (encode (toDigits 10 n), rest) := by
  have decimal := (Decimal.areDigits_toDigits n).decimal
  obtain ⟨taken, dropped⟩ := takeWhile_isDigit stops
  have digits : (encode (toDigits 10 n) ++ rest).takeWhile isDigit = encode (toDigits 10 n) := by
    rw [List.takeWhile_append_of_pos fun byte => isDigit_of_mem_encode decimal, taken,
      List.append_nil]
  have behind : (encode (toDigits 10 n) ++ rest).dropWhile isDigit = rest := by
    rw [List.dropWhile_append_of_pos fun byte => isDigit_of_mem_encode decimal, dropped]
  simp only [readWhole?, digits, behind]
  cases shape : toDigits 10 n with
  | nil => exact absurd shape Nat.toDigits_ne_nil
  | cons c others =>
    rw [shape, List.forall_mem_cons] at decimal
    rw [encode_cons_of_isDigit decimal.1]
    simp only [Bool.and_eq_true, Bool.not_eq_true', beq_iff_eq]
    refine if_neg fun leading => ?_
    rcases Nat.eq_zero_or_pos n with rfl | positive
    · -- Zero has no other digits.
      rw [Nat.toDigits_zero, List.cons.injEq] at shape
      rw [← shape.2] at leading
      simp at leading
    · have code := congrArg UInt8.toNat leading.1
      rw [toNat_ofNat_of_isDigit decimal.1] at code
      have isZero : c = '0' := Char.toNat_inj.1 code
      exact Decimal.head?_toDigits positive (by rw [shape, isZero]; rfl)

/-- Without a point and an exponent, a number is its whole part. -/
theorem readNumeral?_of_whole {negative : Bool} {input whole rest : List UInt8}
    (reads : readWhole? input = some (whole, rest)) (stops : Stops rest)
    (sign : ∀ byte ∈ input.head?, byte ≠ 0x2D) :
    readNumeral? (if negative then 0x2D :: input else input) =
      some (⟨negative, whole, [], none⟩, rest) := by
  have noFraction : readFraction? rest = some ([], rest) := by
    unfold readFraction?
    split
    · exact absurd rfl (stops _ rfl).2.1
    · rfl
  have noExponent : readExponent? rest = some (none, rest) := by
    unfold readExponent?
    split
    · rename_i byte rest
      have marks := (stops byte rfl).2.2
      simp [marks]
    · rfl
  unfold readNumeral?
  cases negative with
  | true => simp [reads, noFraction, noExponent]
  | false =>
    cases input with
    | nil => simp [reads, noFraction, noExponent]
    | cons byte input => simp [sign byte rfl, reads, noFraction, noExponent]

/-- The value of digits is collected as long as it fits. -/
theorem absorb_encode {digits : List Char} (decimal : ∀ c ∈ digits, c.isDigit = true)
    {significand : Nat} (fits : ofDigitChars 10 digits significand ≤ maxUnsigned) (taken : Nat) :
    absorb significand taken (encode digits) =
      (ofDigitChars 10 digits significand, taken + digits.length) := by
  induction digits generalizing significand taken with
  | nil => rfl
  | cons c digits inductionHypothesis =>
    rw [List.forall_mem_cons] at decimal
    have digit : (UInt8.ofNat c.toNat).toNat - 0x30 = c.toNat - '0'.toNat := by
      rw [toNat_ofNat_of_isDigit decimal.1]
      rfl
    have extended : significand * 10 + ((UInt8.ofNat c.toNat).toNat - 0x30) =
        10 * significand + (c.toNat - '0'.toNat) := by
      rw [digit, Nat.mul_comm]
    rw [Nat.ofDigitChars_cons] at fits ⊢
    have fitsSoFar : 10 * significand + (c.toNat - '0'.toNat) ≤ maxUnsigned := by
      refine le_trans ?_ fits
      rw [Nat.ofDigitChars_eq_ofDigitChars_zero]
      exact Nat.le_add_right_of_le (Nat.le_mul_of_pos_left _ (by positivity))
    rw [encode_cons_of_isDigit decimal.1, absorb]
    simp only [extended]
    rw [if_pos fitsSoFar, inductionHypothesis decimal.2 fits, List.length_cons]
    congr 1
    omega

/-- The value of the digits of a natural number that fits. -/
theorem value?_of_toDigits {n : Nat} (fits : n ≤ maxUnsigned) (negative : Bool) :
    Numeral.value? ⟨negative, encode (toDigits 10 n), [], none⟩ =
      if !negative then some (.int n)
      else if n = 0 || Nat.pow 2 63 < n then
        some (.float ((Decimal.Binary64.ofNat n).withSign true))
      else some (.int (-n)) := by
  have decimal := (Decimal.areDigits_toDigits n).decimal
  have value : ofDigitChars 10 (toDigits 10 n) 0 = n :=
    Nat.ofDigitChars_toDigits (by decide) (by decide)
  have absorbed := absorb_encode decimal (value.symm ▸ fits) 0
  have length := length_encode_of_isDigit decimal
  rw [value, Nat.zero_add] at absorbed
  simp [Numeral.value?, absorbed, length]

/-- An integer of 64 bits, signed or not. -/
def Fits (value : Int) : Prop :=
  -(Nat.pow 2 63 : Int) ≤ value ∧ value < (Nat.pow 2 64 : Int)

/-- The digits of a number begin with one. -/
theorem exists_head_of_toDigits (n : Nat) :
    ∃ byte tail, encode (toDigits 10 n) = byte :: tail ∧ isDigit byte = true := by
  have areDigits := Decimal.areDigits_toDigits n
  cases shape : toDigits 10 n with
  | nil => exact absurd shape areDigits.nonempty
  | cons c digits =>
    rw [shape] at areDigits
    have isFirst := areDigits.decimal c List.mem_cons_self
    refine ⟨_, _, encode_cons_of_isDigit isFirst digits, ?_⟩
    exact isDigit_of_mem_encode areDigits.decimal
      (encode_cons_of_isDigit isFirst digits ▸ List.mem_cons_self)

/-- The digits of a number are read as its parts, whatever the sign. -/
theorem readNumeral?_of_toDigits (n : Nat) (negative : Bool) {rest : List UInt8}
    (stops : Stops rest) :
    readNumeral? (if negative then 0x2D :: (encode (toDigits 10 n) ++ rest)
      else encode (toDigits 10 n) ++ rest) =
      some (⟨negative, encode (toDigits 10 n), [], none⟩, rest) := by
  refine readNumeral?_of_whole (readWhole?_of_toDigits n stops) stops fun byte isFirst => ?_
  obtain ⟨first, tail, shape, digit⟩ := exists_head_of_toDigits n
  rw [shape, List.cons_append, List.head?_cons, Option.mem_some_iff] at isFirst
  rintro rfl
  rw [isFirst] at digit
  cases digit

/-- A written integer is read as the integer if it fits. -/
theorem readNumber?_of_writesNumber {value : Int} {text : List Char}
    (writes : WritesNumber (.int value) text) (fits : Fits value) {rest : List UInt8}
    (stops : Stops rest) : readNumber? (encode text ++ rest) = some (.int value, rest) := by
  obtain ⟨least, most⟩ := fits
  have powers : Nat.pow 2 63 = 9223372036854775808 ∧ Nat.pow 2 64 = 18446744073709551616 := by
    decide
  simp only [powers] at least most
  cases writes with
  | natural n =>
    have small : n ≤ maxUnsigned := by
      simp only [maxUnsigned, powers]
      omega
    have numeral := readNumeral?_of_toDigits n false stops
    simp only [Bool.false_eq_true, if_false] at numeral
    simp [readNumber?, numeral, value?_of_toDigits small false]
  | @negative n positive =>
    have small : n ≤ maxUnsigned := by
      simp only [maxUnsigned, powers]
      omega
    have notLarge : ¬ Nat.pow 2 63 < n := by
      simp only [powers]
      omega
    have minus : encode ('-' :: toDigits 10 n) = 0x2D :: encode (toDigits 10 n) := rfl
    have numeral := readNumeral?_of_toDigits n true stops
    simp only [if_true] at numeral
    have value := value?_of_toDigits small true
    simp only [Bool.not_true, Bool.false_eq_true, if_false, positive.ne', decide_false, notLarge,
      Bool.or_self] at value
    simp [readNumber?, minus, numeral, value]

end ContextDb.Json
