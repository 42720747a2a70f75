import ContextDb.Proofs.Rounding

/-!
# Decimal numbers in writing

A grammar of decimal numbers with the numbers that they denote. However a number in double
precision is laid out, its text denotes a decimal number to which no other number in double
precision is nearer.
-/

namespace ContextDb.Decimal

open Nat (ofDigitChars toDigits)

/-! ## A grammar of decimal numbers -/

/-- The text consists of decimal digits and has at least one. -/
structure AreDigits (text : List Char) : Prop where
  nonempty : text ≠ []
  decimal : ∀ c ∈ text, c.isDigit = true

/-- A text with a point and digits behind it, or without both. -/
inductive IsFraction : List Char → List Char → Prop
  | absent : IsFraction [] []
  | present {digits : List Char} (areDigits : AreDigits digits) :
      IsFraction ('.' :: digits) digits

/-- A text with the mark of an exponent, its sign and its digits, or without all of them. -/
inductive IsExponent : List Char → ℤ → Prop
  | absent : IsExponent [] 0
  | positive {digits : List Char} (areDigits : AreDigits digits) :
      IsExponent ('e' :: '+' :: digits) (ofDigitChars 10 digits 0)
  | negative {digits : List Char} (areDigits : AreDigits digits) :
      IsExponent ('e' :: '-' :: digits) (-(ofDigitChars 10 digits 0 : ℤ))

/-- A text that is a decimal number without a sign, and the number. -/
inductive Denotes : List Char → ℚ → Prop
  | intro {whole fractionText fraction exponentText : List Char} {exponent : ℤ}
      (areDigits : AreDigits whole) (leading : whole.head? = some '0' → whole = ['0'])
      (isFraction : IsFraction fractionText fraction)
      (isExponent : IsExponent exponentText exponent) :
      Denotes (whole ++ fractionText ++ exponentText)
        (ofDigitChars 10 (whole ++ fraction) 0 * 10 ^ (exponent - fraction.length))

/-! ## Digits -/

theorem areDigits_toDigits (n : ℕ) : AreDigits (toDigits 10 n) where
  nonempty := Nat.toDigits_ne_nil
  decimal _ := Nat.isDigit_of_mem_toDigits (by decide) (by decide)

/-- Only zero is written with a zero in front. -/
theorem head?_toDigits {n : ℕ} (positive : 0 < n) : (toDigits 10 n).head? ≠ some '0' := by
  induction n using Nat.strongRecOn with
  | ind n inductionHypothesis =>
    rw [Nat.toDigits_eq_if (by decide)]
    split
    · rename_i small
      have digits : ∀ digit < 10, 0 < digit → Nat.digitChar digit ≠ '0' := by decide
      simpa using digits n small positive
    · rename_i large
      rw [List.head?_append_of_ne_nil _ Nat.toDigits_ne_nil]
      exact inductionHypothesis (n / 10) (by omega) (by omega)

/-- Digits with zeros behind them. -/
theorem ofDigitChars_append_zeros (digits : List Char) (count : ℕ) :
    ofDigitChars 10 (digits ++ List.replicate count '0') 0 =
      ofDigitChars 10 digits 0 * 10 ^ count := by
  rw [Nat.ofDigitChars_append, Nat.ofDigitChars_replicate_zero, mul_comm]

/-- Digits with zeros in front of them. -/
theorem ofDigitChars_zeros_append (digits : List Char) (count : ℕ) :
    ofDigitChars 10 (List.replicate count '0' ++ digits) 0 = ofDigitChars 10 digits 0 := by
  rw [Nat.ofDigitChars_append, Nat.ofDigitChars_replicate_zero, mul_zero]

/-- The digits of a number are what is left of them without trailing zeros, and those. -/
theorem toDigits_eq_append (n : ℕ) :
    ∃ count, toDigits 10 n =
      ((toDigits 10 n).reverse.dropWhile (· == '0')).reverse ++ List.replicate count '0' := by
  have zeros : ∀ c ∈ (toDigits 10 n).reverse.takeWhile (· == '0'), c = '0' := by
    intro c member
    simpa using List.all_eq_true.1 List.all_takeWhile c member
  refine ⟨((toDigits 10 n).reverse.takeWhile (· == '0')).length, ?_⟩
  rw [← List.reverse_replicate, ← List.eq_replicate_of_mem zeros, ← List.reverse_append,
    List.takeWhile_append_dropWhile, List.reverse_reverse]

/-- What is left of the digits of a positive number without trailing zeros: it begins like
the number, and with the zeros it is the number. -/
structure AreShortened (n : ℕ) (shortened : List Char × ℕ) : Prop where
  areDigits : AreDigits shortened.1
  leading : shortened.1.head? ≠ some '0'
  value : ofDigitChars 10 shortened.1 0 * 10 ^ shortened.2 = n

theorem areShortened_withoutTrailingZeros {n : ℕ} (positive : 0 < n) :
    AreShortened n (withoutTrailingZeros n) := by
  obtain ⟨count, parts⟩ := toDigits_eq_append n
  rw [withoutTrailingZeros]
  generalize ((toDigits 10 n).reverse.dropWhile (· == '0')).reverse = kept at *
  have leading := head?_toDigits positive
  have nonempty : kept ≠ [] := by
    rintro rfl
    rw [List.nil_append] at parts
    cases count with
    | zero => exact Nat.toDigits_ne_nil parts
    | succ count => simp [parts, List.replicate_succ] at leading
  have dropped : (toDigits 10 n).length - kept.length = count := by
    rw [parts]
    simp
  rw [if_neg (by simpa using nonempty), dropped]
  refine ⟨⟨nonempty, fun c member => ?_⟩, ?_, ?_⟩
  · exact (areDigits_toDigits n).decimal c (parts ▸ List.mem_append_left _ member)
  · rwa [parts, List.head?_append_of_ne_nil _ nonempty] at leading
  · rw [← ofDigitChars_append_zeros, ← parts]
    exact Nat.ofDigitChars_toDigits (by decide) (by decide)

/-! ## Layouts -/

theorem AreDigits.zeros_append {digits : List Char} (areDigits : AreDigits digits) (count : ℕ) :
    AreDigits (List.replicate count '0' ++ digits) where
  nonempty := List.append_ne_nil_of_right_ne_nil _ areDigits.nonempty
  decimal c member := by
    rcases List.mem_append.1 member with zero | digit
    · rw [List.eq_of_mem_replicate zero]
      rfl
    · exact areDigits.decimal c digit

theorem AreDigits.append_zeros {digits : List Char} (areDigits : AreDigits digits) (count : ℕ) :
    AreDigits (digits ++ List.replicate count '0') where
  nonempty := List.append_ne_nil_of_left_ne_nil areDigits.nonempty _
  decimal c member := by
    rcases List.mem_append.1 member with digit | zero
    · exact areDigits.decimal c digit
    · rw [List.eq_of_mem_replicate zero]
      rfl

/-- A part of digits that is not empty. -/
theorem AreDigits.of_sublist {digits part : List Char} (areDigits : AreDigits digits)
    (nonempty : part ≠ []) (isPart : part.Sublist digits) : AreDigits part :=
  ⟨nonempty, fun c member => areDigits.decimal c (isPart.subset member)⟩

theorem areDigits_zero : AreDigits ['0'] :=
  ⟨List.cons_ne_nil _ _, List.forall_mem_singleton.2 rfl⟩

theorem Denotes.congr {text other : List Char} {q r : ℚ} (denotes : Denotes text q)
    (sameText : other = text) (sameValue : r = q) : Denotes other r := by
  rwa [sameText, sameValue]

section

variable {digits : List Char} (areDigits : AreDigits digits) (leading : digits.head? ≠ some '0')
include areDigits

/-- Digits behind the point and behind some zeros. -/
theorem denotes_behind (count : ℕ) :
    Denotes (['0', '.'] ++ List.replicate count '0' ++ digits)
      (ofDigitChars 10 digits 0 * 10 ^ (-(count : ℤ) - digits.length)) := by
  refine (Denotes.intro areDigits_zero (fun _ => rfl)
    (.present (areDigits.zeros_append count)) .absent).congr (by simp) ?_
  have value := ofDigitChars_zeros_append digits (count + 1)
  rw [List.replicate_succ, List.cons_append] at value
  rw [List.singleton_append, value, List.length_append, List.length_replicate]
  congr 2
  push_cast
  ring

include leading

/-- Digits and some zeros before the point. -/
theorem denotes_before (count : ℕ) :
    Denotes (digits ++ List.replicate count '0' ++ ['.', '0'])
      (ofDigitChars 10 digits 0 * 10 ^ (count : ℤ)) := by
  have notZero : (digits ++ List.replicate count '0').head? ≠ some '0' := by
    rwa [List.head?_append_of_ne_nil _ areDigits.nonempty]
  refine (Denotes.intro (areDigits.append_zeros count) (fun isZero => absurd isZero notZero)
    (.present areDigits_zero) .absent).congr (by simp) ?_
  have value := ofDigitChars_append_zeros digits (count + 1)
  rw [List.replicate_succ', ← List.append_assoc] at value
  rw [value, zpow_natCast, List.length_singleton, zero_sub, Nat.cast_one, zpow_neg_one]
  push_cast
  rw [pow_succ]
  field_simp

/-- Digits before the point and digits behind it, with an exponent or without one. -/
theorem denotes_around {before : ℕ} (nonempty : 0 < before) (others : before < digits.length)
    {exponentText : List Char} {exponent : ℤ} (isExponent : IsExponent exponentText exponent) :
    Denotes (digits.take before ++ '.' :: digits.drop before ++ exponentText)
      (ofDigitChars 10 digits 0 * 10 ^ (exponent + before - digits.length)) := by
  have beforePoint : AreDigits (digits.take before) :=
    areDigits.of_sublist (by simp [areDigits.nonempty, nonempty.ne'])
      (List.take_sublist _ _)
  have behindPoint : AreDigits (digits.drop before) :=
    areDigits.of_sublist (by simp [others]) (List.drop_sublist _ _)
  have notZero : (digits.take before).head? ≠ some '0' := by
    rwa [List.head?_take, if_neg nonempty.ne']
  refine (Denotes.intro beforePoint (fun isZero => absurd isZero notZero)
    (.present behindPoint) isExponent).congr rfl ?_
  rw [List.take_append_drop, List.length_drop, Nat.cast_sub others.le]
  congr 2
  ring

/-- Digits with a point after a number of them. -/
theorem denotes_pointed (whole : ℤ) :
    Denotes (pointed digits whole)
      (ofDigitChars 10 digits 0 * 10 ^ (whole - digits.length)) := by
  rw [pointed]
  split
  · rename_i small
    refine (denotes_behind areDigits (-whole).toNat).congr rfl ?_
    rw [Int.toNat_of_nonneg (by omega), neg_neg]
  · split
    · rename_i positive fits
      refine (denotes_before areDigits leading (whole.toNat - digits.length)).congr rfl ?_
      congr 2
      omega
    · rename_i positive longer
      refine (denotes_around areDigits leading (by omega) (not_le.1 longer) .absent).congr
        (by simp) ?_
      congr 2
      omega

/-- Digits in scientific notation. -/
theorem denotes_scientific {layout : Layout} (signed : layout.signedExponent = true)
    (exponent : ℤ) :
    Denotes (scientific layout digits exponent)
      (ofDigitChars 10 digits 0 * 10 ^ (exponent + 1 - digits.length)) := by
  have magnitude : (ofDigitChars 10 (toDigits 10 exponent.natAbs) 0 : ℤ) = exponent.natAbs := by
    rw [Nat.ofDigitChars_toDigits (by decide) (by decide)]
  have isExponent : IsExponent
      ('e' :: ((if exponent < 0 then ['-'] else ['+']) ++ toDigits 10 exponent.natAbs))
        exponent := by
    split
    · have isNegative := IsExponent.negative (areDigits_toDigits exponent.natAbs)
      rwa [magnitude, show -(exponent.natAbs : ℤ) = exponent by omega] at isNegative
    · have isPositive := IsExponent.positive (areDigits_toDigits exponent.natAbs)
      rwa [magnitude, show (exponent.natAbs : ℤ) = exponent by omega] at isPositive
  unfold scientific
  rw [signed]
  cases digits with
  | nil => exact absurd rfl areDigits.nonempty
  | cons first others =>
    cases others with
    | nil =>
      refine (Denotes.intro areDigits (fun isZero => absurd isZero leading) .absent
        isExponent).congr (by simp) ?_
      simp
    | cons second rest =>
      refine (denotes_around areDigits leading Nat.one_pos (by simp) isExponent).congr
        (by simp) ?_
      simp

end

/-! ## Numbers in double precision -/

theorem isZero_iff {x : Binary64} : x.isZero = true ↔ x.significand = 0 := by
  have powers : Nat.pow 2 63 = 9223372036854775808 ∧ Nat.pow 2 52 = 4503599627370496 ∧
      Nat.pow 2 11 = 2048 := by decide
  simp only [Binary64.isZero, Binary64.significand, Binary64.exponentField, Binary64.fraction,
    powers, beq_iff_eq]
  split <;> omega

/-- The written form of a number in double precision: its sign and a decimal number to which
no other is nearer, and which is not written like an integer. -/
inductive Writes (x : Binary64) : List Char → Prop
  | intro {text : List Char} {q : ℚ} (denotes : Denotes text q)
      (fractional : '.' ∈ text ∨ 'e' ∈ text) (nearest : x.IsNearest q) :
      Writes x ((if x.isNegative then ['-'] else []) ++ text)

/-- Zero is written with one place. -/
theorem writes_zero {x : Binary64} (isZero : x.significand = 0) :
    Writes x ((if x.isNegative then ['-'] else []) ++ ['0', '.', '0']) := by
  have denotes : Denotes ['0', '.', '0'] 0 :=
    (Denotes.intro areDigits_zero (fun _ => rfl) (.present areDigits_zero) .absent).congr rfl
      (by simp [Nat.ofDigitChars_cons])
  refine .intro denotes (.inl (by simp)) fun y => ?_
  rw [Binary64.magnitude, isZero]
  simp

/-- No number is nearer to the shortest digits of a number. -/
theorem isNearest_shortest {x : Binary64} (nonzero : 0 < x.significand) :
    AreDigits (shortest x).1 ∧ (shortest x).1.head? ≠ some '0' ∧
      x.IsNearest (ofDigitChars 10 (shortest x).1 0 *
        10 ^ ((shortest x).2 + 1 - (shortest x).1.length)) := by
  obtain ⟨positive, nearest⟩ := isNearest_search nonzero
  rw [shortest]
  simp only at positive nearest ⊢
  generalize (Target.ofNumber x).search 18 (leadingExponent (Target.ofNumber x).value
    (Target.ofNumber x).denominator) = found at *
  obtain ⟨areDigits, leading, value⟩ := areShortened_withoutTrailingZeros positive
  generalize withoutTrailingZeros found.digits = shortened at *
  refine ⟨areDigits, leading, ?_⟩
  have exponents : found.exponent + shortened.2 + shortened.1.length - 1 + 1 -
      shortened.1.length = shortened.2 + found.exponent := by omega
  rw [exponents, zpow_add₀ (by norm_num), zpow_natCast, ← mul_assoc]
  rw [← value] at nearest
  exact_mod_cast nearest

/-- A number in double precision is written as a decimal number to which no other is nearer. -/
theorem writes_render {layout : Layout} (signed : layout.signedExponent = true) (x : Binary64) :
    Writes x (render layout x).toList := by
  rw [render]
  split
  · rename_i isZero
    rw [String.toList_ofList]
    exact writes_zero (isZero_iff.1 isZero)
  · rename_i isNotZero
    have nonzero : 0 < x.significand :=
      Nat.pos_of_ne_zero fun zero => isNotZero (isZero_iff.2 zero)
    obtain ⟨areDigits, leading, nearest⟩ := isNearest_shortest nonzero
    generalize shortest x = shortened at *
    simp only [String.toList_ofList]
    refine .intro ?_ ?_ nearest
    · split
      · exact denotes_pointed areDigits leading _
      · exact denotes_scientific areDigits leading signed _
    · split
      · left
        rw [pointed]
        split_ifs <;> simp
      · right
        simp [scientific]

end ContextDb.Decimal
