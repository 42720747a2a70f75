import ContextDb.Proofs.Escaping
import Mathlib.Data.List.Lex

/-!
# The order of bytes

Texts are in the order of their characters, and that is the order of the bytes that they
are written in.
-/

namespace ContextDb.Text

/-- Of two characters, the bytes of the lesser one come first, whatever follows. -/
theorem utf8EncodeChar_append_lt {c d : Char} (less : c < d) (rest others : List UInt8) :
    String.utf8EncodeChar c ++ rest < String.utf8EncodeChar d ++ others := by
  have lessCode : c.val.toNat < d.val.toNat := less
  have bound : d.val.toNat < 0x110000 :=
    d.valid.elim (fun small => Nat.lt_trans small (by decide)) And.right
  rw [String.utf8EncodeChar, String.utf8EncodeChar]
  generalize c.val.toNat = low at *
  generalize d.val.toNat = high at *
  -- Characters of different lengths differ in the first byte, those of one length in the
  -- first digit to the base 64 that differs.
  split_ifs <;>
    simp only [List.cons_append, List.cons_lt_cons_iff, UInt8.lt_iff_toNat_lt, ← UInt8.toNat_inj,
      UInt8.toNat_ofNat'] <;>
    simp (disch := omega) only [Nat.mod_eq_of_lt] <;>
    omega

theorem encode_lt_encode {first second : List Char} (less : first < second) :
    encode first < encode second := by
  induction first generalizing second with
  | nil =>
    cases second with
    | nil => exact absurd less (List.not_lt_nil _)
    | cons d others =>
      have nonempty : String.utf8EncodeChar d ≠ [] := String.utf8EncodeChar_ne_nil
      obtain ⟨byte, bytes, shape⟩ := List.exists_cons_of_ne_nil nonempty
      rw [encode_nil, encode_cons, shape]
      exact List.nil_lt_cons _ _
  | cons c rest inductionHypothesis =>
    cases second with
    | nil => exact absurd less (List.not_lt_nil _)
    | cons d others =>
      rw [encode_cons, encode_cons]
      rcases List.cons_lt_cons_iff.1 less with here | ⟨rfl, later⟩
      · exact utf8EncodeChar_append_lt here _ _
      · exact List.Lex.append_left _ (inductionHypothesis later) _

/-- The bytes of texts are in the order of the texts. -/
theorem bytesOf_lt_iff {first second : String} :
    bytesOf first < bytesOf second ↔ first < second := by
  rw [bytesOf_eq_encode, bytesOf_eq_encode]
  refine ⟨fun less => ?_, encode_lt_encode⟩
  by_cases behind : second < first
  · exact absurd (encode_lt_encode behind) (List.lt_asymm less)
  · refine Decidable.byContradiction fun notBefore => ?_
    have same : first = second :=
      String.le_antisymm (String.not_lt.1 behind) (String.not_lt.1 notBefore)
    exact List.lt_irrefl _ (same ▸ less)

end ContextDb.Text
