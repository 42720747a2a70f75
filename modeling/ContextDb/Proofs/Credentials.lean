import ContextDb.Gate

/-!
# Credentials

Which credential a request presents, and when the gate takes two secrets to be the
same: if their digests are.
-/

namespace ContextDb

open Http Text

/-! ## Comparing digests -/

namespace Digest

theorem length_bigEndian (value count : Nat) : (bigEndian value count).length = count := by
  induction count with
  | zero => rfl
  | succ count inductionHypothesis => rw [bigEndian, List.length_cons, inductionHypothesis]

/-- All digests have the same length. -/
theorem length_digest (bytes : List UInt8) : (digest bytes).length = 32 := by
  simp [digest, State.bytes, length_bigEndian]

example : (digest (bytesOf "abc")).take 4 = [0xba, 0x78, 0x16, 0xbf] := by decide +kernel

end Digest

/-- Nothing is left of differences that are collected exactly if there are none. -/
theorem foldl_or_eq_zero_iff {start : UInt8} {differences : List UInt8} :
    differences.foldl (· ||| ·) start = 0 ↔
      start = 0 ∧ ∀ difference ∈ differences, difference = 0 := by
  induction differences generalizing start with
  | nil => simp
  | cons difference others inductionHypothesis =>
    rw [List.foldl_cons, inductionHypothesis, UInt8.or_eq_zero_iff, List.forall_mem_cons, and_assoc]

/-- Bytes of the same length without differences are the same. -/
theorem forall_xor_eq_zero_iff {first second : List UInt8}
    (sameLength : first.length = second.length) :
    (∀ difference ∈ List.zipWith (· ^^^ ·) first second, difference = 0) ↔ first = second := by
  induction first generalizing second with
  | nil =>
    cases second with
    | nil => simp
    | cons other others => cases sameLength
  | cons byte bytes inductionHypothesis =>
    cases second with
    | nil => cases sameLength
    | cons other others =>
      rw [List.zipWith_cons_cons, List.forall_mem_cons, UInt8.xor_eq_zero_iff,
        inductionHypothesis (Nat.succ.inj sameLength), List.cons.injEq]

/-- Secrets are taken to be the same exactly if their digests are. -/
theorem Gate.sameSecret_iff {first second : List UInt8} :
    sameSecret first second = true ↔ Digest.digest first = Digest.digest second := by
  have sameLength : (Digest.digest first).length = (Digest.digest second).length := by
    rw [Digest.length_digest, Digest.length_digest]
  rw [sameSecret, beq_iff_eq, foldl_or_eq_zero_iff, forall_xor_eq_zero_iff sameLength]
  exact and_iff_right rfl

/-! ## Credentials -/

/-- What a request presents as its credential: the first value of its key header if it
is not empty, and else what the first authorization has after the literal word. -/
inductive Presents (headers : Headers) (credential : List UInt8) : Prop
  | direct (found : headers.get? "x-api-key" = some credential) (nonempty : credential ≠ [])
  | bearer (noDirect : ∀ value, headers.get? "x-api-key" = some value → value = [])
      (found : headers.get? "authorization" = some (bytesOf "Bearer " ++ credential))
      (nonempty : credential ≠ [])

theorem Gate.bearer?_eq_some_iff {value credential : List UInt8} :
    bearer? value = some credential ↔ value = bytesOf "Bearer " ++ credential := by
  unfold bearer?
  simp only [List.isPrefixOf_iff_prefix]
  constructor
  · intro found
    split at found
    · rename_i starts
      cases found
      exact (List.prefix_iff_eq_append.1 starts).symm
    · cases found
  · rintro rfl
    rw [if_pos (List.prefix_append _ _), List.drop_left]

theorem presents_iff {headers : Headers} {credential : List UInt8} :
    Presents headers credential ↔ Gate.presented? headers = some credential := by
  rw [Gate.presented?]
  constructor
  · intro presents
    cases presents with
    | direct found nonempty => simp [found, nonempty]
    | bearer noDirect found nonempty =>
      have noKey : (headers.get? "x-api-key").filter (!·.isEmpty) = none := by
        cases key : headers.get? "x-api-key" with
        | none => rfl
        | some value => simp [noDirect value key]
      rw [noKey, Option.orElse_none, found, Option.bind_some, Gate.bearer?_eq_some_iff.2 rfl]
      simp [nonempty]
  · intro presented
    cases key : (headers.get? "x-api-key").filter (!·.isEmpty) with
    | some value =>
      rw [key] at presented
      cases presented
      obtain ⟨found, nonempty⟩ := Option.filter_eq_some_iff.1 key
      exact .direct found (by simpa using nonempty)
    | none =>
      rw [key, Option.orElse_none] at presented
      obtain ⟨found, nonempty⟩ := Option.filter_eq_some_iff.1 presented
      obtain ⟨value, isValue, isBearer⟩ := Option.bind_eq_some_iff.1 found
      rw [Gate.bearer?_eq_some_iff] at isBearer
      refine .bearer (fun direct isDirect => ?_) (isBearer ▸ isValue) (by simpa using nonempty)
      simpa [isDirect] using key

end ContextDb
