import ContextDb.Decimal.Plain
import ContextDb.Proofs.Escaping
import ContextDb.Proofs.Guarding

/-!
# Timed responses

The header with the handling time holds one number, whatever the answer it is put on and
whichever headers that has. It is put on every answer that passes the gate or is given
there, so exactly the questions what is allowed, which are answered further out, go
without.
-/

namespace ContextDb

open Text

/-! ## Numbers without a sign -/

namespace Decimal

/-- Digits, with a point between two of them or without one. -/
inductive IsUnsigned : List Char → Prop
  | whole {digits : List Char} (nonempty : digits ≠ [])
      (decimal : ∀ c ∈ digits, c.isDigit = true) : IsUnsigned digits
  | pointed {before behind : List Char} (nonemptyBefore : before ≠ [])
      (nonemptyBehind : behind ≠ []) (decimal : ∀ c ∈ before ++ behind, c.isDigit = true) :
      IsUnsigned (before ++ '.' :: behind)

/-- What is left without trailing zeros are digits, at least one. -/
theorem digits_withoutTrailingZeros (n : Nat) :
    (withoutTrailingZeros n).1 ≠ [] ∧ ∀ c ∈ (withoutTrailingZeros n).1, c.isDigit = true := by
  rw [withoutTrailingZeros]
  split
  · exact ⟨List.cons_ne_nil _ _, List.forall_mem_singleton.2 rfl⟩
  · rename_i nonempty
    refine ⟨by simpa using nonempty, fun c member => ?_⟩
    have kept : c ∈ (Nat.toDigits 10 n).reverse :=
      (List.dropWhile_sublist _).subset (List.mem_reverse.1 member)
    exact Nat.isDigit_of_mem_toDigits (by decide) (by decide) (List.mem_reverse.1 kept)

/-- The shortest digits of a number are digits, at least one. -/
theorem digits_shortest (x : Binary64) :
    (shortest x).1 ≠ [] ∧ ∀ c ∈ (shortest x).1, c.isDigit = true :=
  digits_withoutTrailingZeros _

/-- Digits that are filled up with zeros are a number, wherever the point is. -/
theorem isUnsigned_spread {digits : List Char} (nonempty : digits ≠ [])
    (decimal : ∀ c ∈ digits, c.isDigit = true) (whole : Int) :
    IsUnsigned (spread digits whole) := by
  have zeros : ∀ count, ∀ c ∈ List.replicate count '0', c.isDigit = true := by
    intro count c member
    rw [List.eq_of_mem_replicate member]
    rfl
  rw [spread]
  split
  · -- All digits stand behind the point.
    change IsUnsigned (['0'] ++ '.' :: (List.replicate (-whole).toNat '0' ++ digits))
    refine .pointed (List.cons_ne_nil _ _) (List.append_ne_nil_of_right_ne_nil _ nonempty)
      fun c member => ?_
    rcases List.mem_append.1 member with before | behind
    · exact zeros 1 c before
    · exact (List.mem_append.1 behind).elim (zeros _ c) (decimal c)
  · rename_i positive
    split
    · refine .whole (List.append_ne_nil_of_left_ne_nil nonempty _) fun c member => ?_
      exact (List.mem_append.1 member).elim (decimal c) (zeros _ c)
    · rename_i longer
      rw [List.append_assoc, List.singleton_append]
      refine .pointed (fun empty => ?_) (fun empty => ?_) fun c member => ?_
      · rw [List.take_eq_nil_iff] at empty
        rcases empty with none | empty
        · omega
        · exact nonempty empty
      · rw [List.drop_eq_nil_iff] at empty
        exact longer empty
      · rw [List.take_append_drop] at member
        exact decimal c member

/-- A finite number that is not negative is written as a number without a sign. -/
theorem isUnsigned_plain {x : Binary64} (finite : x.isFinite = true)
    (notNegative : x.isNegative = false) : IsUnsigned (plain x).toList := by
  rw [plain]
  simp only [finite, notNegative, Bool.not_true, Bool.false_eq_true, if_false, List.nil_append]
  split
  · exact .whole (List.cons_ne_nil _ _) (List.forall_mem_singleton.2 rfl)
  · obtain ⟨nonempty, decimal⟩ := digits_shortest x
    rw [String.toList_ofList]
    exact isUnsigned_spread nonempty decimal _

/-- The characters of a number are digits and the point. -/
theorem IsUnsigned.digit_or_point {text : List Char} (unsigned : IsUnsigned text) {c : Char}
    (member : c ∈ text) : c.isDigit = true ∨ c = '.' := by
  cases unsigned with
  | whole _ decimal => exact .inl (decimal c member)
  | pointed _ _ decimal =>
    rcases List.mem_append.1 member with before | behind
    · exact .inl (decimal c (List.mem_append_left _ before))
    · rcases List.mem_cons.1 behind with rfl | behind
      · exact .inr rfl
      · exact .inl (decimal c (List.mem_append_right _ behind))

/-- The characters of a number lie between the point and the digit nine. -/
theorem IsUnsigned.bounds {text : List Char} (unsigned : IsUnsigned text) {c : Char}
    (member : c ∈ text) : 0x2E ≤ c.toNat ∧ c.toNat ≤ 0x39 := by
  rcases unsigned.digit_or_point member with digit | rfl
  · simp only [Char.isDigit, Bool.and_eq_true, decide_eq_true_eq, ge_iff_le, UInt32.le_iff_toNat_le]
      at digit
    obtain ⟨least, most⟩ := digit
    exact ⟨Nat.le_trans (by decide) least, most⟩
  · decide

/-- A number can be the value of a header. -/
theorem IsUnsigned.isHeaderValue {text : List Char} (unsigned : IsUnsigned text) :
    Http.isHeaderValue (encode text) = true := by
  refine List.all_eq_true.2 fun byte member => ?_
  obtain ⟨c, inText, inBytes⟩ := List.mem_flatMap.1 member
  obtain ⟨least, most⟩ := unsigned.bounds inText
  have ascii : c.toNat < 0x80 := by omega
  rw [utf8EncodeChar_of_ascii ascii, List.mem_singleton] at inBytes
  have value : byte.toNat = c.toNat := by
    rw [inBytes, UInt8.toNat_ofNat']
    omega
  simp only [Bool.or_eq_true, Bool.and_eq_true, decide_eq_true_eq, bne_iff_ne, ne_eq,
    UInt8.le_iff_toNat_le, ← UInt8.toNat_inj, value]
  right
  constructor
  · exact Nat.le_trans (by decide) least
  · exact fun same => by
      have tooGreat : c.toNat = 0x7F := same
      omega

end Decimal

/-! ## Headers by name -/

namespace Http

variable {headers : Headers} {name : String}

theorem values_append (headers others : Headers) (name : String) :
    (headers ++ others).values name = headers.values name ++ others.values name := by
  simp [Headers.values]

/-- A header that is set has the value that it is set to, and no other. -/
theorem values_put (headers : Headers) (set : String × List UInt8) :
    (headers.put set).values set.1 = [set.2] := by
  have gone : (headers.filter (·.1 ≠ set.1)).filter (·.1 = set.1) = [] := by
    simp [List.filter_filter]
  rw [Headers.put, values_append, Headers.values, gone]
  simp [Headers.values]

/-- A header that occurs under no name has no value. -/
theorem values_eq_nil (absent : name ∉ headers.map (·.1)) : headers.values name = [] := by
  rw [Headers.values, List.map_eq_nil_iff, List.filter_eq_nil_iff]
  intro header member
  have different : header.1 ≠ name := fun same =>
    absent (same ▸ List.mem_map_of_mem (f := Prod.fst) member)
  simpa using different

end Http

/-! ## The time of a response -/

namespace Server

open Http Decimal

/-- A response says how long it took: one header, and a number in it. -/
def IsTimed (response : Response) : Prop :=
  ∃ seconds : String, IsUnsigned seconds.toList ∧
    response.headers.values "x-process-time" = [bytesOf seconds]

/-- What is said about other origins is no time. -/
theorem values_origins (origins : Origins) (request : Headers) :
    (origins.headers request).values "x-process-time" = [] := by
  refine values_eq_nil ?_
  rw [Origins.headers]
  split <;> simp [header]

theorem values_echoed {asked answered : String} (different : answered ≠ "x-process-time")
    (request : Headers) : (echoed request asked answered).values "x-process-time" = [] := by
  refine values_eq_nil ?_
  rw [echoed]
  split
  · simpa using different.symm
  · decide

/-- The answer to a question what is allowed says no time. -/
theorem values_preflight (origins : Origins) (request : Headers) (path : String) :
    (origins.preflight request ++ Application.announced path).values "x-process-time" = [] := by
  have announces : (Application.announced path).values "x-process-time" = [] := by
    refine values_eq_nil ?_
    rw [Application.announced]
    split
    · decide
    · split <;> simp [header]
  rw [values_append, announces, Origins.preflight, values_append, values_append, values_origins,
    values_echoed (by decide), values_echoed (by decide)]
  rfl

namespace Application

variable {application : Application} {elapsed : String}

/-- An answer that is stamped has the time that it is stamped with, and no other. -/
theorem values_stamp (unsigned : IsUnsigned elapsed.toList) (response : Response) :
    (stamp elapsed response).headers.values "x-process-time" = [bytesOf elapsed] := by
  have legal : isHeaderValue (timeHeader elapsed).2 = true := by
    have bytes : (timeHeader elapsed).2 = encode elapsed.toList := bytesOf_eq_encode elapsed
    rw [bytes]
    exact unsigned.isHeaderValue
  rw [stamp, if_pos legal]
  exact values_put response.headers (timeHeader elapsed)

/-- Whatever the answer is, it leaves the application with its time. -/
theorem isTimed_finish (unsigned : IsUnsigned elapsed.toList) (request : Request)
    (answer : Response × Store) : IsTimed (application.finish elapsed request answer).1 := by
  refine ⟨elapsed, unsigned, ?_⟩
  have headers : (application.finish elapsed request answer).1.headers =
      (stamp elapsed answer.1).headers ++
        (Origins.ofConfig application.config).headers request.headers := by
    rw [finish, Rest.Response.forMethod]
    split <;> rfl
  rw [headers, values_append, values_stamp unsigned, values_origins, List.append_nil]

/-- The answer to a question what is allowed has no time. -/
theorem not_isTimed_of_options {request : Request} (isOptions : request.method = "OPTIONS")
    (context : Rest.Context) (elapsed : String) (store : Store) :
    ¬ IsTimed (application.respond context elapsed request store).1 := by
  rintro ⟨seconds, _, timed⟩
  rw [respond, if_pos isOptions] at timed
  cases (values_preflight _ request.headers request.path).symm.trans timed

/-- The responses that say how long they took are those to requests with another method
than `OPTIONS`, whatever the application and the store: the rules for other origins answer
that method before the time is measured. Every answer from further in gets the time, be it
that of a handler, the one for a handler that broke off, or a refusal. -/
theorem timed_iff_not_options {seconds : Binary64} (finite : seconds.isFinite = true)
    (notNegative : seconds.isNegative = false) (application : Application)
    (context : Rest.Context) (request : Request) (store : Store) :
    (IsTimed (application.respond context (plain seconds) request store).1 ↔
      request.method ≠ "OPTIONS") ∧
    ∀ answer, IsTimed (application.finish (plain seconds) request answer).1 := by
  have unsigned := isUnsigned_plain finite notNegative
  refine ⟨⟨fun timed isOptions => ?_, fun notOptions => ?_⟩, isTimed_finish unsigned request⟩
  · exact not_isTimed_of_options isOptions context _ store timed
  · rw [respond_eq_finish notOptions]
    exact isTimed_finish unsigned request _

/-- A request without the secret is turned away with the time that it took, and so is one
whose handler breaks off. -/
theorem refusal_is_timed :
    let seconds : Binary64 := .ofRatio false 1 8192
    let request : Request := { keyedRequest with headers := [] }
    seconds.isFinite = true ∧ seconds.isNegative = false ∧
    IsTimed ((⟨keyed, some acknowledge⟩ : Application).respond ⟨keyed, ⟨1, ⟨0⟩⟩, 0⟩
      (plain seconds) request (Store.empty 0)).1 ∧
    IsTimed ((⟨keyed, some acknowledge⟩ : Application).finish (plain seconds) request
      (.ofPanic .other, Store.empty 0)).1 := by
  intro seconds request
  have finite : seconds.isFinite = true := by decide +kernel
  have notNegative : seconds.isNegative = false := by decide +kernel
  have timed := timed_iff_not_options finite notNegative ⟨keyed, some acknowledge⟩
    ⟨keyed, ⟨1, ⟨0⟩⟩, 0⟩ request (Store.empty 0)
  exact ⟨finite, notNegative, timed.1.2 (by decide), timed.2 _⟩

/-- A request of a browser that asks what is allowed at the mount path. -/
def preflightRequest : Request where
  method := "OPTIONS"
  path := "/mcp"
  query := none
  headers := [("origin", bytesOf "http://a.example")]
  body := ByteArray.empty

/-- It is answered without a time. -/
theorem preflight_is_not_timed :
    build Config.default (some acknowledge) = .ok ⟨Config.default, some acknowledge⟩ ∧
    ¬ IsTimed ((⟨Config.default, some acknowledge⟩ : Application).respond
      ⟨Config.default, ⟨1, ⟨0⟩⟩, 0⟩ (plain (.ofRatio false 1 8192)) preflightRequest
      (Store.empty 0)).1 :=
  ⟨rfl, not_isTimed_of_options rfl _ _ _⟩

end Application

end Server

end ContextDb
