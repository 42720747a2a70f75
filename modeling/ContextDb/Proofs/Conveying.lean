import ContextDb.Http.Message
import ContextDb.Json.Reader
import ContextDb.Proofs.Rereading

/-!
# Bodies that convey values

A value is read back from every written form of it, with the members of its objects in order.
So the text that is written for a value conveys it: it has the form that values have in
writing and reads back as the value. The envelopes of answers are among these texts.
-/

namespace ContextDb.Json

open Text

/-! ## Values -/

mutual

/-- A value as it is read: the members of its objects in order, the last one of each name. -/
def ordered : Json → Json
  | .arr items => .arr (orderedItems items)
  | .obj members => .obj (canonicalMembers (orderedMembers members))
  | value => value

/-- The elements of an array as they are read. -/
def orderedItems : List Json → List Json
  | [] => []
  | item :: rest => ordered item :: orderedItems rest

/-- The members of an object as they are read, before they are put in order. -/
def orderedMembers : List (String × Json) → List (String × Json)
  | [] => []
  | (name, value) :: rest => (name, ordered value) :: orderedMembers rest

end

theorem orderedItems_eq_map (items : List Json) : orderedItems items = items.map ordered := by
  induction items with
  | nil => rfl
  | cons item rest inductionHypothesis => rw [orderedItems, inductionHypothesis, List.map_cons]

theorem orderedMembers_eq_map (members : List (String × Json)) :
    orderedMembers members = members.map fun member => (member.1, member.2.ordered) := by
  induction members with
  | nil => rfl
  | cons member rest inductionHypothesis =>
    rw [orderedMembers, inductionHypothesis, List.map_cons]

/-- Members that stand in order are read as they stand. -/
theorem canonicalMembers_of_lt {name other : String} (ascending : name < other)
    (value held : Json) :
    canonicalMembers [(name, value), (other, held)] = [(name, value), (other, held)] := by
  have notBefore : ¬ other < name := String.lt_asymm ascending
  have different : other ≠ name := fun same => String.lt_irrefl _ (same ▸ ascending)
  simp only [canonicalMembers, SortedMap.ofList, List.foldl_cons, List.foldl_nil,
    SortedMap.insert, SortedMap.empty, SortedMap.place, if_neg notBefore, if_neg different]

/-- Members that do not stand in order are put in order. -/
theorem canonicalMembers_of_gt {name other : String} (descending : other < name)
    (value held : Json) :
    canonicalMembers [(name, value), (other, held)] = [(other, held), (name, value)] := by
  simp only [canonicalMembers, SortedMap.ofList, List.foldl_cons, List.foldl_nil,
    SortedMap.insert, SortedMap.empty, SortedMap.place, if_pos descending]

/-- The value can be read from its written form: it is nested no deeper than that, and its
numbers are integers that fit. -/
inductive Readable : Nat → Json → Prop
  | null {depth : Nat} : Readable depth .null
  | bool {depth : Nat} {flag : Bool} : Readable depth (.bool flag)
  | int {depth : Nat} {value : Int} (fits : Fits value) : Readable depth (.num (.int value))
  | str {depth : Nat} {text : String} : Readable depth (.str text)
  | arr {depth : Nat} {items : List Json} (each : ∀ item ∈ items, Readable depth item) :
      Readable (depth + 1) (.arr items)
  | obj {depth : Nat} {members : List (String × Json)}
      (each : ∀ member ∈ members, Readable depth member.2) : Readable (depth + 1) (.obj members)

/-- A byte that begins a number. -/
def BeginsNumber (byte : UInt8) : Prop :=
  isDigit byte = true ∨ byte = 0x2D

theorem BeginsNumber.bounds {byte : UInt8} (begins : BeginsNumber byte) :
    0x2D ≤ byte.toNat ∧ byte.toNat ≤ 0x39 := by
  rcases begins with digit | rfl
  · simp only [isDigit, Bool.and_eq_true, decide_eq_true_eq, UInt8.le_iff_toNat_le] at digit
    exact ⟨Nat.le_trans (by decide) digit.1, digit.2⟩
  · decide

/-- A byte outside the range of those that begin numbers begins none. -/
theorem BeginsNumber.ne {byte other : UInt8} (begins : BeginsNumber byte)
    (outside : other.toNat < 0x2D ∨ 0x39 < other.toNat) : byte ≠ other := by
  have bounds := begins.bounds
  rintro rfl
  omega

theorem BeginsNumber.not_blank {byte : UInt8} (begins : BeginsNumber byte) :
    isBlank byte = false := by
  have noBlank : byte ≠ 0x20 ∧ byte ≠ 0x0A ∧ byte ≠ 0x0D ∧ byte ≠ 0x09 :=
    ⟨begins.ne (by decide), begins.ne (by decide), begins.ne (by decide), begins.ne (by decide)⟩
  simp [isBlank, noBlank]

/-- What begins a number begins no other value. -/
theorem BeginsNumber.no_other {byte : UInt8} (begins : BeginsNumber byte) :
    byte ≠ 0x22 ∧ byte ≠ 0x5B ∧ byte ≠ 0x7B ∧ byte ≠ 0x6E ∧ byte ≠ 0x74 ∧ byte ≠ 0x66 :=
  ⟨begins.ne (by decide), begins.ne (by decide), begins.ne (by decide), begins.ne (by decide),
    begins.ne (by decide), begins.ne (by decide)⟩

theorem exists_head_of_writesNumber {value : Int} {text : List Char}
    (writes : WritesNumber (.int value) text) :
    ∃ byte tail, encode text = byte :: tail ∧ BeginsNumber byte := by
  cases writes with
  | natural n =>
    obtain ⟨byte, tail, shape, digit⟩ := exists_head_of_toDigits n
    exact ⟨byte, tail, shape, .inl digit⟩
  | negative positive => exact ⟨_, _, rfl, .inr rfl⟩

/-- The first byte of a value: it is no blank and closes nothing. -/
theorem exists_head_of_writes {value : Json} {text : List Char} {depth : Nat}
    (writes : Writes value text) (readable : Readable depth value) :
    ∃ byte tail, encode text = byte :: tail ∧ isBlank byte = false ∧ byte ≠ 0x5D := by
  cases writes with
  | null | yes | no => exact ⟨_, _, rfl, by decide, by decide⟩
  | str spells => exact ⟨_, _, rfl, by decide, by decide⟩
  | arr each => exact ⟨_, _, rfl, by decide, by decide⟩
  | obj names values => exact ⟨_, _, rfl, by decide, by decide⟩
  | num writes =>
    cases readable with
    | int fits =>
      obtain ⟨byte, tail, shape, begins⟩ := exists_head_of_writesNumber writes
      exact ⟨byte, tail, shape, begins.not_blank, begins.ne (by decide)⟩

theorem skipBlank_cons {byte : UInt8} (notBlank : isBlank byte = false) (rest : List UInt8) :
    skipBlank (byte :: rest) = byte :: rest := by
  rw [skipBlank, List.dropWhile_cons_of_neg (by simp [notBlank])]

/-- A value is read from its written form, with enough fuel and up to where it stops. -/
def IsReadFrom (value : Json) (text : List Char) : Prop :=
  ∀ {fuel depth : Nat} {rest : List UInt8}, Readable depth value → 2 * text.length ≤ fuel →
    Stops rest → readValue? fuel depth (encode text ++ rest) = some (value.ordered, rest)

theorem exists_succ_of_head {text : List Char} {byte : UInt8} {tail : List UInt8} {fuel : Nat}
    (shape : encode text = byte :: tail) (enough : 2 * text.length ≤ fuel) :
    0 < text.length ∧ ∃ less, fuel = less + 1 := by
  cases text with
  | nil => cases shape
  | cons c text =>
    rw [List.length_cons] at enough
    exact ⟨Nat.succ_pos _, Nat.exists_eq_add_one_of_ne_zero (by omega)⟩

theorem isReadFrom_number {value : Int} {text : List Char}
    (writes : WritesNumber (.int value) text) : IsReadFrom (.num (.int value)) text := by
  intro fuel depth rest readable enough stops
  obtain ⟨byte, tail, shape, begins⟩ := exists_head_of_writesNumber writes
  obtain ⟨-, fuel, rfl⟩ := exists_succ_of_head shape enough
  have number : readNumber? (byte :: (tail ++ rest)) = some (.int value, rest) := by
    cases readable with
    | int fits =>
      rw [← List.cons_append, ← shape]
      exact readNumber?_of_writesNumber writes fits stops
  rw [shape, List.cons_append, readValue?, skipBlank_cons begins.not_blank]
  simp [begins.no_other, number]
  rfl

theorem isReadFrom_str {value : String} {text : List Char}
    (spells : Spells value.toList text) : IsReadFrom (.str value) ('"' :: text ++ ['"']) := by
  intro fuel depth rest readable enough stops
  obtain ⟨-, fuel, rfl⟩ := exists_succ_of_head rfl enough
  have quote : encode ('"' :: text ++ ['"']) ++ rest = 0x22 :: (encode text ++ 0x22 :: rest) := by
    rw [List.cons_append, encode_cons, encode_append, List.append_assoc, List.append_assoc]
    rfl
  rw [quote, readValue?, skipBlank_cons (by decide)]
  simp [readText?_of_spells spells]
  rfl

/-- The marks behind a value stop numbers. -/
theorem stops_of_mark {byte : UInt8} (isMark : byte = 0x2C ∨ byte = 0x5D ∨ byte = 0x7D)
    (rest : List UInt8) : Stops (byte :: rest) := by
  intro other isFirst
  cases isFirst
  rcases isMark with rfl | rfl | rfl <;> decide

/-- What follows an element or a member stops numbers. -/
theorem stops_separated (texts : List (List Char)) {byte : UInt8}
    (closes : byte = 0x5D ∨ byte = 0x7D) (rest : List UInt8) :
    Stops (encode (separated false texts) ++ byte :: rest) := by
  cases texts with
  | nil =>
    rw [separated_nil]
    exact stops_of_mark (.inr closes) rest
  | cons text texts =>
    rw [separated_cons]
    exact stops_of_mark (.inl rfl) _

/-- Elements are read one after the other up to the closing bracket. -/
theorem readItems?_of_separated {items : List (Json × List Char)} {depth : Nat}
    (each : ∀ item ∈ items, Writes item.1 item.2) (reads : ∀ item ∈ items, IsReadFrom item.1 item.2)
    (readable : ∀ item ∈ items, Readable depth item.1) (rest : List UInt8) :
    ∀ (first : Bool) (reversed : List Json) (fuel : Nat),
      2 * (separated first (items.map (·.2))).length < fuel →
      readItems? fuel depth first reversed
          (encode (separated first (items.map (·.2))) ++ 0x5D :: rest) =
        some (.arr (reversed.reverse ++ items.map (·.1.ordered)), rest) := by
  induction items with
  | nil =>
    intro first reversed fuel enough
    obtain ⟨fuel, rfl⟩ := Nat.exists_eq_add_one_of_ne_zero (Nat.ne_zero_of_lt enough)
    rw [List.map_nil, separated_nil, encode_nil, List.nil_append, readItems?,
      skipBlank_cons (by decide)]
    simp
  | cons item items inductionHypothesis =>
    intro first reversed fuel enough
    obtain ⟨fuel, rfl⟩ := Nat.exists_eq_add_one_of_ne_zero (Nat.ne_zero_of_lt enough)
    rw [List.forall_mem_cons] at each reads readable
    obtain ⟨byte, tail, shape, notBlank, notClosing⟩ :=
      exists_head_of_writes each.1 readable.1
    have nonempty := (exists_succ_of_head shape le_rfl).1
    rw [List.map_cons, separated_cons, List.length_append, List.length_append] at enough
    have value := reads.1 readable.1 (show 2 * item.2.length ≤ fuel by omega)
      (stops_separated (items.map (·.2)) (.inl rfl) rest)
    have others := inductionHypothesis each.2 reads.2 readable.2 false
      (item.1.ordered :: reversed) fuel (by omega)
    rw [shape, List.cons_append] at value
    rw [List.map_cons, separated_cons, encode_append, encode_append, List.append_assoc,
      List.append_assoc, shape, List.cons_append]
    cases first with
    | true =>
      rw [if_pos rfl, encode_nil, List.nil_append, readItems?, skipBlank_cons notBlank]
      simp only [beq_iff_eq, notClosing, if_false, if_true, value, others]
      simp
    | false =>
      have comma : encode [','] = [0x2C] := rfl
      rw [if_neg Bool.false_ne_true, comma, List.singleton_append, readItems?,
        skipBlank_cons (by decide)]
      simp [value, others]

theorem isReadFrom_arr {items : List (Json × List Char)}
    (each : ∀ item ∈ items, Writes item.1 item.2)
    (reads : ∀ item ∈ items, IsReadFrom item.1 item.2) :
    IsReadFrom (.arr (items.map (·.1))) ('[' :: joinWith [','] (items.map (·.2)) ++ [']']) := by
  intro fuel depth rest readable enough stops
  obtain ⟨-, fuel, rfl⟩ := exists_succ_of_head rfl enough
  rw [List.length_append, List.length_cons] at enough
  cases readable with
  | @arr depth _ inside =>
    have brackets : encode ('[' :: joinWith [','] (items.map (·.2)) ++ [']']) ++ rest =
        0x5B :: (encode (separated true (items.map (·.2))) ++ 0x5D :: rest) := by
      rw [List.cons_append, encode_cons, encode_append, List.append_assoc, List.append_assoc]
      rfl
    have read := readItems?_of_separated each reads
      (fun item listed => inside _ (List.mem_map_of_mem listed)) rest true [] fuel (by
        rw [separated, if_pos rfl]
        omega)
    rw [brackets, readValue?, skipBlank_cons (by decide)]
    simp [read, ordered, orderedItems_eq_map, Function.comp_def]

theorem encode_whole (member : WrittenMember) :
    encode member.whole =
      0x22 :: (encode member.spelling ++ 0x22 :: 0x3A :: encode member.text) := by
  rw [WrittenMember.whole, List.cons_append, encode_cons, encode_append]
  rfl

/-- Members are read one after the other up to the closing brace. -/
theorem readMembers?_of_separated {members : List WrittenMember} {depth : Nat}
    (names : ∀ member ∈ members, Spells member.name.toList member.spelling)
    (reads : ∀ member ∈ members, IsReadFrom member.value member.text)
    (readable : ∀ member ∈ members, Readable depth member.value) (rest : List UInt8) :
    ∀ (first : Bool) (reversed : List (String × Json)) (fuel : Nat),
      2 * (separated first (members.map WrittenMember.whole)).length < fuel →
      readMembers? fuel depth first reversed
          (encode (separated first (members.map WrittenMember.whole)) ++ 0x7D :: rest) =
        some (.obj (canonicalMembers (reversed.reverse ++
          members.map fun member => (member.name, member.value.ordered))), rest) := by
  induction members with
  | nil =>
    intro first reversed fuel enough
    obtain ⟨fuel, rfl⟩ := Nat.exists_eq_add_one_of_ne_zero (Nat.ne_zero_of_lt enough)
    rw [List.map_nil, separated_nil, encode_nil, List.nil_append, readMembers?,
      skipBlank_cons (by decide)]
    simp
  | cons member members inductionHypothesis =>
    intro first reversed fuel enough
    obtain ⟨fuel, rfl⟩ := Nat.exists_eq_add_one_of_ne_zero (Nat.ne_zero_of_lt enough)
    rw [List.forall_mem_cons] at names reads readable
    have length : member.text.length < member.whole.length := by
      simp only [WrittenMember.whole, List.length_append, List.length_cons]
      omega
    rw [List.map_cons, separated_cons, List.length_append, List.length_append] at enough
    have value := reads.1 readable.1 (show 2 * member.text.length ≤ fuel by omega)
      (stops_separated (members.map WrittenMember.whole) (.inr rfl) rest)
    have others := inductionHypothesis names.2 reads.2 readable.2 false
      ((member.name, member.value.ordered) :: reversed) fuel (by omega)
    have name := readText?_of_spells names.1 (0x3A :: (encode member.text ++
      (encode (separated false (members.map WrittenMember.whole)) ++ 0x7D :: rest)))
    have quote : isBlank 0x22 = false := by decide
    have colon : isBlank 0x3A = false := by decide
    rw [List.map_cons, separated_cons, encode_append, encode_append, List.append_assoc,
      List.append_assoc, encode_whole, List.cons_append, List.append_assoc, List.cons_append,
      List.cons_append]
    cases first with
    | true =>
      rw [if_pos rfl, encode_nil, List.nil_append, readMembers?, skipBlank_cons quote]
      simp [name, skipBlank_cons colon, value, others]
    | false =>
      have comma : encode [','] = [0x2C] := rfl
      rw [if_neg Bool.false_ne_true, comma, List.singleton_append, readMembers?,
        skipBlank_cons (by decide)]
      simp [skipBlank_cons quote, name, skipBlank_cons colon, value, others]

theorem isReadFrom_obj {members : List WrittenMember}
    (names : ∀ member ∈ members, Spells member.name.toList member.spelling)
    (reads : ∀ member ∈ members, IsReadFrom member.value member.text) :
    IsReadFrom (.obj (members.map fun member => (member.name, member.value)))
      ('\x7b' :: joinWith [','] (members.map WrittenMember.whole) ++ ['\x7d']) := by
  intro fuel depth rest readable enough stops
  obtain ⟨-, fuel, rfl⟩ := exists_succ_of_head rfl enough
  rw [List.length_append, List.length_cons] at enough
  cases readable with
  | @obj depth _ inside =>
    have braces : encode ('\x7b' :: joinWith [','] (members.map WrittenMember.whole) ++
        ['\x7d']) ++ rest =
        0x7B :: (encode (separated true (members.map WrittenMember.whole)) ++ 0x7D :: rest) := by
      rw [List.cons_append, encode_cons, encode_append, List.append_assoc, List.append_assoc]
      rfl
    have read := readMembers?_of_separated names reads
      (fun member listed => inside _ (List.mem_map_of_mem listed)) rest true [] fuel (by
        rw [separated, if_pos rfl]
        omega)
    rw [braces, readValue?, skipBlank_cons (by decide)]
    simp [read, ordered, orderedMembers_eq_map, Function.comp_def]

/-- A value is read from every written form of it. -/
theorem isReadFrom_of_writes {value : Json} {text : List Char} (writes : Writes value text) :
    IsReadFrom value text := by
  induction writes with
  | null | yes | no =>
    intro fuel depth rest readable enough stops
    obtain ⟨-, fuel, rfl⟩ := exists_succ_of_head rfl enough
    rw [encode_cons_of_ascii (by decide), List.cons_append, readValue?, skipBlank_cons (by decide)]
    rfl
  | @num number text writes =>
    cases number with
    | int value => exact isReadFrom_number writes
    | float x =>
      intro fuel depth rest readable
      cases readable
  | str spells => exact isReadFrom_str spells
  | arr each reads => exact isReadFrom_arr each reads
  | obj names values reads => exact isReadFrom_obj names reads

/-- A text has at least as many bytes as characters. -/
theorem length_le_length_encode (text : List Char) : text.length ≤ (encode text).length := by
  induction text with
  | nil => exact le_rfl
  | cons c text inductionHypothesis =>
    have positive : 0 < (String.utf8EncodeChar c).length :=
      List.length_pos_iff.2 String.utf8EncodeChar_ne_nil
    rw [encode_cons, List.length_append, List.length_cons]
    omega

/-- A written value is read back with the members of its objects in order. -/
theorem read?_of_writes {value : Json} {text : List Char} (writes : Writes value text)
    (readable : Readable maxDepth value) : read? (encode text) = some value.ordered := by
  have short := length_le_length_encode text
  have stops : Stops [] := fun _ none => by cases none
  have read := isReadFrom_of_writes writes readable
    (show 2 * text.length ≤ 2 * (encode text).length + 2 by omega) stops
  rw [List.append_nil] at read
  rw [read?, readWithin?, read]
  rfl

/-! ## Bodies -/

/-- The bytes are the text of a value: the one that is written for it, in the form that a
value has in writing, and read back as the value. -/
structure Conveys (body : ByteArray) (value : Json) : Prop where
  printed : body = value.render.toUTF8
  written : ∃ text : String, body = text.toUTF8 ∧ Writes value text.toList
  read : Readable maxDepth value → read? body.data.toList = some value.ordered

theorem conveys_render (value : Json) : Conveys value.render.toUTF8 value where
  printed := rfl
  written := ⟨value.render, rfl, writes_render value⟩
  read readable := by
    rw [← bytesOf, bytesOf_eq_encode]
    exact read?_of_writes (writes_render value) readable

/-! ## Envelopes -/

/-- The body tells that all went well and gives a result, and tells nothing else. Around the
result it takes one of the levels to which values may be nested. -/
structure Delivers (body : ByteArray) (result : Json) : Prop where
  conveys : Conveys body (.obj [("status", .str "ok"), ("result", result)])
  read : Readable 126 result → read? body.data.toList =
    some (.obj [("result", result.ordered), ("status", .str "ok")])

/-- The body tells that something failed, under which code and with which message, and
tells nothing else. -/
structure Reports (body : ByteArray) (code message : String) : Prop where
  conveys : Conveys body (.obj [("status", .str "error"),
    ("error", .obj [("code", .str code), ("message", .str message)])])
  read : read? body.data.toList =
    some (.obj [("error", .obj [("code", .str code), ("message", .str message)]),
      ("status", .str "error")])

theorem delivers_render (result : Json) :
    Delivers (Http.okBody result).render.toUTF8 result where
  conveys := conveys_render _
  read readable := by
    have within : Readable maxDepth (Http.okBody result) :=
      .obj (by simp [Readable.str, readable])
    have descending : "result" < "status" := by decide +kernel
    rw [(conveys_render _).read within]
    simp only [Http.okBody, ordered, orderedMembers, canonicalMembers_of_gt descending]

theorem reports_render (code message : String) :
    Reports (Http.errorBody code message).render.toUTF8 code message where
  conveys := conveys_render _
  read := by
    have within : Readable maxDepth (Http.errorBody code message) :=
      .obj (by simp [Readable.str, Readable.obj])
    have ascending : "code" < "message" := by decide +kernel
    have descending : "error" < "status" := by decide +kernel
    rw [(conveys_render _).read within]
    simp only [Http.errorBody, ordered, orderedMembers, canonicalMembers_of_lt ascending,
      canonicalMembers_of_gt descending]

/-- The answer to an error reports it. -/
theorem reports_ofError (error : Error) :
    Reports (Http.Response.ofError error).body error.code.name error.message :=
  reports_render _ _

end ContextDb.Json
