import ContextDb.Json.Printer
import ContextDb.Proofs.Numerals
import ContextDb.Text.Split

/-!
# JSON in writing

A grammar of the texts of values: which characters stand in strings as they are, which ones
have escapes, how numbers are written and how elements and members are put together. The
text that is written for a value has this form, whatever the value.
-/

namespace ContextDb.Json

open Text
open Nat (toDigits)

/-! ## A grammar -/

/-- The letters that stand for a character after a backslash. -/
def letters : List (Char × Char) :=
  [('"', '"'), ('\\', '\\'), ('/', '/'), ('b', '\x08'), ('f', '\x0c'), ('n', '\n'), ('r', '\r'),
    ('t', '\t')]

/-- The written form of a character in a string: itself if it is visible and does not mean
anything else, a backslash and a letter, or its code in hexadecimal digits. -/
inductive SpellsChar (c : Char) : List Char → Prop
  | plain (visible : 0x20 ≤ c.toNat) (notQuote : c ≠ '"') (notBackslash : c ≠ '\\') :
      SpellsChar c [c]
  | letter {letter : Char} (standsFor : (letter, c) ∈ letters) : SpellsChar c ['\\', letter]
  | code {first second third fourth : Char} {w x y z : Nat}
      (firstValue : hexDigitValue? first = some w) (secondValue : hexDigitValue? second = some x)
      (thirdValue : hexDigitValue? third = some y) (fourthValue : hexDigitValue? fourth = some z)
      (isCode : c.toNat = ((w * 16 + x) * 16 + y) * 16 + z) :
      SpellsChar c ['\\', 'u', first, second, third, fourth]

/-- The written form of the characters of a string, one after the other. -/
inductive Spells : List Char → List Char → Prop
  | nil : Spells [] []
  | cons {c : Char} {piece rest text : List Char} (spellsChar : SpellsChar c piece)
      (spells : Spells rest text) : Spells (c :: rest) (piece ++ text)

/-- The written form of a number: an integer has its decimal digits and nothing else. -/
inductive WritesNumber : Number → List Char → Prop
  | natural (n : Nat) : WritesNumber (.int n) (toDigits 10 n)
  | negative {n : Nat} (positive : 0 < n) : WritesNumber (.int (-n)) ('-' :: toDigits 10 n)
  | float {x : Decimal.Binary64} {text : List Char} (writes : Decimal.Writes x text) :
      WritesNumber (.float x) text

/-- A member of an object with the written forms of its name and its value. -/
structure WrittenMember where
  name : String
  spelling : List Char
  value : Json
  text : List Char

/-- The written form of a member: name and value with a colon between them. -/
def WrittenMember.whole (member : WrittenMember) : List Char :=
  '"' :: member.spelling ++ '"' :: ':' :: member.text

/-- The written form of a value, without blanks and with its members in their order. -/
inductive Writes : Json → List Char → Prop
  | null : Writes .null ['n', 'u', 'l', 'l']
  | yes : Writes (.bool true) ['t', 'r', 'u', 'e']
  | no : Writes (.bool false) ['f', 'a', 'l', 's', 'e']
  | num {number : Number} {text : List Char} (writes : WritesNumber number text) :
      Writes (.num number) text
  | str {value : String} {spelling : List Char} (spells : Spells value.toList spelling) :
      Writes (.str value) ('"' :: spelling ++ ['"'])
  | arr {items : List (Json × List Char)} (each : ∀ item ∈ items, Writes item.1 item.2) :
      Writes (.arr (items.map (·.1))) ('[' :: joinWith [','] (items.map (·.2)) ++ [']'])
  | obj {members : List WrittenMember}
      (names : ∀ member ∈ members, Spells member.name.toList member.spelling)
      (values : ∀ member ∈ members, Writes member.value member.text) :
      Writes (.obj (members.map fun member => (member.name, member.value)))
        ('\x7b' :: joinWith [','] (members.map WrittenMember.whole) ++ ['\x7d'])

/-! ## Strings and numbers -/

theorem hexDigitValue?_lowerHexDigit :
    ∀ value < 16, hexDigitValue? (lowerHexDigit value) = some value := by
  decide

/-- The escape of a character is a written form of it. -/
theorem spellsChar_escapeChar (c : Char) : SpellsChar c (escapeChar c).toList := by
  rw [escapeChar]
  split_ifs with quote backslash visible newline carriage tab backspace feed
  · exact quote ▸ .letter (by decide)
  · exact backslash ▸ .letter (by decide)
  · rw [Char.toString, String.toList_singleton]
    exact .plain visible quote backslash
  · exact newline ▸ .letter (by decide)
  · exact carriage ▸ .letter (by decide)
  · exact tab ▸ .letter (by decide)
  · have isBackspace : c = '\x08' := Char.toNat_inj.1 backspace
    exact isBackspace ▸ .letter (by decide)
  · have isFeed : c = '\x0c' := Char.toNat_inj.1 feed
    exact isFeed ▸ .letter (by decide)
  · rw [String.toList_ofList]
    have zero : hexDigitValue? '0' = some 0 := by decide
    refine .code zero zero (hexDigitValue?_lowerHexDigit _ (by omega))
      (hexDigitValue?_lowerHexDigit _ (by omega)) ?_
    omega

/-- What is appended for a string is its written form between quotes. -/
theorem toList_writeText (text : String) :
    ∃ spelling, Spells text.toList spelling ∧ ∀ written,
      (writeText written text).toList = written.toList ++ ('"' :: spelling ++ ['"']) := by
  have appended : ∀ characters : List Char, ∃ spelling, Spells characters spelling ∧
      ∀ written, (characters.foldl (fun soFar c => soFar ++ escapeChar c) written).toList =
        written.toList ++ spelling := by
    intro characters
    induction characters with
    | nil => exact ⟨[], .nil, fun written => (List.append_nil _).symm⟩
    | cons c rest inductionHypothesis =>
      obtain ⟨spelling, spells, same⟩ := inductionHypothesis
      refine ⟨_, .cons (spellsChar_escapeChar c) spells, fun written => ?_⟩
      rw [List.foldl_cons, same, String.toList_append, List.append_assoc]
  obtain ⟨spelling, spells, same⟩ := appended text.toList
  refine ⟨spelling, spells, fun written => ?_⟩
  rw [writeText, String.toList_push, same, String.toList_push]
  simp

/-- The text of a number is a written form of it. -/
theorem writesNumber_render (number : Number) : WritesNumber number number.render.toList := by
  cases number with
  | float x => exact .float (Decimal.writes_render rfl x)
  | int value =>
    rw [Number.render, String.toList_ofList]
    cases value with
    | ofNat n => exact .natural n
    | negSucc n =>
      rw [if_pos (Int.negSucc_lt_zero n)]
      exact .negative (Nat.succ_pos n)

/-! ## Values -/

/-- Texts that follow each other, with a comma before all but the first. -/
def separated (first : Bool) (texts : List (List Char)) : List Char :=
  if first then joinWith [','] texts else texts.flatMap ([','] ++ ·)

theorem separated_nil (first : Bool) : separated first [] = [] := by
  cases first <;> rfl

theorem separated_cons (first : Bool) (text : List Char) (rest : List (List Char)) :
    separated first (text :: rest) =
      (if first then [] else [',']) ++ text ++ separated false rest := by
  cases first <;> simp [separated, joinWith]

/-- What is written with a comma behind it, if one is needed. -/
theorem toList_comma (written : String) (first : Bool) :
    (if first then written else written.push ',').toList =
      written.toList ++ if first then [] else [','] := by
  cases first <;> simp

/-- What is appended for a value is a written form of it. -/
def IsAppended (value : Json) : Prop :=
  ∃ text, Writes value text ∧
    ∀ written, (write written value).toList = written.toList ++ text

/-- Elements are appended one after the other. -/
theorem toList_writeItems {items : List Json} (each : ∀ item ∈ items, IsAppended item) :
    ∃ forms : List (Json × List Char), forms.map (·.1) = items ∧
      (∀ form ∈ forms, Writes form.1 form.2) ∧
      ∀ written first, (writeItems written first items).toList =
        written.toList ++ separated first (forms.map (·.2)) := by
  induction items with
  | nil =>
    refine ⟨[], rfl, by simp, fun written first => ?_⟩
    rw [writeItems, List.map_nil, separated_nil, List.append_nil]
  | cons item rest inductionHypothesis =>
    rw [List.forall_mem_cons] at each
    obtain ⟨⟨text, writes, appended⟩, others⟩ := each
    obtain ⟨forms, areItems, allWrite, follow⟩ := inductionHypothesis others
    refine ⟨(item, text) :: forms, by simp [areItems],
      List.forall_mem_cons.2 ⟨writes, allWrite⟩, fun written first => ?_⟩
    rw [writeItems, follow, appended, toList_comma, List.map_cons, separated_cons]
    simp

/-- Members are appended one after the other. -/
theorem toList_writeMembers {members : List (String × Json)}
    (each : ∀ member ∈ members, IsAppended member.2) :
    ∃ forms : List WrittenMember, (forms.map fun form => (form.name, form.value)) = members ∧
      (∀ form ∈ forms, Spells form.name.toList form.spelling) ∧
      (∀ form ∈ forms, Writes form.value form.text) ∧
      ∀ written first, (writeMembers written first members).toList =
        written.toList ++ separated first (forms.map WrittenMember.whole) := by
  induction members with
  | nil =>
    refine ⟨[], rfl, by simp, by simp, fun written first => ?_⟩
    rw [writeMembers, List.map_nil, separated_nil, List.append_nil]
  | cons member rest inductionHypothesis =>
    obtain ⟨name, value⟩ := member
    rw [List.forall_mem_cons] at each
    obtain ⟨⟨text, writes, appended⟩, others⟩ := each
    obtain ⟨forms, areMembers, allSpell, allWrite, follow⟩ := inductionHypothesis others
    obtain ⟨spelling, spells, named⟩ := toList_writeText name
    refine ⟨⟨name, spelling, value, text⟩ :: forms, by simp [areMembers],
      List.forall_mem_cons.2 ⟨spells, allSpell⟩, List.forall_mem_cons.2 ⟨writes, allWrite⟩,
      fun written first => ?_⟩
    rw [writeMembers, follow, appended, String.toList_push, named, toList_comma, List.map_cons,
      separated_cons]
    simp [WrittenMember.whole]

/-- Every value is appended in a form of its own. -/
theorem isAppended (value : Json) : IsAppended value := by
  induction value using induction_on_parts with
  | single value noMembers noItems =>
    cases value with
    | null => exact ⟨_, .null, fun written => by simp [write]⟩
    | bool flag =>
      cases flag with
      | true => exact ⟨_, .yes, fun written => by simp [write]⟩
      | false => exact ⟨_, .no, fun written => by simp [write]⟩
    | num number =>
      exact ⟨_, .num (writesNumber_render number), fun written => by simp [write]⟩
    | str text =>
      obtain ⟨spelling, spells, appended⟩ := toList_writeText text
      exact ⟨_, .str spells, fun written => by rw [write, appended]⟩
    | arr items => cases noItems
    | obj members => cases noMembers
  | array items each =>
    obtain ⟨forms, rfl, allWrite, follow⟩ := toList_writeItems each
    refine ⟨_, .arr allWrite, fun written => ?_⟩
    rw [write, String.toList_push, follow, String.toList_push]
    simp [separated]
  | object members each =>
    obtain ⟨forms, rfl, allSpell, allWrite, follow⟩ := toList_writeMembers each
    refine ⟨_, .obj allSpell allWrite, fun written => ?_⟩
    rw [write, String.toList_push, follow, String.toList_push]
    simp [separated]

/-- The text of a value is a written form of it. -/
theorem writes_render (value : Json) : Writes value value.render.toList := by
  obtain ⟨text, writes, appended⟩ := isAppended value
  rw [render, appended]
  exact writes

end ContextDb.Json
