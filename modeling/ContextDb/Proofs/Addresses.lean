import ContextDb.Bridge.Basic
import ContextDb.Proofs.Forms
import ContextDb.Proofs.SortedMap
import Mathlib.Data.List.TakeWhile

/-!
# Addresses read back

The address of a resource is read as the name that stands in it and the arguments of
its query, if the name is made of letters, digits and underscores. Names with other
characters are read with escapes.
-/

namespace ContextDb.Bridge

open Text Url

variable {c : Char} {text name : List Char}

/-- Whether a character is a letter, a digit or an underscore. -/
def isWord (c : Char) : Bool :=
  c.isAlphanum || c = '_'

/-- The address of a resource with arguments. -/
def addressOf (id : String) (pairs : List (String × String)) : String :=
  Capability.Action.addressPrefix ++ id ++ "?" ++ formEncode pairs

/-- Such a character stands for itself in a form. -/
theorem isFormPlain_of_isWord (word : isWord c = true) : isFormPlain c = true := by
  simp only [isWord, Bool.or_eq_true, decide_eq_true_eq] at word
  rcases word with isAlphanum | rfl
  · simp [isFormPlain, isAlphanum]
  · decide

theorem ne_of_isWord {mark : Char} (word : isWord c = true) (other : isWord mark = false) :
    c ≠ mark := by
  rintro rfl
  rw [word] at other
  cases other

/-! ## Nothing to trim, to drop or to escape -/

/-- Where no character is skipped, trimming leaves a text as it is. -/
theorem trimBy_of_none {skip : Char → Bool} (none : ∀ c ∈ text, skip c = false) :
    trimBy skip text = text := by
  have untouched : ∀ text : List Char,
      (∀ c ∈ text, skip c = false) → text.dropWhile skip = text := by
    intro text none
    cases text with
    | nil => rfl
    | cons c text => simp [none c List.mem_cons_self]
  rw [trimBy, untouched text none, untouched text.reverse, List.reverse_reverse]
  exact fun c member => none c (List.mem_reverse.1 member)

/-- Where no character is dropped or escaped, a text is written as it is. -/
theorem escapeWhere_of_none {escaped : Char → Bool}
    (none : ∀ c ∈ text, isDropped c = false ∧ escaped c = false) :
    escapeWhere escaped text = text := by
  have allKept : text.filter (!isDropped ·) = text :=
    List.filter_eq_self.2 fun c member => by simp [(none c member).1]
  have single : ∀ c ∈ text, (if escaped c then escapeChar c else [c]) = [c] := by
    intro c member
    simp [(none c member).2]
  rw [escapeWhere, allKept, List.flatMap_def, List.map_congr_left single, ← List.flatMap_def,
    List.flatMap_singleton']

/-- No blank is dropped or trimmed. -/
theorem visible_of_bound (bound : 0x20 < c.toNat) : isPadding c = false ∧ isDropped c = false := by
  constructor
  · simp only [isPadding, decide_eq_false_iff_not]
    omega
  · simp only [isDropped, Bool.or_eq_false_iff, decide_eq_false_iff_not]
    refine ⟨⟨?_, ?_⟩, ?_⟩
    all_goals
      rintro rfl
      revert bound
      decide

/-- Nothing of a word is dropped or escaped in a path. -/
theorem kept_of_isWord (word : isWord c = true) :
    isDropped c = false ∧ isPathEscaped c = false := by
  obtain ⟨low, high⟩ := bounds_of_isFormPlain (isFormPlain_of_isWord word)
  have notControl : isControl c = false := by
    simp only [isControl, Bool.or_eq_false_iff, decide_eq_false_iff_not]
    omega
  have others : [' ', '"', '<', '>', '`', '#', '?', '\x7b', '\x7d'].all (!isWord ·) = true := by
    decide
  have notListed : c ∉ [' ', '"', '<', '>', '`', '#', '?', '\x7b', '\x7d'] := by
    intro listed
    have notWord := List.all_eq_true.1 others c listed
    rw [word] at notWord
    cases notWord
  refine ⟨(visible_of_bound low).2, ?_⟩
  rwa [isPathEscaped, notControl, Bool.false_or, ← Bool.not_eq_true, List.contains_iff_mem]

/-- A word is no spelling of dots. -/
theorem no_dots_of_words (words : ∀ c ∈ name, isWord c = true) :
    isOneDot name = false ∧ isTwoDots name = false := by
  have notSpelled : ∀ spellings : List (List Char),
      (∀ spelling ∈ spellings, ∃ c ∈ spelling, isWord c = false) →
        spellings.contains name = false := by
    intro spellings others
    rw [← Bool.not_eq_true, List.contains_iff_mem]
    intro listed
    obtain ⟨c, member, other⟩ := others name listed
    exact ne_of_isWord (words c member) other rfl
  have dotted : ∀ spelling ∈ dots, ∃ c ∈ spelling, isWord c = false := by
    have decided : (dots.all (·.any (!isWord ·))) = true := by decide
    simpa using decided
  refine ⟨notSpelled dots dotted, notSpelled _ fun spelling member => ?_⟩
  obtain ⟨first, inDots, behind⟩ := List.mem_flatMap.1 member
  obtain ⟨second, _, rfl⟩ := List.mem_map.1 behind
  obtain ⟨c, inFirst, other⟩ := dotted first inDots
  exact ⟨c, List.mem_append_left _ inFirst, other⟩

/-- A name of letters, digits and underscores is a path by itself. -/
theorem readPath_of_words (words : ∀ c ∈ name, isWord c = true) :
    readPath ('/' :: name) = '/' :: name := by
  have plain : ∀ c ∈ '/' :: name, isDropped c = false ∧ isPathEscaped c = false := by
    intro c member
    rcases List.mem_cons.1 member with rfl | inName
    · decide
    · exact kept_of_isWord (words c inName)
  have slashless : '/' ∉ name := fun member => ne_of_isWord (words _ member) (by decide) rfl
  obtain ⟨notDot, notDots⟩ := no_dots_of_words words
  have start : addSegment [] [] true = ['/'] := by decide
  have last : addSegment ['/'] name false = '/' :: name := by
    simp [addSegment, notDot, notDots]
  rw [readPath, escapeWhere_of_none plain, pieces_cons, if_pos rfl, pieces_of_not_mem slashless]
  simp only [List.head?_cons, if_true, List.isEmpty_cons, Bool.false_eq_true, if_false, addSegments,
    start, last]

/-! ## Reading an address -/

/-- What stands behind the scheme. -/
theorem afterScheme?_resource (rest : List Char) :
    afterScheme? ("resource:".toList ++ rest) = some rest := by
  have cut : cutAt? ':' ("resource".toList ++ ':' :: rest) = some ("resource".toList, rest) :=
    cutAt?_append_cons (by decide) rest
  have isScheme : "resource".toList.map Char.toLower = "resource".toList := by decide
  have split : "resource:".toList ++ rest = "resource".toList ++ ':' :: rest := rfl
  rw [afterScheme?, split, cut]
  exact if_pos isScheme

/-- What stands behind the host. -/
theorem afterAuthority?_openviking (rest : List Char) :
    afterAuthority? ("//openviking".toList ++ '/' :: rest) = some ('/' :: rest) := by
  have noEnd : ∀ c ∈ "openviking".toList, (!endsAuthority c) = true := by simp [endsAuthority]
  have host : ("openviking".toList ++ '/' :: rest).takeWhile (!endsAuthority ·) =
      "openviking".toList := by
    rw [List.takeWhile_append_of_pos noEnd]
    simp [endsAuthority]
  have behind :
      ("openviking".toList ++ '/' :: rest).dropWhile (!endsAuthority ·) = '/' :: rest := by
    rw [List.dropWhile_append_of_pos noEnd]
    simp [endsAuthority]
  have split : dropPrefix? ['/', '/'] ("//openviking".toList ++ '/' :: rest) =
      some ("openviking".toList ++ '/' :: rest) := rfl
  have isHost : afterHost? (withoutUser "openviking".toList) = some [] := by decide
  rw [afterAuthority?, split]
  simp only
  rw [host, behind, isHost]
  rfl

/-- The parts of an address. -/
theorem toList_addressOf (id : String) (pairs : List (String × String)) :
    (addressOf id pairs).toList = "resource:".toList ++ ("//openviking".toList ++
      '/' :: (id.toList ++ '?' :: (formEncode pairs).toList)) := by
  simp [addressOf, Capability.Action.addressPrefix]

/-- In a form there are no blanks and nothing that begins a fragment. -/
theorem visible_of_mem_formEncode {pairs : List (String × String)}
    (member : c ∈ (formEncode pairs).toList) : 0x20 < c.toNat ∧ c ≠ '#' := by
  rcases mem_formEncode member with mark | rfl | rfl
  · simp only [isFormMark, Bool.or_eq_true, decide_eq_true_eq] at mark
    rcases mark with (plain | rfl) | rfl
    · refine ⟨(bounds_of_isFormPlain plain).1, ?_⟩
      rintro rfl
      cases plain
    · decide
    · decide
  · decide
  · decide

/-- Behind the host of an address there are no blanks and nothing that begins a fragment. -/
theorem visible_behind_host (words : ∀ c ∈ name, isWord c = true)
    {pairs : List (String × String)}
    (member : c ∈ '/' :: (name ++ '?' :: (formEncode pairs).toList)) :
    0x20 < c.toNat ∧ c ≠ '#' := by
  rcases List.mem_cons.1 member with rfl | inside
  · decide
  · rcases List.mem_append.1 inside with inName | behind
    · have word := words c inName
      exact ⟨(bounds_of_isFormPlain (isFormPlain_of_isWord word)).1, ne_of_isWord word (by decide)⟩
    · rcases List.mem_cons.1 behind with rfl | inQuery
      · decide
      · exact visible_of_mem_formEncode inQuery

/-- From the address of a word nothing is trimmed and nothing is dropped. -/
theorem trimmed_addressOf {id : String} (words : ∀ c ∈ id.toList, isWord c = true)
    (pairs : List (String × String)) :
    (trimBy isPadding (addressOf id pairs).toList).filter (!isDropped ·) =
      (addressOf id pairs).toList := by
  have fixed : ∀ c ∈ "resource:".toList ++ "//openviking".toList, 0x20 < c.toNat := by simp
  have visible : ∀ c ∈ (addressOf id pairs).toList, isPadding c = false ∧ isDropped c = false := by
    intro c member
    refine visible_of_bound ?_
    rw [toList_addressOf, ← List.append_assoc] at member
    rcases List.mem_append.1 member with isFixed | behind
    · exact fixed c isFixed
    · exact (visible_behind_host words behind).1
  rw [trimBy_of_none fun c member => (visible c member).1]
  exact List.filter_eq_self.2 fun c member => by simp [(visible c member).2]

/-- Behind the slashes of a path there is the word that it ends with. -/
theorem dropSlashes_of_words (words : ∀ c ∈ name, isWord c = true) :
    ('/' :: name).dropWhile (· == '/') = name := by
  cases name with
  | nil => rfl
  | cons c others =>
    have different : c ≠ '/' := ne_of_isWord (words c List.mem_cons_self) (by decide)
    simp [different]

/-- The address of a resource with arguments is read as its name and these arguments. -/
theorem ofAddress?_addressOf {id : String} (nonempty : id ≠ "")
    (words : ∀ c ∈ id.toList, isWord c = true) (pairs : List (String × String)) :
    Reading.ofAddress? (addressOf id pairs) = some ⟨id, .ofList pairs⟩ := by
  have noFragment : ('/' :: (id.toList ++ '?' :: (formEncode pairs).toList)).takeWhile (· != '#') =
      '/' :: (id.toList ++ '?' :: (formEncode pairs).toList) := by
    refine List.takeWhile_eq_self_iff.2 fun c member => ?_
    simpa using (visible_behind_host words member).2
  have noQuestion : '?' ∉ '/' :: id.toList := by
    rw [List.mem_cons, not_or]
    exact ⟨by decide, fun isName => ne_of_isWord (words _ isName) (by decide) rfl⟩
  obtain ⟨pathPart, behind⟩ := takeWhile_bne_append_cons noQuestion (formEncode pairs).toList
  rw [List.cons_append] at pathPart behind
  have isNamed : id.toList.isEmpty = false := by simpa using nonempty
  have trimmed := (trimmed_addressOf words pairs).trans (toList_addressOf id pairs)
  simp only [Reading.ofAddress?, trimmed, afterScheme?_resource, afterAuthority?_openviking,
    Option.bind_eq_bind, Option.bind_some, noFragment, pathPart, behind, List.drop_one,
    List.tail_cons, readPath_of_words words, dropSlashes_of_words words, isNamed,
    String.ofList_toList, formDecode_formEncode]
  rfl

end ContextDb.Bridge
