import ContextDb.Proofs.Escaping
import ContextDb.Proofs.Placing

/-!
# Addresses by cutting

What the functions on addresses do with the bytes of a text: they cut it at counts of bytes and
look at one byte. A cut that falls outside of the text or inside of a character has no result, nor
has a byte behind the end. The functions of `Uri` are what these give wherever they give anything,
and on the addresses that entries can have they always do.
-/

namespace ContextDb.Text

variable {separator : Char} {text before rest last : List Char} {count offset : Nat}

/-- A cut gives the text behind it exactly if what stands before it has the count of bytes. -/
theorem dropBytes?_eq_some_iff :
    dropBytes? count text = some rest ↔
      ∃ before, text = before ++ rest ∧ (String.ofList before).utf8ByteSize = count := by
  constructor
  · intro cut
    fun_induction dropBytes? count text with
    | case1 text =>
      obtain rfl := Option.some.inj cut
      exact ⟨[], rfl, rfl⟩
    | case2 => cases cut
    | case3 count c text fits inductionHypothesis =>
      obtain ⟨before, rfl, size⟩ := inductionHypothesis cut
      refine ⟨c :: before, rfl, ?_⟩
      rw [utf8ByteSize_cons, size]
      omega
    | case4 => cases cut
  · rintro ⟨before, rfl, rfl⟩
    simpa using dropBytes?_append (String.ofList before) rest

/-- The text before exactly `count` bytes, if that cut falls between two characters of the text. -/
def takeBytes? : Nat → List Char → Option (List Char)
  | 0, _ => some []
  | _ + 1, [] => none
  | count + 1, c :: rest =>
    if c.utf8Size ≤ count + 1 then (takeBytes? (count + 1 - c.utf8Size) rest).map (c :: ·)
    else none

/-- A cut has text before it exactly if it has text behind it. -/
theorem takeBytes?_append (before rest : List Char) :
    takeBytes? (String.ofList before).utf8ByteSize (before ++ rest) = some before := by
  induction before with
  | nil => simp [takeBytes?]
  | cons c before inductionHypothesis =>
    have positive := c.utf8Size_pos
    have total := utf8ByteSize_cons c before
    obtain ⟨count, size⟩ : ∃ count, (String.ofList (c :: before)).utf8ByteSize = count + 1 :=
      ⟨(String.ofList (c :: before)).utf8ByteSize - 1, by omega⟩
    have fits : c.utf8Size ≤ count + 1 := by omega
    have left : count + 1 - c.utf8Size = (String.ofList before).utf8ByteSize := by omega
    rw [size, List.cons_append, takeBytes?, if_pos fits, left, inductionHypothesis]
    rfl

/-- The number of bytes before the last occurrence of a character. -/
def lastOffset? (separator : Char) : List Char → Option Nat
  | [] => none
  | c :: rest =>
    match lastOffset? separator rest with
    | some offset => some (c.utf8Size + offset)
    | none => if c = separator then some 0 else none

theorem lastOffset?_of_not_mem (absent : separator ∉ text) : lastOffset? separator text = none := by
  induction text with
  | nil => rfl
  | cons c text inductionHypothesis =>
    have different : c ≠ separator := fun same => absent (same ▸ List.mem_cons_self)
    rw [lastOffset?, inductionHypothesis fun member => absent (List.mem_cons_of_mem _ member)]
    exact if_neg different

theorem lastOffset?_append_cons (absent : separator ∉ last) (before : List Char) :
    lastOffset? separator (before ++ separator :: last) =
      some (String.ofList before).utf8ByteSize := by
  induction before with
  | nil => simp [lastOffset?, lastOffset?_of_not_mem absent]
  | cons c before inductionHypothesis =>
    rw [List.cons_append, lastOffset?, inductionHypothesis, utf8ByteSize_cons]

/-- A text with a character has a last place of it. -/
theorem exists_last_of_mem (member : separator ∈ text) :
    ∃ before last, text = before ++ separator :: last ∧ separator ∉ last := by
  obtain ⟨last, before, shape, absent⟩ :=
    List.eq_append_cons_of_mem (List.mem_reverse.2 member)
  refine ⟨before.reverse, last.reverse, ?_, fun inLast => absent (List.mem_reverse.1 inLast)⟩
  rw [← List.reverse_reverse text, shape]
  simp

/-- What stands before a character in a text has fewer bytes. -/
theorem utf8ByteSize_lt_of_beforeLast? (found : beforeLast? separator text = some before) :
    (String.ofList before).utf8ByteSize < (String.ofList text).utf8ByteSize := by
  by_cases member : separator ∈ text
  · obtain ⟨beginning, last, rfl, absent⟩ := exists_last_of_mem member
    rw [beforeLast?_append_cons absent] at found
    obtain rfl := Option.some.inj found
    have positive := separator.utf8Size_pos
    rw [String.ofList_append, String.utf8ByteSize_append, utf8ByteSize_cons]
    omega
  · rw [beforeLast?_of_not_mem member] at found
    cases found

/-- The byte that a character begins with is a slash only for a slash. -/
theorem exists_utf8EncodeChar_eq_cons (c : Char) :
    ∃ byte others, String.utf8EncodeChar c = byte :: others ∧ (byte = 0x2F ↔ c = '/') := by
  have bound : c.val.toNat < 0x110000 :=
    c.valid.elim (fun small => Nat.lt_trans small (by decide)) And.right
  have isSlash : c = '/' ↔ c.val.toNat = 0x2F := by
    rw [← Char.toNat_inj]
    rfl
  rw [isSlash, String.utf8EncodeChar]
  generalize c.val.toNat = code at *
  split_ifs <;>
    refine ⟨_, _, rfl, ?_⟩ <;>
    simp only [← UInt8.toNat_inj, UInt8.toNat_ofNat'] <;>
    simp (disch := omega) only [Nat.mod_eq_of_lt] <;>
    simp <;>
    omega

/-- The first byte of the character behind a beginning stands at the size of that. -/
theorem exists_byte_behind {whole beginning : String} {c : Char}
    (shape : whole.toList = beginning.toList ++ c :: rest) :
    ∃ byte, (bytesOf whole)[beginning.utf8ByteSize]? = some byte ∧ (byte = 0x2F ↔ c = '/') := by
  obtain ⟨byte, others, encoded, isSlash⟩ := exists_utf8EncodeChar_eq_cons c
  have length : beginning.utf8ByteSize = (bytesOf beginning).length := by simp [bytesOf]
  refine ⟨byte, ?_, isSlash⟩
  rw [bytesOf_eq_encode, shape, encode_append, encode_cons, encoded, ← bytesOf_eq_encode, length]
  simp

theorem utf8ByteSize_of_toList_eq {whole beginning : String}
    (shape : whole.toList = beginning.toList ++ rest) :
    whole.utf8ByteSize = beginning.utf8ByteSize + (String.ofList rest).utf8ByteSize := by
  have split : whole = beginning ++ String.ofList rest :=
    String.toList_injective (by simp [shape])
  rw [split, String.utf8ByteSize_append]

namespace Cutting

/-- The part of a text before the last occurrence of a character, cut off at its count of bytes. -/
def beforeLast? (separator : Char) (text : List Char) : Option (Option (List Char)) :=
  match lastOffset? separator text with
  | none => some none
  | some offset => (takeBytes? offset text).map some

/-- The cut at the last place of a character is never amiss. -/
theorem beforeLast?_eq (separator : Char) (text : List Char) :
    beforeLast? separator text = some (Text.beforeLast? separator text) := by
  by_cases member : separator ∈ text
  · obtain ⟨before, last, rfl, absent⟩ := exists_last_of_mem member
    have cut := takeBytes?_append before (separator :: last)
    simp only [beforeLast?, lastOffset?_append_cons absent, beforeLast?_append_cons absent, cut,
      Option.map_some]
  · rw [beforeLast?, lastOffset?_of_not_mem member, beforeLast?_of_not_mem member]

end Cutting

end ContextDb.Text

namespace ContextDb.Uri

open Text

variable {uri upper ancestor : String}

/-- The beginnings of a list that leave something out are those of the list without its last
element and that list itself. -/
theorem properPrefixes_concat {α : Type} (whole : List α) (last : α) :
    properPrefixes (whole ++ [last]) = properPrefixes whole ++ [whole] := by
  induction whole with
  | nil => rfl
  | cons first rest inductionHypothesis =>
    rw [List.cons_append, properPrefixes, inductionHypothesis, properPrefixes, List.map_append]
    rfl

/-- The ancestors of an entry are those of its parent and the parent. -/
theorem Trail.ancestors_uri_parent {trail : Trail} (nonempty : trail.names ≠ []) :
    ancestors trail.uri = ancestors trail.parent.uri ++ [trail.parent.uri] := by
  have last := List.dropLast_concat_getLast nonempty
  rw [ancestors_uri, ancestors_uri, ← last, properPrefixes_concat, List.map_append]
  rfl

namespace Cutting

/-- The address of the directory that holds an entry, cut from that of the entry. -/
def parent? (uri : String) : Option (Option String) :=
  if isRoot uri then some none
  else do
    let path ← dropBytes? schemeBytes uri.toList
    let before ← Cutting.beforeLast? '/' path
    return some (ofPath (before.getD []))

/-- Whether an address lies strictly below another, by the byte behind that. -/
def isBelow (uri ancestor : String) : Option Bool :=
  if isRoot ancestor then some (!isRoot uri && scheme.toList.isPrefixOf uri.toList)
  else if ancestor.utf8ByteSize < uri.utf8ByteSize && ancestor.toList.isPrefixOf uri.toList then do
    let byte ← (bytesOf uri)[ancestor.utf8ByteSize]?
    return byte == 0x2F
  else some false

/-- The path of an address seen from an ancestor, cut off behind the scheme if that is the root.
Behind another one, a cut that falls amiss leaves nothing and is no failure. -/
def relative (uri ancestor : String) : Option String :=
  if isRoot ancestor then (dropBytes? schemeBytes uri.toList).map String.ofList
  else some (Uri.relative uri ancestor)

/-- The parent is cut off wherever a cut behind the scheme has a result. -/
theorem parent?_eq (uri : String) :
    parent? uri = if isRoot uri then some none
      else (dropBytes? schemeBytes uri.toList).map fun path =>
        some (ofPath ((Text.beforeLast? '/' path).getD [])) := by
  rw [parent?]
  split
  · rfl
  · cases dropBytes? schemeBytes uri.toList with
    | none => rfl
    | some path => simp [Cutting.beforeLast?_eq]

/-- There is no cut behind the scheme where its bytes are not those of some characters. -/
theorem parent?_eq_none_iff :
    parent? uri = none ↔ isRoot uri = false ∧ ¬ ∃ before rest, uri.toList = before ++ rest ∧
      (String.ofList before).utf8ByteSize = schemeBytes := by
  have noCut : dropBytes? schemeBytes uri.toList = none ↔ ¬ ∃ before rest,
      uri.toList = before ++ rest ∧ (String.ofList before).utf8ByteSize = schemeBytes := by
    rw [Option.eq_none_iff_forall_ne_some]
    constructor
    · rintro missing ⟨before, rest, shape⟩
      exact missing rest (dropBytes?_eq_some_iff.2 ⟨before, shape⟩)
    · intro missing rest cut
      obtain ⟨before, shape⟩ := dropBytes?_eq_some_iff.1 cut
      exact missing ⟨before, rest, shape⟩
  rw [parent?_eq, ← noCut]
  cases isRoot uri <;> simp

example : parent? "viking:/é" = none := by decide +kernel

theorem parent?_ofPath (path : List Char) :
    parent? (ofPath path) = some (Uri.parent? (ofPath path)) := by
  rw [parent?_eq, Uri.parent?, dropBytes?_ofPath, path_ofPath]
  split <;> rfl

/-- A longer address that begins with another one goes on with a character behind it. -/
theorem begins_iff_exists_behind :
    (ancestor.utf8ByteSize < uri.utf8ByteSize && ancestor.toList.isPrefixOf uri.toList) = true ↔
      ∃ c rest, uri.toList = ancestor.toList ++ c :: rest := by
  rw [Bool.and_eq_true_iff, decide_eq_true_iff, List.isPrefixOf_iff_prefix]
  constructor
  · rintro ⟨longer, behind, whole⟩
    rw [utf8ByteSize_of_toList_eq whole.symm] at longer
    cases behind with
    | nil => simp at longer
    | cons c rest => exact ⟨c, rest, whole.symm⟩
  · rintro ⟨c, rest, whole⟩
    have positive := c.utf8Size_pos
    rw [utf8ByteSize_of_toList_eq whole, utf8ByteSize_cons]
    exact ⟨by omega, c :: rest, whole.symm⟩

/-- The byte behind an ancestor is looked at only where there is one. -/
theorem isBelow_eq (uri ancestor : String) :
    isBelow uri ancestor = some (Uri.isBelow uri ancestor) := by
  by_cases atRoot : isRoot ancestor = true
  · simp [isBelow, Uri.isBelow, atRoot]
  · have notRoot : isRoot ancestor = false := by simpa using atRoot
    rw [isBelow, notRoot, if_neg Bool.false_ne_true]
    by_cases goesOn : ∃ c rest, uri.toList = ancestor.toList ++ c :: rest
    · rw [if_pos (begins_iff_exists_behind.2 goesOn)]
      obtain ⟨c, rest, whole⟩ := goesOn
      obtain ⟨byte, read, isSlash⟩ := exists_byte_behind whole
      have same : (byte == 0x2F) = Uri.isBelow uri ancestor := by
        rw [Bool.eq_iff_iff, beq_iff_eq, isSlash, Trail.isBelow_eq_true_iff notRoot, whole]
        simp
      rw [read, ← same]
      rfl
    · rw [if_neg fun begins => goesOn (begins_iff_exists_behind.1 begins)]
      have notBelow : Uri.isBelow uri ancestor = false := by
        rw [← Bool.not_eq_true, Trail.isBelow_eq_true_iff notRoot]
        exact fun below => goesOn ⟨'/', below⟩
      rw [notBelow]

/-- Whether an address is another one or lies below it. -/
def isWithin (uri top : String) : Option Bool :=
  if uri = top then some true else isBelow uri top

theorem isWithin_eq (uri top : String) : isWithin uri top = some (Uri.isWithin uri top) := by
  rw [isWithin, Uri.isWithin, isBelow_eq]
  split <;> simp [*]

theorem relative_ofPath (path : List Char) (ancestor : String) :
    relative (ofPath path) ancestor = some (Uri.relative (ofPath path) ancestor) := by
  rw [relative, dropBytes?_ofPath, Uri.relative, path_ofPath]
  split <;> rfl

/-! ## The way up -/

/-- The number of bytes of an address, none for the root. -/
def height (uri : String) : Nat :=
  if isRoot uri then 0 else uri.utf8ByteSize

/-- What is cut off as a parent has fewer bytes. -/
theorem height_lt (cut : parent? uri = some (some upper)) : height upper < height uri := by
  rw [parent?_eq] at cut
  split at cut
  · cases cut
  · rename_i notRoot
    obtain ⟨path, dropped, isUpper⟩ := Option.map_eq_some_iff.1 cut
    obtain rfl := Option.some.inj isUpper
    obtain ⟨before, shape, size⟩ := dropBytes?_eq_some_iff.1 dropped
    have total : uri.utf8ByteSize = schemeBytes + (String.ofList path).utf8ByteSize := by
      rw [← size]
      exact utf8ByteSize_of_toList_eq (by simpa using shape)
    rw [height, height, if_neg notRoot, total]
    split
    · exact Nat.add_pos_left (by decide) _
    · rename_i upperNotRoot
      cases found : Text.beforeLast? '/' path with
      | none =>
        rw [found] at upperNotRoot
        exact absurd (by decide +kernel) upperNotRoot
      | some beginning =>
        have shorter := utf8ByteSize_lt_of_beforeLast? found
        have shapeUpper : (ofPath beginning).toList = scheme.toList ++ beginning := by
          simp [ofPath]
        have sizeUpper : (ofPath beginning).utf8ByteSize =
            schemeBytes + (String.ofList beginning).utf8ByteSize :=
          utf8ByteSize_of_toList_eq shapeUpper
        rw [Option.getD_some, sizeUpper]
        omega

/-- The addresses above an entry up to the root, each cut from the one before. -/
def climb (uri : String) : Option (List String) :=
  match _cut : parent? uri with
  | none => none
  | some none => some []
  | some (some upper) => (climb upper).map (upper :: ·)
termination_by height uri
decreasing_by exact height_lt _cut

/-- The addresses of all directories above an entry, from the root down. -/
def ancestors (uri : String) : Option (List String) :=
  (climb uri).map List.reverse

theorem climb_eq (uri : String) :
    climb uri = (parent? uri).bind fun above =>
      match above with
      | none => some []
      | some upper => (climb upper).map (upper :: ·) := by
  rw [climb]
  split <;> simp [*]

/-- The way up from an entry leads through its ancestors. -/
theorem climb_uri (trail : Trail) :
    climb trail.uri = some (Uri.ancestors trail.uri).reverse := by
  have cut : parent? trail.uri = some (Uri.parent? trail.uri) := parent?_ofPath _
  rw [climb_eq, cut, Option.bind_some]
  by_cases empty : trail.names = []
  · obtain rfl := Trail.eq_root_iff.2 empty
    rw [Trail.parent?_uri_root, Trail.uri_root]
    rfl
  · have lower := (Trail.below_parent empty).length_lt
    have inductionHypothesis := climb_uri trail.parent
    rw [Trail.parent?_uri empty, Trail.ancestors_uri_parent empty]
    simp [inductionHypothesis]
termination_by trail.names.length
decreasing_by exact lower

theorem ancestors_uri (trail : Trail) : ancestors trail.uri = some (Uri.ancestors trail.uri) := by
  rw [ancestors, climb_uri, Option.map_some, List.reverse_reverse]

end Cutting

end ContextDb.Uri
