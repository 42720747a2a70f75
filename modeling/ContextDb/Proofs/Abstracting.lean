import ContextDb.Proofs.Excerpts

/-!
# The abstract of a file

The abstract of a file is cut from the first of its lines that is not blank. However a line
ends, what ends it is white space and is trimmed away, so that lines can be taken for what
stands between line feeds.
-/

namespace ContextDb.Text

variable {text raw rest before line after core : List Char} {shown : String}

/-- There is nothing but white space in a text. -/
def IsBlank (text : List Char) : Prop :=
  ∀ c ∈ text, isWhite c = true

/-- The first line of a text that is not blank, with what stands before and after it. A line
is what stands between two line feeds. -/
structure IsTopLine (text before line after : List Char) : Prop where
  split : text = before ++ line ++ after
  fresh : EndsLine before
  whole : '\n' ∉ line
  ended : after = [] ∨ after.head? = some '\n'
  blank : IsBlank before
  visible : ¬ IsBlank line

/-! ## Trimming -/

theorem isBlank_append_iff : IsBlank (before ++ after) ↔ IsBlank before ∧ IsBlank after := by
  simp only [IsBlank, List.forall_mem_append]

theorem isBlank_cons_iff {c : Char} : IsBlank (c :: rest) ↔ isWhite c = true ∧ IsBlank rest := by
  simp only [IsBlank, List.forall_mem_cons]

/-- White space is dropped up to the first character that is none. -/
theorem dropWhile_isWhite (blank : IsBlank before) (nonempty : core ≠ [])
    (first : ∀ c, core.head? = some c → isWhite c = false) (after : List Char) :
    (before ++ (core ++ after)).dropWhile isWhite = core ++ after := by
  rw [List.dropWhile_append_of_pos blank]
  cases core with
  | nil => exact absurd rfl nonempty
  | cons c others => exact List.dropWhile_cons_of_neg (by simp [first c rfl])

/-- A text can be trimmed in one way only. -/
theorem IsTrimmed.trim_eq (isTrimmed : IsTrimmed line core) : trim line = core := by
  obtain ⟨before, after, rfl, frontBlank, backBlank⟩ := isTrimmed.split
  by_cases nothing : core = []
  · subst nothing
    have allWhite : IsBlank (before ++ [] ++ after) := by
      simpa [isBlank_append_iff] using ⟨frontBlank, backBlank⟩
    rw [trim, trimBy, List.dropWhile_eq_nil_iff.2 allWhite]
    rfl
  · have backBlank : IsBlank after.reverse := fun c member =>
      backBlank c (List.mem_reverse.1 member)
    -- seen from behind, the text begins with what is to be dropped as well
    have fromBehind : (after.reverse ++ core.reverse).dropWhile isWhite = core.reverse := by
      have last : ∀ c, core.reverse.head? = some c → isWhite c = false := by
        simpa using isTrimmed.last
      have dropped := dropWhile_isWhite backBlank (by simpa using nothing) last []
      rwa [List.append_nil] at dropped
    rw [trim, trimBy, List.append_assoc, dropWhile_isWhite frontBlank nothing isTrimmed.first,
      List.reverse_append, fromBehind, List.reverse_reverse]

theorem trim_eq_nil_iff : trim line = [] ↔ IsBlank line := by
  constructor
  · intro nothing
    obtain ⟨before, after, split, frontWhite, backWhite⟩ := (isTrimmed_trim line).split
    rw [nothing, List.append_nil] at split
    exact split ▸ isBlank_append_iff.2 ⟨frontWhite, backWhite⟩
  · intro blank
    exact IsTrimmed.trim_eq ⟨⟨line, [], by simp, blank, by simp⟩, by simp, by simp⟩

/-- The carriage return that a line may lose would be trimmed away. -/
theorem trim_dropReturn (raw : List Char) : trim (dropReturn raw) = trim raw := by
  generalize isLine : dropReturn raw = line
  cases dropReturn_eq_iff.1 isLine with
  | bare => rfl
  | withReturn =>
    obtain ⟨⟨before, after, split, frontWhite, backWhite⟩, first, last⟩ := isTrimmed_trim line
    refine (IsTrimmed.trim_eq ⟨⟨before, after ++ ['\r'], ?_, frontWhite, ?_⟩, first, last⟩).symm
    · rw [← List.append_assoc, ← split]
    · exact isBlank_append_iff.2 ⟨backWhite, isBlank_cons_iff.2 ⟨rfl, nofun⟩⟩

/-! ## The first line -/

theorem isTopLine_of_not_mem (absent : '\n' ∉ text) :
    IsTopLine text before line after ↔
      before = [] ∧ line = text ∧ after = [] ∧ ¬ IsBlank text := by
  constructor
  · rintro ⟨rfl, fresh, _, ended, _, visible⟩
    simp only [List.mem_append, not_or] at absent
    obtain rfl := fresh.eq_nil absent.1.1
    obtain rfl := ended.resolve_right fun isFeed => absent.2 (List.mem_of_head? isFeed)
    simpa using visible
  · rintro ⟨rfl, rfl, rfl, visible⟩
    exact ⟨by simp, .inl rfl, absent, .inl rfl, nofun, visible⟩

/-- The first line of a text is its top line, unless it is blank. -/
theorem isTopLine_append_cons (absent : '\n' ∉ raw) :
    IsTopLine (raw ++ '\n' :: rest) before line after ↔
      (before = [] ∧ line = raw ∧ after = '\n' :: rest ∧ ¬ IsBlank raw) ∨
        IsBlank raw ∧ ∃ behind, before = raw ++ '\n' :: behind ∧
          IsTopLine rest behind line after := by
  constructor
  · rintro ⟨split, fresh, whole, ended, blank, visible⟩
    rw [List.append_assoc] at split
    rcases fresh.cases absent split with rfl | ⟨behind, rfl, behindFresh, rfl⟩
    · left
      -- the line and the first one end at the same line feed
      rw [List.nil_append] at split
      rcases ended with rfl | isFeed
      · exact absurd (split ▸ by simp : '\n' ∈ line ++ []) (by simpa using whole)
      · obtain ⟨rest', rfl⟩ := List.head?_eq_some_iff.1 isFeed
        have sameCut := (cutAt?_append_cons absent rest).symm.trans
          (split ▸ cutAt?_append_cons whole rest')
        cases sameCut
        exact ⟨rfl, rfl, rfl, visible⟩
    · obtain ⟨rawBlank, behindBlank⟩ := isBlank_append_iff.1 blank
      exact .inr ⟨rawBlank, behind, rfl, (List.append_assoc _ _ _).symm, behindFresh, whole, ended,
        (isBlank_cons_iff.1 behindBlank).2, visible⟩
  · rintro (⟨rfl, rfl, rfl, visible⟩ | ⟨rawBlank, behind, rfl, top⟩)
    · exact ⟨by simp, .inl rfl, absent, .inr rfl, nofun, visible⟩
    · refine ⟨?_, endsLine_append_cons_iff.2 top.fresh, top.whole, top.ended, ?_, top.visible⟩
      · rw [top.split]
        simp
      · exact isBlank_append_iff.2 ⟨rawBlank, isBlank_cons_iff.2 ⟨by decide, top.blank⟩⟩

/-- A text that is not blank has such a line. -/
theorem exists_isTopLine (visible : ¬ IsBlank text) :
    ∃ before line after, IsTopLine text before line after := by
  induction text using induction_on_lines with
  | alone text absent =>
    exact ⟨[], text, [], (isTopLine_of_not_mem absent).2 ⟨rfl, rfl, rfl, visible⟩⟩
  | ended raw rest absent inductionHypothesis =>
    by_cases rawBlank : IsBlank raw
    · have restVisible : ¬ IsBlank rest := fun restBlank => visible
        (isBlank_append_iff.2 ⟨rawBlank, isBlank_cons_iff.2 ⟨by decide, restBlank⟩⟩)
      obtain ⟨behind, line, after, top⟩ := inductionHypothesis restVisible
      exact ⟨_, line, after, (isTopLine_append_cons absent).2 (.inr ⟨rawBlank, behind, rfl, top⟩)⟩
    · exact ⟨[], raw, _, (isTopLine_append_cons absent).2 (.inl ⟨rfl, rfl, rfl, rawBlank⟩)⟩

/-- The line that is found as the first one of which something is left when it is trimmed. -/
def topLine? (text : List Char) : Option (List Char) :=
  ((lines text).map trim).find? (!·.isEmpty)

theorem topLine?_of_not_mem (absent : '\n' ∉ text) :
    topLine? text = if trim text = [] then none else some (trim text) := by
  by_cases empty : text = []
  · subst empty
    rfl
  · rw [topLine?, lines_of_not_mem empty absent]
    by_cases blank : trim text = [] <;> simp [blank]

theorem topLine?_append_cons (absent : '\n' ∉ raw) (rest : List Char) :
    topLine? (raw ++ '\n' :: rest) =
      if trim raw = [] then topLine? rest else some (trim raw) := by
  rw [topLine?, lines_append_cons absent, List.map_cons, trim_dropReturn, topLine?]
  by_cases blank : trim raw = [] <;> simp [blank]

theorem topLine?_of_isTopLine (top : IsTopLine text before line after) :
    topLine? text = some (trim line) := by
  induction text using induction_on_lines generalizing before with
  | alone text absent =>
    obtain ⟨_, rfl, _, visible⟩ := (isTopLine_of_not_mem absent).1 top
    rw [topLine?_of_not_mem absent, if_neg (mt trim_eq_nil_iff.1 visible)]
  | ended raw rest absent inductionHypothesis =>
    rw [topLine?_append_cons absent]
    rcases (isTopLine_append_cons absent).1 top with
      ⟨_, rfl, _, visible⟩ | ⟨rawBlank, behind, _, restTop⟩
    · exact if_neg (mt trim_eq_nil_iff.1 visible)
    · rw [if_pos (trim_eq_nil_iff.2 rawBlank), inductionHypothesis restTop]

theorem topLine?_of_isBlank (blank : IsBlank text) : topLine? text = none := by
  induction text using induction_on_lines with
  | alone text absent => rw [topLine?_of_not_mem absent, if_pos (trim_eq_nil_iff.2 blank)]
  | ended raw rest absent inductionHypothesis =>
    obtain ⟨rawBlank, restBlank⟩ := isBlank_append_iff.1 blank
    rw [topLine?_append_cons absent, if_pos (trim_eq_nil_iff.2 rawBlank),
      inductionHypothesis (isBlank_cons_iff.1 restBlank).2]

/-! ## What is shown of a line -/

namespace IsShown

/-- What is shown of a text begins as the text does. -/
theorem head?_eq (isShown : IsShown core shown) : shown.toList.head? = core.head? := by
  rcases isShown with ⟨_, same⟩ | ⟨long, cut⟩
  · rw [same]
  · cases core with
    | nil => simp at long
    | cons first rest => simp [cut]

theorem eq_empty_iff (isShown : IsShown core shown) : shown = "" ↔ core = [] := by
  rw [← String.toList_eq_nil_iff, ← List.head?_eq_none_iff, isShown.head?_eq,
    List.head?_eq_none_iff]

theorem length_le (isShown : IsShown core shown) : shown.length ≤ 163 := by
  rw [← String.length_toList]
  rcases isShown with ⟨short, same⟩ | ⟨long, cut⟩
  · rw [same]
    omega
  · rw [cut, List.length_append, List.length_take]
    have dots : ['.', '.', '.'].length = 3 := rfl
    omega

/-- Nothing but the dots is added. -/
theorem mem_or_eq_dot (isShown : IsShown core shown) {c : Char} (member : c ∈ shown.toList) :
    c ∈ core ∨ c = '.' := by
  rcases isShown with ⟨_, same⟩ | ⟨_, cut⟩
  · exact .inl (same ▸ member)
  · rw [cut] at member
    rcases List.mem_append.1 member with inLine | isDot
    · exact .inl (List.mem_of_mem_take inLine)
    · exact .inr (by simpa using isDot)

end IsShown

/-! ## Abstracts -/

/-- A text tells a content in one line: it is what is shown of the trimmed top line, or
nothing. -/
structure IsAbstract (text : List Char) (shown : String) : Prop where
  empty_iff : shown = "" ↔ IsBlank text
  cut : ¬ IsBlank text → ∃ before line after core, IsTopLine text before line after ∧
    IsTrimmed line core ∧ IsShown core shown
  /-- It does not matter how the top line is found and trimmed. -/
  unique : ∀ before line after core, IsTopLine text before line after → IsTrimmed line core →
    IsShown core shown
  oneLine : '\n' ∉ shown.toList
  short : shown.length ≤ 163
  first : ∀ c, shown.toList.head? = some c → isWhite c = false

/-- A line that is not blank makes the text not blank. -/
theorem IsTopLine.not_isBlank (top : IsTopLine text before line after) : ¬ IsBlank text := by
  intro blank
  rw [top.split, isBlank_append_iff, isBlank_append_iff] at blank
  exact top.visible blank.1.2

/-- A text has one top line, at least when it is trimmed. -/
theorem IsTopLine.trim_unique {before' line' after' : List Char}
    (top : IsTopLine text before line after) (other : IsTopLine text before' line' after') :
    trim line' = trim line :=
  Option.some.inj ((topLine?_of_isTopLine other).symm.trans (topLine?_of_isTopLine top))

theorem isAbstract_empty (blank : IsBlank text) : IsAbstract text "" where
  empty_iff := iff_of_true rfl blank
  cut visible := absurd blank visible
  unique _ _ _ _ top _ := absurd blank top.not_isBlank
  oneLine := by simp
  short := by decide
  first := by simp

theorem isAbstract_truncate (top : IsTopLine text before line after) :
    IsAbstract text (Store.truncate (trim line)) := by
  have isTrimmed := isTrimmed_trim line
  have isShown := isShown_truncate (trim line)
  have nonempty : trim line ≠ [] := mt trim_eq_nil_iff.1 top.visible
  refine ⟨iff_of_false (mt isShown.eq_empty_iff.1 nonempty) top.not_isBlank, fun _ => ?_, ?_, ?_,
    isShown.length_le, ?_⟩
  · exact ⟨before, line, after, trim line, top, isTrimmed, isShown⟩
  · intro before' line' after' core top' isTrimmed'
    rw [← top.trim_unique top', isTrimmed'.trim_eq]
    exact isShown_truncate core
  · intro present
    obtain ⟨front, back, split, _⟩ := isTrimmed.split
    rcases isShown.mem_or_eq_dot present with inLine | isDot
    · exact top.whole (split ▸ List.mem_append_left back (List.mem_append_right front inLine))
    · exact absurd isDot (by decide)
  · rw [isShown.head?_eq]
    exact isTrimmed.first

end ContextDb.Text

namespace ContextDb.Store

open Text

variable {store : Store} {content : String} {before line after : List Char}

theorem firstLine_eq (content : String) :
    firstLine content = ((topLine? content.toList).map truncate).getD "" := by
  rw [firstLine, topLine?]
  cases ((lines content.toList).map trim).find? (!·.isEmpty) <;> rfl

theorem firstLine_of_isTopLine (top : IsTopLine content.toList before line after) :
    firstLine content = truncate (trim line) := by
  rw [firstLine_eq, topLine?_of_isTopLine top]
  rfl

theorem isAbstract_firstLine (content : String) :
    IsAbstract content.toList (firstLine content) := by
  by_cases blank : IsBlank content.toList
  · rw [firstLine_eq, topLine?_of_isBlank blank]
    exact isAbstract_empty blank
  · obtain ⟨before, line, after, top⟩ := exists_isTopLine blank
    rw [firstLine_of_isTopLine top]
    exact isAbstract_truncate top

/-- The abstract of a file is made of its content. -/
theorem abstractOf_of_read {uri : String} (isRead : store.read uri = .ok content) :
    store.abstractOf uri = .ok (firstLine content) := by
  obtain ⟨target, normalized, rest⟩ := bind_eq_ok_iff.1 isRead
  obtain ⟨entry, found, gives⟩ := bind_eq_ok_iff.1 rest
  split at gives
  · cases gives
  · rename_i notDir
    cases gives
    refine bind_eq_ok_iff.2 ⟨target, normalized, bind_eq_ok_iff.2 ⟨entry, found, ?_⟩⟩
    exact if_neg notDir

/-- Every file has its content told in one line, which no more depends on what follows the top
line of the content than on where the file is. -/
theorem abstracts_tell_top_line :
    (∀ content : String, ∃ shown, IsAbstract content.toList shown ∧
      ∀ (store : Store) uri, store.read uri = .ok content → store.abstractOf uri = .ok shown) ∧
      ∀ (store other : Store) (uri otherUri content otherContent : String)
        (before line after otherAfter : List Char),
        IsTopLine content.toList before line after →
        otherContent.toList = before ++ line ++ otherAfter →
        (otherAfter = [] ∨ otherAfter.head? = some '\n') →
        store.read uri = .ok content → other.read otherUri = .ok otherContent →
        store.abstractOf uri = other.abstractOf otherUri := by
  refine ⟨fun content => ?_, ?_⟩
  · exact ⟨firstLine content, isAbstract_firstLine content, fun store uri => abstractOf_of_read⟩
  · intro store other uri otherUri content otherContent before line after otherAfter top split
      ended isRead otherRead
    have otherTop : IsTopLine otherContent.toList before line otherAfter :=
      { top with split, ended }
    rw [abstractOf_of_read isRead, abstractOf_of_read otherRead, firstLine_of_isTopLine top,
      firstLine_of_isTopLine otherTop]

/-- The line of a letter that is not blank, which is too long by one character of two bytes. -/
def greeting : List Char :=
  ['\u0085', ' '] ++ List.replicate 161 '\u00E9' ++ ['\t', '\r']

/-- A letter that begins with blank lines, and may go on. -/
def letter (ending : List Char) : String :=
  String.ofList (['\r', '\n', '\u3000', '\n'] ++ greeting ++ ending)

theorem isTopLine_letter :
    IsTopLine (letter []).toList ['\r', '\n', '\u3000', '\n'] greeting [] where
  split := String.toList_ofList
  fresh := .inr rfl
  whole := by simp [greeting]
  ended := .inl rfl
  blank := by simp [IsBlank, isWhite]
  visible blank := absurd (blank '\u00E9' (by simp [greeting])) (by decide)

theorem isTrimmed_greeting : IsTrimmed greeting (List.replicate 161 '\u00E9') where
  split := ⟨['\u0085', ' '], ['\t', '\r'], rfl, by simp [isWhite], by simp [isWhite]⟩
  first := by simp [isWhite]
  last := by simp [isWhite]

/-- Whether or not the letter goes on, its line is trimmed and then cut. -/
theorem letters_have_one_abstract :
    (holding (letter [])).abstractOf "viking://a" =
        .ok (String.ofList (List.replicate 160 '\u00E9' ++ ['.', '.', '.'])) ∧
      (holding (letter [])).abstractOf "viking://a" =
        (holding (letter ['\n', 'x'])).abstractOf "viking:///a" := by
  have isRead : ∀ content, (holding content).read "viking://a" = .ok content :=
    fun content => read_of_file rfl (get?_holding content) rfl
  have otherRead : ∀ content, (holding content).read "viking:///a" = .ok content :=
    fun content => read_of_file rfl (get?_holding content) rfl
  obtain ⟨everyContent, otherwise⟩ := abstracts_tell_top_line
  obtain ⟨shown, isAbstract, told⟩ := everyContent (letter [])
  constructor
  · rw [told _ _ (isRead _)]
    rcases isAbstract.unique _ _ _ _ isTopLine_letter isTrimmed_greeting with ⟨short, _⟩ | ⟨_, cut⟩
    · rw [List.length_replicate] at short
      omega
    · rw [← String.ofList_toList (s := shown), cut, List.take_replicate]
      rfl
  · exact otherwise _ _ _ _ _ _ _ _ _ ['\n', 'x'] isTopLine_letter String.toList_ofList
      (.inr rfl) (isRead _) (otherRead _)

end ContextDb.Store
