import ContextDb.Proofs.Lines

/-!
# The line that a hit shows

A hit shows a line of the file, but the line is sought in the lower-case form of the whole
file. That is right: line breaks have no case and no letter looks past one for its own, so
that the lines of a lowered text are the lines of the text, each lowered by itself.
-/

namespace ContextDb.Text

variable {text raw before after : List Char}

/-! ## Lowering line by line -/

/-- The characters in front of the first letter, the null character apart. -/
def IsBeforeLetters (c : Char) : Prop :=
  0 < c.toNat ∧ c.toNat < 65

theorem toLower_eq_of_beforeLetters {c : Char} (early : IsBeforeLetters c.toLower) :
    c.toLower = c := by
  unfold Char.toLower at early ⊢
  split
  · rename_i isCapital
    rw [dif_pos isCapital] at early
    have atLeast : 65 ≤ c.val.toNat := isCapital.1
    have atMost : c.val.toNat ≤ 90 := isCapital.2
    have image : (c.val + ('a'.val - 'A'.val)).toNat < 65 := early.2
    rw [UInt32.toNat_add] at image
    change (c.val.toNat + 32) % 4294967296 < 65 at image
    omega
  · rfl

theorem ofNat_not_beforeLetters {code : Nat} (large : 65 ≤ code) :
    ¬ IsBeforeLetters (Char.ofNat code) := by
  rintro ⟨positive, small⟩
  by_cases valid : code.isValidChar
  · have same : (Char.ofNat code).toNat = code := by
      rw [Char.ofNat, dif_pos valid]
      rfl
    omega
  · simp [Char.ofNat, valid] at positive

theorem lowerImage_eq_of_beforeLetters {c : Char} (early : IsBeforeLetters (lowerImage c)) :
    lowerImage c = c := by
  have largeImages : ∀ run ∈ lowerRuns, 65 ≤ run.image := by decide +kernel
  rw [lowerImage] at early ⊢
  split at early
  · rename_i isAscii
    rw [if_pos isAscii, toLower_eq_of_beforeLetters early]
  · rename_i notAscii
    rw [if_neg notAscii]
    split at early
    · rename_i run found
      have large := largeImages run (List.mem_of_find?_eq_some found)
      exact absurd early (ofNat_not_beforeLetters (Nat.le_add_right_of_le large))
    · rfl

/-- Lowering makes no such character out of another one. -/
theorem eq_of_mem_lowerChar {c d : Char} (early : IsBeforeLetters d)
    (member : d ∈ lowerChar before c after) : d = c := by
  have late : ∀ letter ∈ ['\u03C2', '\u03C3', 'i', '\u0307'], d ≠ letter := by
    rintro letter isLetter rfl
    revert early
    simp only [List.mem_cons, List.not_mem_nil, or_false] at isLetter
    rcases isLetter with rfl | rfl | rfl | rfl <;> simp [IsBeforeLetters]
  simp only [List.mem_cons, List.not_mem_nil, or_false, forall_eq_or_imp, forall_eq] at late
  rw [lowerChar] at member
  split_ifs at member <;> simp only [List.mem_cons, List.not_mem_nil, or_false] at member
  · exact absurd member late.1
  · exact absurd member late.2.1
  · exact (member.elim late.2.2.1 late.2.2.2).elim
  · exact member.trans (lowerImage_eq_of_beforeLetters (member ▸ early))

/-- A character that is no letter: it keeps its form, no other one takes this form, and no
letter looks past it. -/
structure IsBreak (c : Char) : Prop where
  early : IsBeforeLetters c
  uncased : isCased c = false
  counts : isCaseIgnorable c = false
  image : lowerImage c = c

theorem isBreak_feed : IsBreak '\n' :=
  ⟨by simp [IsBeforeLetters], by decide +kernel, by decide +kernel, by decide +kernel⟩

theorem isBreak_return : IsBreak '\r' :=
  ⟨by simp [IsBeforeLetters], by decide +kernel, by decide +kernel, by decide +kernel⟩

/-- A character is lowered after what it sees on either side. -/
theorem lowerChar_congr {others following : List Char} {c : Char}
    (sameBefore : casedNearby before = casedNearby others)
    (sameAfter : casedNearby after = casedNearby following) :
    lowerChar before c after = lowerChar others c following := by
  simp only [lowerChar, sameBefore, sameAfter]

namespace IsBreak

variable {separator : Char} (isBreak : IsBreak separator)
include isBreak

theorem lowerChar_eq (before after : List Char) :
    lowerChar before separator after = [separator] := by
  have notSigma : separator ≠ '\u03A3' := by
    rintro rfl
    exact absurd isBreak.early.2 (by decide)
  have notDotted : separator ≠ '\u0130' := by
    rintro rfl
    exact absurd isBreak.early.2 (by decide)
  simp [lowerChar, notSigma, notDotted, isBreak.image]

theorem mem_lowerChar_iff {c : Char} : separator ∈ lowerChar before c after ↔ separator = c := by
  refine ⟨eq_of_mem_lowerChar isBreak.early, ?_⟩
  rintro rfl
  rw [isBreak.lowerChar_eq]
  exact List.mem_singleton_self _

/-- A lowered text has its breaks where the text has them. -/
theorem mem_lower_iff : separator ∈ lower text ↔ separator ∈ text := by
  have within : ∀ before, separator ∈ lowerWithin before text [] ↔ separator ∈ text := by
    induction text with
    | nil => exact fun _ => Iff.rfl
    | cons c others inductionHypothesis =>
      intro before
      rw [lowerWithin, List.mem_append, isBreak.mem_lowerChar_iff, inductionHypothesis,
        List.mem_cons]
  rw [lower_eq_lowerWithin, within]

/-- Behind a break there is nothing to be seen from before it. -/
theorem casedNearby_append (text after : List Char) :
    casedNearby (text ++ separator :: after) = casedNearby text := by
  cases skipped : text.all isCaseIgnorable with
  | true =>
    rw [casedNearby_append_of_all skipped, casedNearby_of_all skipped, casedNearby,
      List.dropWhile_cons_of_neg (by simp [isBreak.counts])]
    exact isBreak.uncased
  | false => exact casedNearby_append_of_not_all skipped _

/-- A text is lowered before a break as if it ended there. -/
theorem lowerWithin_before (before text after : List Char) :
    lowerWithin before text (separator :: after) = lowerWithin before text [] := by
  induction text generalizing before with
  | nil => rfl
  | cons c others inductionHypothesis =>
    have sameAfter : casedNearby (others ++ separator :: after) = casedNearby (others ++ []) := by
      rw [isBreak.casedNearby_append, List.append_nil]
    rw [lowerWithin, lowerWithin, inductionHypothesis, lowerChar_congr rfl sameAfter]

/-- A text is lowered behind a break as if it began there. -/
theorem lowerWithin_behind (before others text after : List Char) :
    lowerWithin (before ++ separator :: others) text after = lowerWithin before text after := by
  induction text generalizing before with
  | nil => rfl
  | cons c rest inductionHypothesis =>
    rw [lowerWithin, lowerWithin, ← List.cons_append, inductionHypothesis,
      lowerChar_congr (isBreak.casedNearby_append before others) rfl]

/-- A break parts a text into texts that are lowered by themselves. -/
theorem lower_append_cons (first rest : List Char) :
    lower (first ++ separator :: rest) = lower first ++ separator :: lower rest := by
  have behind : lowerWithin (separator :: first.reverse) rest [] = lowerWithin [] rest [] :=
    isBreak.lowerWithin_behind [] first.reverse rest []
  rw [lower_append, isBreak.lowerWithin_before, lowerWithin, isBreak.lowerChar_eq, behind,
    ← lower_eq_lowerWithin, ← lower_eq_lowerWithin, List.singleton_append]

end IsBreak

/-- A lowered text ends with a break only if the text does. -/
theorem IsBreak.getLast?_of_lower {separator : Char} (isBreak : IsBreak separator)
    (isLast : (lower text).getLast? = some separator) : text.getLast? = some separator := by
  rcases List.eq_nil_or_concat text with rfl | ⟨front, c, rfl⟩
  · cases isLast
  · have image : lowerChar front.reverse c [] ≠ [] := by
      rw [lowerChar]
      split_ifs <;> simp
    rw [List.concat_eq_append, lower_append, lowerWithin, lowerWithin, List.append_nil,
      List.append_nil, List.getLast?_append_of_ne_nil _ image] at isLast
    have same := isBreak.mem_lowerChar_iff.1 (List.mem_of_getLast? isLast)
    simp [same]

/-- A lowered line loses the carriage return that the line loses. -/
theorem dropReturn_lower (raw : List Char) : dropReturn (lower raw) = lower (dropReturn raw) := by
  generalize isLine : dropReturn raw = line
  rw [dropReturn_eq_iff]
  cases dropReturn_eq_iff.1 isLine with
  | withReturn =>
    have parted := isBreak_return.lower_append_cons line []
    exact parted ▸ .withReturn (lower line)
  | bare noReturn => exact .bare fun isLast => noReturn (isBreak_return.getLast?_of_lower isLast)

/-- The lines of a lowered text are the lines of the text, each lowered by itself. -/
theorem lines_lower (text : List Char) : lines (lower text) = (lines text).map lower := by
  induction text using induction_on_lines with
  | alone text absent =>
    by_cases empty : text = []
    · subst empty
      rfl
    · have alsoAbsent : '\n' ∉ lower text := fun present =>
        absent (isBreak_feed.mem_lower_iff.1 present)
      rw [lines_of_not_mem empty absent, lines_of_not_mem (lower_ne_nil empty) alsoAbsent,
        List.map_singleton]
  | ended raw rest absent inductionHypothesis =>
    have alsoAbsent : '\n' ∉ lower raw := fun present =>
      absent (isBreak_feed.mem_lower_iff.1 present)
    rw [isBreak_feed.lower_append_cons, lines_append_cons alsoAbsent, lines_append_cons absent,
      List.map_cons, dropReturn_lower, inductionHypothesis]

/-! ## Showing a line -/

/-- A line without the white space at its ends. -/
structure IsTrimmed (line core : List Char) : Prop where
  split : ∃ before after, line = before ++ core ++ after ∧
    (∀ c ∈ before, isWhite c = true) ∧ ∀ c ∈ after, isWhite c = true
  first : ∀ c, core.head? = some c → isWhite c = false
  last : ∀ c, core.getLast? = some c → isWhite c = false

theorem isTrimmed_trim (line : List Char) : IsTrimmed line (trim line) := by
  let behind := line.dropWhile isWhite
  have core : trim line = (behind.reverse.dropWhile isWhite).reverse := rfl
  have split : behind = trim line ++ (behind.reverse.takeWhile isWhite).reverse := by
    rw [core, ← List.reverse_append, List.takeWhile_append_dropWhile, List.reverse_reverse]
  constructor
  · refine ⟨line.takeWhile isWhite, (behind.reverse.takeWhile isWhite).reverse, ?_, ?_, ?_⟩
    · rw [List.append_assoc, ← split, List.takeWhile_append_dropWhile]
    · exact fun c member => List.mem_takeWhile_imp member
    · exact fun c member => List.mem_takeWhile_imp (List.mem_reverse.1 member)
  · intro c isFirst
    have isHead : behind.head? = some c := by
      rw [split, List.head?_append, isFirst, Option.some_or]
    have notWhite := List.head?_dropWhile_not isWhite line
    rwa [show line.dropWhile isWhite = behind from rfl, isHead] at notWhite
  · intro c isLast
    have notWhite := List.head?_dropWhile_not isWhite behind.reverse
    rw [core, List.getLast?_reverse] at isLast
    rwa [isLast] at notWhite

/-- A text is shown as it is up to 160 characters, otherwise as its first 160 with three dots
behind them. -/
def IsShown (core : List Char) (shown : String) : Prop :=
  core.length ≤ 160 ∧ shown.toList = core ∨
    160 < core.length ∧ shown.toList = core.take 160 ++ ['.', '.', '.']

theorem isShown_truncate (core : List Char) : IsShown core (Store.truncate core) := by
  rw [IsShown, Store.truncate]
  split
  · rename_i short
    exact .inl ⟨short, String.toList_ofList⟩
  · rename_i long
    exact .inr ⟨Nat.lt_of_not_le long, String.toList_ofList⟩

/-- The first line of a text that contains a word after both are lowered. -/
structure IsFirstLine (word text : List Char) (number : Nat) (line : List Char) : Prop where
  isLine : HasLine text number line
  holds : lower word <:+: lower line
  first : ∀ earlier other, HasLine text earlier other → earlier < number →
    ¬ lower word <:+: lower other

/-- A word that is found in a lowered text is found on a lowered line of it. -/
theorem IsWord.isInfix_lower_iff {word : List Char} (isWord : IsWord word) :
    lower word <:+: lower text ↔ ∃ line ∈ lines text, lower word <:+: lower line := by
  have noBreak : ∀ separator, IsBreak separator → isWhite separator = true →
      separator ∉ lower word := by
    intro separator isBreak white present
    have notWhite := isWord.2 _ (isBreak.mem_lower_iff.1 present)
    rw [white] at notWhite
    cases notWhite
  rw [isInfix_iff_exists_line (lower_ne_nil isWord.1) (noBreak _ isBreak_feed (by decide))
    (noBreak _ isBreak_return (by decide)), lines_lower]
  simp only [List.mem_map, exists_exists_and_eq_and]

end ContextDb.Text

namespace ContextDb.Store

open Text Uri

/-- Where a word is found in a text, the excerpt is cut from the first line that contains it. -/
theorem exists_firstLine_of_isInfix {word text : List Char} (isWord : IsWord word)
    (occurs : lower word <:+: lower text) :
    ∃ number line, IsFirstLine word text number line ∧
      snippetAround text (lower text) (lower word) = truncate (trim line) := by
  obtain ⟨line, isLine, onLine⟩ := isWord.isInfix_lower_iff.1 occurs
  let holds := fun line => occursIn (lower word) (lower line)
  have inhabited : ((lines text).findIdx? holds).isSome := by
    rw [List.findIdx?_isSome, List.any_eq_true]
    exact ⟨line, isLine, occursIn_iff_isInfix.2 onLine⟩
  obtain ⟨index, found⟩ := Option.isSome_iff_exists.1 inhabited
  obtain ⟨bound, accepted, earlier⟩ := List.findIdx?_eq_some_iff_getElem.1 found
  have atIndex : (lines text)[index]? = some (lines text)[index] := List.getElem?_eq_getElem bound
  refine ⟨index + 1, (lines text)[index], ⟨hasLine_succ_iff.2 atIndex,
    occursIn_iff_isInfix.1 accepted, ?_⟩, ?_⟩
  · intro number other isOther before onOther
    obtain ⟨place, rfl⟩ := Nat.exists_eq_add_of_le' isOther.positive
    have otherAt := hasLine_succ_iff.1 isOther
    obtain ⟨within, same⟩ := List.getElem?_eq_some_iff.1 otherAt
    have notHere := earlier place (Nat.lt_of_succ_lt_succ before)
    rw [same] at notHere
    exact notHere (occursIn_iff_isInfix.2 onOther)
  · have sameIndex : (lines (lower text)).findIdx? (occursIn (lower word)) = some index := by
      rw [lines_lower, List.findIdx?_map]
      exact found
    simp [snippetAround, sameIndex, atIndex]

/-- Lowering keeps the lines of every text, what is found of the first word of a query is found
on one line, and each file where it is found is listed with the first such line. -/
theorem excerpts_show_first_line {query : String} {word : List Char} {others : List (List Char)}
    (asked : words query.toList = word :: others) :
    (∀ text, lines (lower text) = (lines text).map lower) ∧
      (∀ text, lower word <:+: lower text ↔ ∃ number line, IsFirstLine word text number line) ∧
      ∀ store target base key entry, Reachable store →
        normalize ((target : Option String).getD scheme) = .ok base →
        store.entries.get? key = some entry → entry.isFile = true →
        (key = base ∨ isBelow key base = true) →
        lower word <:+: lower entry.content.toList →
        ∃ number line core, IsFirstLine word entry.content.toList number line ∧
          IsTrimmed line core ∧
          (∃ enough, ∀ limit, enough ≤ limit →
            ∃ hits, store.find query target limit = .ok hits ∧ ∃ hit ∈ hits, hit.uri = key) ∧
          ∀ limit hits, store.find query target limit = .ok hits →
            ∀ hit ∈ hits, hit.uri = key → IsShown core hit.snippet := by
  have isMember : word ∈ words query.toList := asked ▸ List.mem_cons_self
  have isWord := isWord_of_mem_words isMember
  refine ⟨lines_lower, fun text => ⟨fun occurs => ?_, ?_⟩, ?_⟩
  · obtain ⟨number, line, isFirst, _⟩ := exists_firstLine_of_isInfix isWord occurs
    exact ⟨number, line, isFirst⟩
  · rintro ⟨number, line, isFirst⟩
    exact isWord.isInfix_lower_iff.2
      ⟨line, exists_hasLine_iff.1 ⟨number, isFirst.isLine⟩, isFirst.holds⟩
  · intro store target base key entry reachable normalized stored isFile within occurs
    have tree := reachable.sound.tree
    have keyed : entry.uri = key := tree.keyed stored
    have found : entry ∈ store.filesWithin base :=
      (mem_filesWithin_iff tree).2 ⟨keyed ▸ stored, isFile, keyed ▸ within⟩
    obtain ⟨number, line, isFirst, excerpt⟩ := exists_firstLine_of_isInfix isWord occurs
    obtain ⟨shown, isHit, enough, listed⟩ := exists_hit_of_isInfix normalized found isMember occurs
    refine ⟨number, line, trim line, isFirst, isTrimmed_trim line, ⟨enough, fun limit large => ?_⟩,
      fun limit hits done hit member hitUri => ?_⟩
    · obtain ⟨hits, done, member⟩ := listed limit large
      exact ⟨hits, done, shown, member, (uri_of_hitOf isHit).trans keyed⟩
    · obtain ⟨other, isOther, gives⟩ :=
        exists_file_of_mem_find normalized (asked ▸ List.cons_ne_nil _ _) done member
      have otherStored := ((mem_filesWithin_iff tree).1 isOther).1
      rw [← uri_of_hitOf gives, hitUri, stored] at otherStored
      cases otherStored
      have firstTerm : (queryTerms query).head?.getD [] = lower word := by
        rw [queryTerms, asked]
        rfl
      have snippet : hit.snippet = truncate (trim line) := by
        rw [← excerpt, ← firstTerm]
        exact congrArg Hit.snippet (eq_of_hitOf gives)
      exact snippet ▸ isShown_truncate _

/-- A file in which the word is found on the second line, which ends with a carriage return and
a line feed, after a letter that becomes longer when it is lowered. -/
def street : String :=
  "\u0130\n \u039F\u0394\u039F\u03A3 \r\n\u039F\u0394\u039F\u03A3 x"

theorem street_is_shown :
    words "\u039F\u0394\u039F\u03A3 x".toList =
        ["\u039F\u0394\u039F\u03A3".toList, "x".toList] ∧
      (holding street).find "\u039F\u0394\u039F\u03A3 x" none 1 =
        .ok [⟨"viking://a", 3, "\u039F\u0394\u039F\u03A3"⟩] ∧
      ∃ number line core, IsFirstLine "\u039F\u0394\u039F\u03A3".toList street.toList number line ∧
        IsTrimmed line core ∧
        (∃ enough, ∀ limit, enough ≤ limit →
          ∃ hits, (holding street).find "\u039F\u0394\u039F\u03A3 x" none limit = .ok hits ∧
            ∃ hit ∈ hits, hit.uri = "viking://a") ∧
        ∀ limit hits, (holding street).find "\u039F\u0394\u039F\u03A3 x" none limit = .ok hits →
          ∀ hit ∈ hits, hit.uri = "viking://a" → IsShown core hit.snippet := by
  have asked : words "\u039F\u0394\u039F\u03A3 x".toList =
      ["\u039F\u0394\u039F\u03A3".toList, "x".toList] := by decide +kernel
  have occurs : lower "\u039F\u0394\u039F\u03A3".toList <:+: lower street.toList :=
    occursIn_iff_isInfix.1 (by decide +kernel)
  refine ⟨asked, by decide +kernel, ?_⟩
  exact (excerpts_show_first_line asked).2.2 (holding street) none scheme "viking://a" _
    (reachable_holding street) rfl (get?_holding street) rfl (.inr (by decide)) occurs

end ContextDb.Store
