import ContextDb.Proofs.Pieces
import ContextDb.Proofs.Wildcards

/-!
# How patterns are written

A text can be read exactly if it is spelled from elements: characters that stand for
themselves, wildcards, sets in brackets and recursive wildcards that are whole names. What
is read stands for the same paths as the elements that are spelled.
-/

namespace ContextDb.Glob

open Text

/-! ## The spelling of elements -/

/-- A text in brackets spells a set, or one that is negated. -/
inductive IsSet : List Char → List CharSpan → Bool → Prop
  | inside {first : Char} {others : List Char} : first ≠ '!' → ']' ∉ others →
      IsSet ('[' :: first :: others ++ [']']) (charSpans (first :: others)) true
  | outside {first : Char} {others : List Char} : ']' ∉ others →
      IsSet ('[' :: '!' :: first :: others ++ [']']) (charSpans (first :: others)) false

/-- A text spells elements at the beginning of a name or within it. -/
inductive Spells : Bool → List Char → List Token → Prop
  | nil {begins : Bool} : Spells begins [] []
  | literal {begins : Bool} {c : Char} {text : List Char} {tokens : List Token} :
      c ∉ ['?', '*', '['] → Spells (c = '/') text tokens →
      Spells begins (c :: text) (.literal c :: tokens)
  | anyChar {begins : Bool} {text : List Char} {tokens : List Token} :
      Spells false text tokens → Spells begins ('?' :: text) (.anyChar :: tokens)
  | oneOf {begins inside : Bool} {set text : List Char} {spans : List CharSpan}
      {tokens : List Token} : IsSet set spans inside → Spells false text tokens →
      Spells begins (set ++ text) (.oneOf spans inside :: tokens)
  | anyName {begins : Bool} {text : List Char} {tokens : List Token} :
      text.head? ≠ some '*' → Spells false text tokens →
      Spells begins ('*' :: text) (.anyName :: tokens)
  | anyDepth {text : List Char} {tokens : List Token} : Spells true text tokens →
      Spells true ('*' :: '*' :: '/' :: text) (.anyDepth :: tokens)
  | atEnd : Spells true ['*', '*'] [.anyDepth]

variable {begins inside : Bool} {c : Char} {previous : Option Char}
  {text set members outline : List Char} {spans : List CharSpan}
  {token : Token} {read tokens : List Token} {path : List Char}

theorem IsSet.exists_cons (isSet : IsSet set spans inside) : ∃ others, set = '[' :: others := by
  cases isSet <;> exact ⟨_, rfl⟩

/-! ## Reading what is spelled -/

/-- Read the rest of a pattern. -/
def readRest (state : List Token × Progress) (text : List Char) : Except Fault (List Token) :=
  text.foldlM readChar state >>= finish

theorem readRest_cons (state : List Token × Progress) (c : Char) (text : List Char) :
    readRest state (c :: text) = readChar state c >>= fun next => readRest next text := by
  rw [readRest, List.foldlM_cons, bind_assoc]
  rfl

/-- Add an element to those read, which are held in reverse. -/
def push (read : List Token) : Token → List Token
  | .anyDepth => pushDepth read
  | token => token :: read

theorem readRest_literal (plain : c ∉ ['?', '*', '[']) :
    readRest (read, .between previous) (c :: text) =
      readRest (.literal c :: read, .between (some c)) text := by
  simp only [List.mem_cons, List.not_mem_nil, or_false, not_or] at plain
  rw [readRest_cons, readChar, startElement, if_neg plain.1, if_neg plain.2.1, if_neg plain.2.2]
  rfl

theorem readRest_anyName (alone : text.head? ≠ some '*') :
    readRest (read, .between previous) ('*' :: text) =
      readRest (.anyName :: read, .between (some '*')) text := by
  cases text with
  | nil => rfl
  | cons c text =>
    have notStar : c ≠ '*' := fun same => alone (same ▸ rfl)
    rw [readRest_cons, readRest_cons]
    simp [readChar, startElement, notStar, readRest_cons, bind, Except.bind]

theorem readRest_anyDepth (isBeginning : beginsName previous = true) :
    readRest (read, .between previous) ('*' :: '*' :: '/' :: text) =
      readRest (pushDepth read, .between (some '/')) text := by
  simp [readRest_cons, readChar, startElement, isBeginning, bind, Except.bind]

theorem readRest_atEnd (isBeginning : beginsName previous = true) :
    readRest (read, .between previous) ['*', '*'] = .ok (pushDepth read).reverse := by
  simp [readRest, readChar, startElement, finish, isBeginning, bind, Except.bind, pure, Except.pure]

theorem readRest_inSet {reversed : List Char} (unclosed : ']' ∉ members) :
    readRest (read, .inSet inside reversed) (members ++ ']' :: text) =
      readRest (.oneOf (charSpans (reversed.reverse ++ members)) inside :: read,
        .between (some ']')) text := by
  induction members generalizing reversed with
  | nil => simp [readRest_cons, readChar, bind, Except.bind]
  | cons member members inductionHypothesis =>
    have notClosing : member ≠ ']' := fun same => unclosed (same ▸ List.mem_cons_self)
    rw [List.cons_append, readRest_cons, readChar, if_neg notClosing]
    refine (inductionHypothesis (List.not_mem_of_not_mem_cons unclosed)).trans ?_
    rw [List.reverse_cons, List.append_assoc, List.singleton_append]

theorem readRest_oneOf (isSet : IsSet set spans inside) :
    readRest (read, .between previous) (set ++ text) =
      readRest (.oneOf spans inside :: read, .between (some ']')) text := by
  cases isSet with
  | @inside first others notMark unclosed =>
    have opened : readRest (read, .between previous) ('[' :: first :: (others ++ ']' :: text)) =
        readRest (read, .inSet true [first]) (others ++ ']' :: text) := by
      simp [readRest_cons, readChar, startElement, notMark, bind, Except.bind]
    simpa using opened.trans (readRest_inSet unclosed)
  | @outside first others unclosed =>
    have opened : readRest (read, .between previous)
          ('[' :: '!' :: first :: (others ++ ']' :: text)) =
        readRest (read, .inSet false [first]) (others ++ ']' :: text) := by
      simp [readRest_cons, readChar, startElement, bind, Except.bind]
    simpa using opened.trans (readRest_inSet unclosed)

/-- What is spelled is read. -/
theorem Spells.readRest_eq (spells : Spells begins text tokens)
    (isBeginning : beginsName previous = begins) :
    readRest (read, .between previous) text = .ok (tokens.foldl push read).reverse := by
  induction spells generalizing read previous with
  | nil => rfl
  | literal plain _ inductionHypothesis =>
    rw [readRest_literal plain, inductionHypothesis (by simp [beginsName])]
    rfl
  | anyChar _ inductionHypothesis => exact inductionHypothesis rfl
  | oneOf isSet _ inductionHypothesis =>
    rw [readRest_oneOf isSet, inductionHypothesis rfl]
    rfl
  | anyName alone _ inductionHypothesis =>
    rw [readRest_anyName alone, inductionHypothesis rfl]
    rfl
  | anyDepth _ inductionHypothesis =>
    rw [readRest_anyDepth isBeginning, inductionHypothesis rfl]
    rfl
  | atEnd => exact readRest_atEnd isBeginning

/-- A set that is not closed is not read. -/
theorem closed_of_readRest_inSet {reversed : List Char} {result : List Token}
    (isRead : readRest (read, .inSet inside reversed) text = .ok result) : ']' ∈ text := by
  induction text generalizing reversed with
  | nil => cases isRead
  | cons c text inductionHypothesis =>
    rw [readRest_cons, readChar] at isRead
    split_ifs at isRead with closing
    · exact closing ▸ List.mem_cons_self
    · exact List.mem_cons_of_mem _ (inductionHypothesis isRead)

/-- What is read after a bracket begins with the rest of a set. -/
theorem exists_isSet_of_readRest {result : List Token}
    (isRead : readRest (read, .between previous) ('[' :: text) = .ok result) :
    ∃ set spans inside rest, IsSet set spans inside ∧ '[' :: text = set ++ rest := by
  rcases text with _ | ⟨first, text⟩
  · cases isRead
  by_cases mark : first = '!'
  · subst mark
    rcases text with _ | ⟨first, text⟩
    · cases isRead
    have inside : readRest (read, .inSet false [first]) text = .ok result := isRead
    obtain ⟨others, rest, rfl, unclosed⟩ :=
      List.eq_append_cons_of_mem (closed_of_readRest_inSet inside)
    exact ⟨_, _, _, rest, @IsSet.outside first others unclosed, by simp⟩
  · have inside : readRest (read, .inSet true [first]) text = .ok result := by
      simpa [readRest_cons, readChar, startElement, mark, bind, Except.bind] using isRead
    obtain ⟨others, rest, rfl, unclosed⟩ :=
      List.eq_append_cons_of_mem (closed_of_readRest_inSet inside)
    exact ⟨_, _, _, rest, .inside mark unclosed, by simp⟩

/-- Two stars are read where a name begins, as all of the name. -/
theorem exists_of_readRest_stars {result : List Token}
    (isRead : readRest (read, .between previous) ('*' :: '*' :: text) = .ok result) :
    beginsName previous = true ∧ (text = [] ∨ ∃ rest, text = '/' :: rest) := by
  rcases text with _ | ⟨c, text⟩
  · cases isBeginning : beginsName previous with
    | true => exact ⟨rfl, .inl rfl⟩
    | false =>
      simp [readRest, readChar, startElement, finish, isBeginning, bind, Except.bind, pure,
        Except.pure] at isRead
  · by_cases ofName : beginsName previous = true ∧ c = '/'
    · exact ⟨ofName.1, .inr ⟨text, by rw [ofName.2]⟩⟩
    · by_cases isStar : c = '*' <;>
        simp_all [readRest_cons, readChar, startElement, bind, Except.bind]

/-- What is read is spelled. -/
theorem exists_spells_of_readRest {result : List Token}
    (isRead : readRest (read, .between previous) text = .ok result) :
    ∃ tokens, Spells (beginsName previous) text tokens := by
  induction length : text.length using Nat.strong_induction_on generalizing text read previous with
  | h n inductionHypothesis =>
    rcases text with _ | ⟨c, text⟩
    · exact ⟨[], .nil⟩
    by_cases plain : c ∉ ['?', '*', '[']
    · rw [readRest_literal plain] at isRead
      obtain ⟨tokens, spells⟩ := inductionHypothesis text.length (by simp [← length]) isRead rfl
      exact ⟨_, .literal plain (by simpa [beginsName] using spells)⟩
    simp only [List.mem_cons, List.not_mem_nil, or_false, not_not] at plain
    rcases plain with rfl | rfl | rfl
    · have restRead : readRest (.anyChar :: read, .between (some '?')) text = .ok result := isRead
      obtain ⟨tokens, spells⟩ := inductionHypothesis text.length (by simp [← length]) restRead rfl
      exact ⟨_, .anyChar spells⟩
    · by_cases alone : text.head? ≠ some '*'
      · rw [readRest_anyName alone] at isRead
        obtain ⟨tokens, spells⟩ := inductionHypothesis text.length (by simp [← length]) isRead rfl
        exact ⟨_, .anyName alone spells⟩
      obtain ⟨text, rfl⟩ := List.head?_eq_some_iff.1 (not_not.1 alone)
      obtain ⟨isBeginning, rfl | ⟨rest, rfl⟩⟩ := exists_of_readRest_stars isRead
      · exact ⟨[.anyDepth], isBeginning ▸ Spells.atEnd⟩
      · rw [readRest_anyDepth isBeginning] at isRead
        obtain ⟨tokens, spells⟩ := inductionHypothesis rest.length (by simp [← length]; omega)
          isRead rfl
        exact ⟨.anyDepth :: tokens, isBeginning ▸ Spells.anyDepth spells⟩
    · obtain ⟨set, spans, inside, rest, isSet, shape⟩ := exists_isSet_of_readRest isRead
      rw [shape, readRest_oneOf isSet] at isRead
      have shorter : rest.length < n := by
        obtain ⟨others, rfl⟩ := isSet.exists_cons
        rw [← length, shape, List.length_append]
        exact Nat.lt_add_of_pos_left (Nat.succ_pos _)
      obtain ⟨tokens, spells⟩ := inductionHypothesis rest.length shorter isRead rfl
      exact ⟨.oneOf spans inside :: tokens, shape ▸ Spells.oneOf isSet spells⟩

/-- A pattern is read exactly if it is spelled, element by element. -/
theorem compile_eq_ok_iff {text : String} {pattern : Pattern} :
    compile text = .ok pattern ↔ ∃ tokens, Spells true text.toList tokens ∧
      pattern = ⟨(tokens.foldl push []).reverse⟩ := by
  have asRead : compile text =
      (readRest ([], .between none) text.toList).map Pattern.mk := by
    rw [compile, readRest]
    cases text.toList.foldlM readChar ([], .between none) with
    | error fault => rfl
    | ok state =>
      simp only [bind, Except.bind]
      cases finish state <;> rfl
  rw [asRead]
  constructor
  · intro compiled
    cases isRead : readRest ([], .between none) text.toList with
    | error fault =>
      rw [isRead] at compiled
      cases compiled
    | ok result =>
      obtain ⟨tokens, spells⟩ := exists_spells_of_readRest isRead
      rw [spells.readRest_eq rfl] at compiled
      exact ⟨tokens, spells, (Except.ok.inj compiled).symm⟩
  · rintro ⟨tokens, spells, rfl⟩
    rw [spells.readRest_eq rfl]
    rfl

/-! ## Adding elements -/

/-- An element is added to the others, or stays away behind one that does the same. -/
theorem push_eq (read : List Token) (token : Token) :
    push read token = token :: read ∨
      token = .anyDepth ∧ ∃ rest, read = .anyDepth :: rest ∧ push read token = read := by
  cases token with
  | anyDepth =>
    rw [push]
    rcases read with _ | ⟨first, _ | ⟨second, rest⟩⟩
    · exact .inl rfl
    · cases first <;> exact .inl rfl
    · cases first with
      | anyDepth => exact .inr ⟨rfl, _, rfl, rfl⟩
      | _ => exact .inl rfl
  | _ => exact .inl rfl

/-- The elements that are left match what all of them match. -/
theorem matches_foldl_push_iff :
    Matches (tokens.foldl push read).reverse path ↔ Matches (read.reverse ++ tokens) path := by
  induction tokens generalizing read with
  | nil => rw [List.foldl_nil, List.append_nil]
  | cons token tokens inductionHypothesis =>
    rw [List.foldl_cons, inductionHypothesis]
    rcases push_eq read token with added | ⟨rfl, rest, rfl, kept⟩
    · rw [added, List.reverse_cons, List.append_assoc, List.singleton_append]
    · rw [kept, List.reverse_cons, List.append_assoc, List.append_assoc, List.singleton_append,
        List.singleton_append]
      exact ⟨.append_congr (fun _ => matches_anyDepth_anyDepth_iff.2) _,
        .append_congr (fun _ => matches_anyDepth_anyDepth_iff.1) _⟩

/-- Where a name begins, a recursive wildcard may stand behind the elements read. -/
def Awaits (begins : Bool) (read : List Token) : Prop :=
  begins = true → ∀ last ∈ read.head?, Joins last .anyDepth

theorem isChain_push (joined : read.IsChain (flip Joins))
    (allowed : token = .anyDepth → ∀ last ∈ read.head?, Joins last .anyDepth) :
    (push read token).IsChain (flip Joins) := by
  rcases push_eq read token with added | ⟨-, rest, -, kept⟩
  · rw [added]
    exact joined.cons fun last isLast isDepth => allowed isDepth last isLast rfl
  · rw [kept]
    exact joined

/-- Elements are spelled so that recursive wildcards stand only where names begin. -/
theorem Spells.joined (spells : Spells begins text tokens) (joined : read.IsChain (flip Joins))
    (awaits : Awaits begins read) : (tokens.foldl push read).IsChain (flip Joins) := by
  induction spells generalizing read with
  | nil => exact joined
  | @literal begins c text tokens _ _ inductionHypothesis =>
    refine inductionHypothesis (isChain_push joined nofun) fun isSlash last isLast _ => ?_
    obtain rfl := Option.some.inj isLast
    exact .inl (congrArg Token.literal (of_decide_eq_true isSlash))
  | anyChar _ inductionHypothesis => exact inductionHypothesis (isChain_push joined nofun) nofun
  | oneOf _ _ inductionHypothesis => exact inductionHypothesis (isChain_push joined nofun) nofun
  | anyName _ _ inductionHypothesis => exact inductionHypothesis (isChain_push joined nofun) nofun
  | anyDepth _ inductionHypothesis =>
    refine inductionHypothesis (isChain_push joined fun _ => awaits rfl) fun _ last isLast _ => ?_
    rcases push_eq read .anyDepth with added | ⟨-, rest, shape, kept⟩
    · rw [added] at isLast
      exact .inr (Option.some.inj isLast).symm
    · rw [kept, shape] at isLast
      exact .inr (Option.some.inj isLast).symm
  | atEnd =>
    have isChain : (push read .anyDepth).IsChain (flip Joins) :=
      isChain_push joined fun _ => awaits rfl
    exact isChain

theorem accepts_iff_of_spells {text path : String} {pattern : Pattern}
    (compiled : compile text = .ok pattern) (spells : Spells true text.toList tokens) :
    pattern.accepts path = true ↔ Matches tokens path.toList := by
  obtain rfl : pattern = ⟨(tokens.foldl push []).reverse⟩ :=
    Except.ok.inj (compiled.symm.trans (compile_eq_ok_iff.2 ⟨tokens, spells, rfl⟩))
  have joined : (tokens.foldl push []).reverse.IsChain Joins :=
    List.isChain_reverse.2 (spells.joined .nil nofun)
  rw [Pattern.accepts, decide_eq_true_iff, matchTokens_eq_accepted_iff joined,
    matches_foldl_push_iff]
  rfl

/-- A pattern accepts what the elements that it spells stand for. -/
theorem accepts_iff {text path : String} {pattern : Pattern}
    (compiled : compile text = .ok pattern) : pattern.accepts path = true ↔
      ∃ tokens, Spells true text.toList tokens ∧ Matches tokens path.toList := by
  obtain ⟨tokens, spells, -⟩ := compile_eq_ok_iff.1 compiled
  constructor
  · intro accepted
    exact ⟨tokens, spells, (accepts_iff_of_spells compiled spells).1 accepted⟩
  · rintro ⟨others, alsoSpells, isMatch⟩
    exact (accepts_iff_of_spells compiled alsoSpells).2 isMatch

/-! ## A recursive wildcard in front -/

theorem Spells.ne_nil (spells : Spells begins text tokens) (nonempty : text ≠ []) :
    tokens ≠ [] := by
  cases spells with
  | nil => contradiction
  | _ => exact List.cons_ne_nil _ _

/-- A recursive wildcard in front of a pattern is an element in front of its elements. -/
theorem spells_anyDepth_iff :
    Spells true ('*' :: '*' :: '/' :: text) tokens ↔
      ∃ rest, tokens = .anyDepth :: rest ∧ Spells true text rest := by
  constructor
  · intro spells
    generalize shape : '*' :: '*' :: '/' :: text = whole at spells
    cases spells with
    | anyDepth spells =>
      obtain rfl := (List.cons.inj (List.cons.inj (List.cons.inj shape).2).2).2
      exact ⟨_, rfl, spells⟩
    | oneOf isSet spells => cases isSet <;> simp at shape
    | literal plain spells =>
      obtain ⟨rfl, -⟩ := List.cons.inj shape
      exact absurd (by simp) plain
    | anyName alone spells =>
      obtain ⟨-, rfl⟩ := List.cons.inj shape
      exact absurd rfl alone
    | _ => simp at shape
  · rintro ⟨rest, rfl, spells⟩
    exact .anyDepth spells

/-! ## Slashes outside of sets -/

/-- A pattern with a question mark in place of each set. -/
inductive Outline : List Char → List Char → Prop
  | nil : Outline [] []
  | plain {c : Char} {text outline : List Char} : c ≠ '[' → Outline text outline →
      Outline (c :: text) (c :: outline)
  | set {set text outline : List Char} {spans : List CharSpan} {inside : Bool} :
      IsSet set spans inside → Outline text outline → Outline (set ++ text) ('?' :: outline)

/-- The names that begin in a part of a pattern, which may begin within a name. -/
def namesFrom : Bool → List Char → List (List Char)
  | true, outline => pieces '/' outline
  | false, outline => (pieces '/' outline).tail

theorem mem_namesFrom {name : List Char} (isLater : name ∈ (pieces '/' outline).tail) :
    name ∈ namesFrom begins outline := by
  cases begins with
  | true => exact List.mem_of_mem_tail isLater
  | false => exact isLater

/-- Elements are told by an outline: a recursive wildcard by a name of two stars, and where
there is none the slashes by the slashes. -/
structure ToldBy (begins : Bool) (tokens : List Token) (outline : List Char) : Prop where
  recursive : .anyDepth ∈ tokens → ['*', '*'] ∈ namesFrom begins outline
  flat : .anyDepth ∉ tokens → tokens.count (.literal '/') = outline.count '/'

/-- An element within a name is told by a character within a name. -/
theorem ToldBy.cons (told : ToldBy false tokens outline) (notSlash : c ≠ '/')
    (notLiteral : token ≠ .literal '/') (notDepth : token ≠ .anyDepth) :
    ToldBy begins (token :: tokens) (c :: outline) := by
  constructor
  · intro isDepth
    have within := told.recursive ((List.mem_cons.1 isDepth).resolve_left notDepth.symm)
    have isLater : ['*', '*'] ∈ (pieces '/' (c :: outline)).tail := by
      rw [tail_pieces_cons, if_neg notSlash]
      exact within
    exact mem_namesFrom isLater
  · intro flat
    rw [List.count_cons_of_ne notLiteral, List.count_cons_of_ne notSlash,
      told.flat (List.not_mem_of_not_mem_cons flat)]

/-- A slash is told by a slash. -/
theorem ToldBy.slash (told : ToldBy true tokens outline) :
    ToldBy begins (.literal '/' :: tokens) ('/' :: outline) := by
  constructor
  · intro isDepth
    have within := told.recursive ((List.mem_cons.1 isDepth).resolve_left nofun)
    have isLater : ['*', '*'] ∈ (pieces '/' ('/' :: outline)).tail := by
      rw [tail_pieces_cons, if_pos rfl]
      exact within
    exact mem_namesFrom isLater
  · intro flat
    rw [List.count_cons_self, List.count_cons_self, told.flat (List.not_mem_of_not_mem_cons flat)]

/-- Spelled elements are told by the outline of the pattern. -/
theorem Spells.exists_outline (spells : Spells begins text tokens) :
    ∃ outline, Outline text outline ∧ ToldBy begins tokens outline := by
  induction spells with
  | nil => exact ⟨[], .nil, nofun, fun _ => rfl⟩
  | @literal begins c text tokens plain _ inductionHypothesis =>
    obtain ⟨outline, isOutline, told⟩ := inductionHypothesis
    refine ⟨c :: outline, .plain (by simp_all) isOutline, ?_⟩
    by_cases isSlash : c = '/'
    · rw [decide_eq_true isSlash] at told
      exact isSlash ▸ told.slash
    · rw [decide_eq_false isSlash] at told
      exact told.cons isSlash (by simpa using isSlash) nofun
  | anyChar _ inductionHypothesis =>
    obtain ⟨outline, isOutline, told⟩ := inductionHypothesis
    exact ⟨_, .plain (by decide) isOutline, told.cons (by decide) nofun nofun⟩
  | oneOf isSet _ inductionHypothesis =>
    obtain ⟨outline, isOutline, told⟩ := inductionHypothesis
    exact ⟨_, .set isSet isOutline, told.cons (by decide) nofun nofun⟩
  | anyName _ _ inductionHypothesis =>
    obtain ⟨outline, isOutline, told⟩ := inductionHypothesis
    exact ⟨_, .plain (by decide) isOutline, told.cons (by decide) nofun nofun⟩
  | anyDepth _ inductionHypothesis =>
    obtain ⟨outline, isOutline, -⟩ := inductionHypothesis
    refine ⟨_, .plain (by decide) (.plain (by decide) (.plain (by decide) isOutline)), ?_, ?_⟩
    · intro
      simp [namesFrom, pieces_cons]
    · exact fun flat => absurd List.mem_cons_self flat
  | atEnd =>
    refine ⟨_, .plain (by decide) (.plain (by decide) .nil), ?_, ?_⟩
    · intro
      simp [namesFrom, pieces_cons]
    · exact fun flat => absurd List.mem_cons_self flat

/-- A text begins with one set at most. -/
theorem IsSet.append_inj {other : List Char} {otherSpans : List CharSpan} {otherInside : Bool}
    {rest : List Char} (isSet : IsSet set spans inside)
    (alsoSet : IsSet other otherSpans otherInside) (same : set ++ text = other ++ rest) :
    text = rest := by
  have closing : ∀ {members others : List Char}, ']' ∉ members → ']' ∉ others →
      members ++ ']' :: text = others ++ ']' :: rest → text = rest := by
    intro members others unclosed alsoUnclosed same
    have firstPieces := congrArg (pieces ']') same
    rw [pieces_append_cons unclosed, pieces_append_cons alsoUnclosed] at firstPieces
    rw [(List.cons.inj firstPieces).1, List.append_cancel_left_eq] at same
    exact (List.cons.inj same).2
  cases isSet <;> cases alsoSet <;>
    simp only [List.cons_append, List.append_assoc, List.nil_append, List.cons.injEq, true_and]
      at same
  · next _ unclosed _ _ _ alsoUnclosed => exact closing unclosed alsoUnclosed same.2
  · next notMark _ _ _ _ => exact absurd same.1 notMark
  · next notMark _ => exact absurd same.1.symm notMark
  · next unclosed _ _ alsoUnclosed => exact closing unclosed alsoUnclosed same.2

/-- A pattern has one outline at most. -/
theorem Outline.unique {other : List Char} (isOutline : Outline text outline)
    (alsoOutline : Outline text other) : outline = other := by
  induction isOutline generalizing other with
  | nil =>
    generalize shape : ([] : List Char) = whole at alsoOutline
    cases alsoOutline with
    | nil => rfl
    | plain => cases shape
    | set isSet =>
      obtain ⟨others, rfl⟩ := isSet.exists_cons
      cases shape
  | @plain c text outline plain _ inductionHypothesis =>
    generalize shape : c :: text = whole at alsoOutline
    cases alsoOutline with
    | nil => cases shape
    | plain _ alsoOutline =>
      obtain ⟨rfl, rfl⟩ := List.cons.inj shape
      rw [inductionHypothesis alsoOutline]
    | set isSet =>
      obtain ⟨others, rfl⟩ := isSet.exists_cons
      exact absurd (List.cons.inj shape).1 plain
  | @set set text outline spans inside isSet _ inductionHypothesis =>
    generalize shape : set ++ text = whole at alsoOutline
    cases alsoOutline with
    | nil =>
      obtain ⟨others, rfl⟩ := isSet.exists_cons
      cases shape
    | plain plain _ =>
      obtain ⟨others, rfl⟩ := isSet.exists_cons
      exact absurd (List.cons.inj shape).1.symm plain
    | set alsoSet alsoOutline =>
      obtain rfl := isSet.append_inj alsoSet shape
      rw [inductionHypothesis alsoOutline]

/-- Of two texts cut into names, a first name without question marks stays the first one, and
the later ones stay later ones. -/
structure KeepsNames (names others : List (List Char)) : Prop where
  first : ∀ name ∈ names.head?, '?' ∉ name → name ∈ others.head?
  later : ∀ name ∈ names.tail, '?' ∉ name → name ∈ others.tail

theorem KeepsNames.mem {names others : List (List Char)} (keeps : KeepsNames names others)
    {name : List Char} (isName : name ∈ names) (plain : '?' ∉ name) : name ∈ others := by
  cases names with
  | nil => cases isName
  | cons first names =>
    rcases List.mem_cons.1 isName with rfl | isLater
    · exact List.mem_of_mem_head? (keeps.first name rfl plain)
    · exact List.mem_of_mem_tail (keeps.later name isLater plain)

/-- The names of an outline without question marks are names of the pattern. -/
theorem Outline.keepsNames (isOutline : Outline text outline) :
    KeepsNames (pieces '/' outline) (pieces '/' text) := by
  induction isOutline with
  | nil => exact ⟨fun _ isFirst _ => isFirst, nofun⟩
  | @plain c text outline _ _ keeps =>
    constructor
    · intro name isFirst plain
      rw [head?_pieces_cons] at isFirst ⊢
      split_ifs at isFirst ⊢
      · exact isFirst
      · obtain ⟨rest, isRest, rfl⟩ := Option.map_eq_some_iff.1 isFirst
        exact Option.map_eq_some_iff.2
          ⟨rest, keeps.first rest isRest (List.not_mem_of_not_mem_cons plain), rfl⟩
    · intro name isLater plain
      rw [tail_pieces_cons] at isLater ⊢
      split_ifs at isLater ⊢
      · exact keeps.mem isLater plain
      · exact keeps.later name isLater plain
  | @set set text outline spans inside _ _ keeps =>
    constructor
    · intro name isFirst plain
      rw [head?_pieces_cons, if_neg (by decide)] at isFirst
      obtain ⟨rest, -, rfl⟩ := Option.map_eq_some_iff.1 isFirst
      exact absurd List.mem_cons_self plain
    · intro name isLater plain
      rw [tail_pieces_cons, if_neg (by decide)] at isLater
      exact mem_tail_pieces_append set (keeps.later name isLater plain)

/-- A pattern has one outline. -/
theorem exists_outline_of_compile {text : String} {pattern : Pattern}
    (compiled : compile text = .ok pattern) :
    ∃ outline, ∀ other, Outline text.toList other ↔ other = outline := by
  obtain ⟨tokens, spells, -⟩ := compile_eq_ok_iff.1 compiled
  obtain ⟨outline, isOutline, -⟩ := spells.exists_outline
  refine ⟨outline, fun other => ⟨fun alsoOutline => alsoOutline.unique isOutline, ?_⟩⟩
  rintro rfl
  exact isOutline

/-- What a pattern without a name of two stars matches has as many slashes as the pattern
has outside of sets. -/
theorem count_slash_of_accepts {text path : String} {pattern : Pattern}
    (compiled : compile text = .ok pattern) (isOutline : Outline text.toList outline)
    (flat : ['*', '*'] ∉ pieces '/' outline) (accepted : pattern.accepts path = true) :
    path.toList.count '/' = outline.count '/' := by
  obtain ⟨tokens, spells, -⟩ := compile_eq_ok_iff.1 compiled
  obtain ⟨other, alsoOutline, told⟩ := spells.exists_outline
  obtain rfl := isOutline.unique alsoOutline
  have noDepth : .anyDepth ∉ tokens := fun isDepth => flat (told.recursive isDepth)
  rw [((accepts_iff_of_spells compiled spells).1 accepted).count_slash noDepth, told.flat noDepth]

end ContextDb.Glob
