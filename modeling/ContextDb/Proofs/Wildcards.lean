import ContextDb.Glob.Match
import Mathlib.Data.List.Chain
import Mathlib.Data.List.Infix

/-!
# What the elements of a pattern stand for

The search for a match tries the shortest stretches first and gives up where the path runs
out. It loses nothing by that: the elements are accepted exactly if the path can be cut
into what they stand for.
-/

namespace ContextDb.Glob

/-! ## Cutting a path -/

/-- What a path has behind one of its slashes, or nothing of it. -/
def Behind (path rest : List Char) : Prop :=
  '/' :: rest <:+ path ∨ rest = []

/-- The whole of a path or what it has behind some leading directories. -/
def Deeper (path rest : List Char) : Prop :=
  rest = path ∨ Behind path rest

/-- A path can be cut into what the elements of a pattern stand for. -/
inductive Matches : List Token → List Char → Prop
  | nil : Matches [] []
  | one {token : Token} {tokens : List Token} {c : Char} {path : List Char} :
      token.fits c = true → Matches tokens path → Matches (token :: tokens) (c :: path)
  | name {tokens : List Token} {name rest : List Char} :
      '/' ∉ name → Matches tokens rest → Matches (.anyName :: tokens) (name ++ rest)
  | depth {tokens : List Token} {path rest : List Char} :
      Deeper path rest → Matches tokens rest → Matches (.anyDepth :: tokens) path

variable {token : Token} {tokens others : List Token} {c d : Char}
  {path later rest name : List Char} {following : List Char → Outcome}
  {candidate other : List Char → Prop} {outcome : Outcome}

/-- Behind a character is what is behind the rest, and the rest itself if the character is a
slash. -/
theorem behind_cons_iff : Behind (c :: path) rest ↔ c = '/' ∧ rest = path ∨ Behind path rest := by
  rw [Behind, Behind, List.suffix_cons_iff, List.cons.injEq, or_assoc, eq_comm (a := '/')]

@[simp] theorem deeper_nil_iff : Deeper [] rest ↔ rest = [] := by
  simp [Deeper, Behind]

theorem Deeper.refl (path : List Char) : Deeper path path :=
  .inl rfl

theorem Deeper.suffix (deeper : Deeper path rest) : rest <:+ path := by
  rcases deeper with rfl | behindSlash | rfl
  · exact List.suffix_rfl
  · exact (List.suffix_cons '/' rest).trans behindSlash
  · exact List.nil_suffix

/-- What lies deeper in a deeper part lies deeper in the whole. -/
theorem Deeper.trans (outer : Deeper path later) (inner : Deeper later rest) :
    Deeper path rest := by
  rcases inner with rfl | behindSlash | rfl
  · exact outer
  · exact .inr (.inl (behindSlash.trans outer.suffix))
  · exact .inr (.inr rfl)

/-- Of two deeper parts the shorter one lies deeper in the longer one. -/
theorem Deeper.of_length_le (long : Deeper path later) (short : Deeper path rest)
    (le : rest.length ≤ later.length) : Deeper later rest := by
  have within : rest <:+ later := List.suffix_of_suffix_length_le short.suffix long.suffix le
  rcases Nat.eq_or_lt_of_le le with same | shorter
  · exact .inl (within.eq_of_length same)
  · rcases short with rfl | behindSlash | rfl
    · exact absurd long.suffix.length_le (Nat.not_le.2 shorter)
    · exact .inr (.inl (List.suffix_of_suffix_length_le behindSlash long.suffix shorter))
    · exact .inr (.inr rfl)

/-! ## The first place that decides -/

/-- Of the places where the elements that follow may begin, the nearest at which they do
not just fail to match decides. -/
inductive Decides (following : List Char → Outcome) (candidate : List Char → Prop) : Outcome → Prop
  | none : (∀ rest, candidate rest → following rest = .mismatch) →
      Decides following candidate .mismatch
  | first (rest : List Char) : candidate rest → following rest ≠ .mismatch →
      (∀ longer, candidate longer → rest.length < longer.length → following longer = .mismatch) →
      Decides following candidate (following rest)

/-- Nothing is nearer than the whole path. -/
theorem Decides.here (isCandidate : candidate path)
    (within : ∀ rest, candidate rest → rest <:+ path) (decided : following path ≠ .mismatch) :
    Decides following candidate (following path) :=
  .first path isCandidate decided fun longer isOther further =>
    absurd (within longer isOther).length_le (Nat.not_le.2 further)

/-- A place at which the elements do not match leaves the decision to the others. -/
theorem Decides.past (mismatch : following path = .mismatch)
    (candidates : ∀ rest, candidate rest ↔ rest = path ∨ other rest)
    (decides : Decides following other outcome) : Decides following candidate outcome := by
  have passes : ∀ rest, candidate rest → (other rest → following rest = .mismatch) →
      following rest = .mismatch := by
    intro rest isCandidate otherwise
    rcases (candidates rest).1 isCandidate with rfl | isOther
    · exact mismatch
    · exact otherwise isOther
  cases decides with
  | none none => exact .none fun rest isCandidate => passes rest isCandidate (none rest)
  | first rest isOther decided nearer =>
    exact .first rest ((candidates rest).2 (.inr isOther)) decided fun longer isCandidate further =>
      passes longer isCandidate fun isOther => nearer longer isOther further

/-- Where some place is accepted, the search accepts unless the path runs out before. -/
theorem Decides.eq_accepted (decides : Decides following candidate outcome)
    (isCandidate : candidate rest) (restAccepted : following rest = .accepted)
    (notExhausted : outcome ≠ .exhausted) : outcome = .accepted := by
  cases decides with
  | none none =>
    rw [none rest isCandidate] at restAccepted
    cases restAccepted
  | first first _ decided _ =>
    cases outcome : following first <;> first | rfl | contradiction

/-- A decision is made at a place before which nothing matches. -/
theorem Decides.exists_first (decides : Decides following candidate outcome)
    (decided : outcome ≠ .mismatch) :
    ∃ first, candidate first ∧ following first = outcome ∧
      ∀ longer, candidate longer → first.length < longer.length →
        following longer = .mismatch := by
  cases decides with
  | none none => exact absurd rfl decided
  | first first isCandidate _ nearer => exact ⟨first, isCandidate, rfl, nearer⟩

theorem Decides.exists_accepted (decides : Decides following candidate .accepted) :
    ∃ rest, candidate rest ∧ following rest = .accepted := by
  obtain ⟨rest, isCandidate, accepted, -⟩ := decides.exists_first Outcome.noConfusion
  exact ⟨rest, isCandidate, accepted⟩

/-- What a path has behind a beginning that stays within its first name. -/
def InName (path rest : List Char) : Prop :=
  ∃ name, path = name ++ rest ∧ '/' ∉ name

theorem InName.refl (path : List Char) : InName path path :=
  ⟨[], rfl, List.not_mem_nil⟩

theorem InName.suffix (inName : InName path rest) : rest <:+ path := by
  obtain ⟨name, rfl, -⟩ := inName
  exact List.suffix_append name rest

/-- No stretch of a name passes over a slash. -/
theorem inName_slash_iff : InName ('/' :: path) rest ↔ rest = '/' :: path := by
  constructor
  · rintro ⟨name, shape, slashless⟩
    cases name with
    | nil => exact shape.symm
    | cons c name =>
      obtain ⟨rfl, -⟩ := List.cons.inj shape
      exact absurd List.mem_cons_self slashless
  · rintro rfl
    exact .refl _

theorem inName_cons_iff (notSlash : c ≠ '/') :
    InName (c :: path) rest ↔ rest = c :: path ∨ InName path rest := by
  constructor
  · rintro ⟨name, shape, slashless⟩
    cases name with
    | nil => exact .inl shape.symm
    | cons d name =>
      obtain ⟨rfl, behind⟩ := List.cons.inj shape
      exact .inr ⟨name, behind, List.not_mem_of_not_mem_cons slashless⟩
  · rintro (rfl | ⟨name, rfl, slashless⟩)
    · exact .refl _
    · exact ⟨c :: name, rfl, by simp [slashless, Ne.symm notSlash]⟩

theorem scanName_decides (following : List Char → Outcome) (path : List Char) :
    Decides following (InName path) (scanName following path) := by
  induction path with
  | nil =>
    rw [scanName]
    split
    · next mismatch =>
      refine .none fun rest inName => ?_
      rw [List.suffix_nil.1 inName.suffix, mismatch]
    · next decided => exact .here (.refl []) (fun rest => InName.suffix) decided
  | cons c path inductionHypothesis =>
    rw [scanName]
    split
    · next mismatch =>
      split_ifs with isSlash
      · subst isSlash
        refine .none fun rest inName => ?_
        rw [inName_slash_iff.1 inName, mismatch]
      · exact .past mismatch (fun rest => inName_cons_iff isSlash) inductionHypothesis
    · next decided => exact .here (.refl _) (fun rest => InName.suffix) decided

theorem scanSlashes_decides (following : List Char → Outcome) (path : List Char) :
    Decides following (Behind path) (scanSlashes following path) := by
  induction path with
  | nil =>
    rw [scanSlashes]
    by_cases mismatch : following [] = .mismatch
    · rw [mismatch]
      refine .none fun rest behind => ?_
      rw [deeper_nil_iff.1 (.inr behind), mismatch]
    · exact .here (.inr rfl) (fun rest behind => Deeper.suffix (.inr behind)) mismatch
  | cons c path inductionHypothesis =>
    rw [scanSlashes]
    split_ifs with isSlash
    · split
      · next mismatch =>
        refine .past mismatch (fun rest => ?_) inductionHypothesis
        simp [behind_cons_iff, isSlash]
      · next decided =>
        refine .first path (behind_cons_iff.2 (.inl ⟨isSlash, rfl⟩)) decided ?_
        intro longer behind further
        rcases behind_cons_iff.1 behind with ⟨-, rfl⟩ | behind
        · exact absurd further (Nat.lt_irrefl _)
        · exact absurd (Deeper.suffix (.inr behind)).length_le (Nat.not_le.2 further)
    · have same : Behind (c :: path) = Behind path := by
        funext rest
        simp [behind_cons_iff, isSlash]
      exact same ▸ inductionHypothesis

theorem scanDepth_decides (following : List Char → Outcome) (path : List Char) :
    Decides following (Deeper path) (scanDepth following path) := by
  rw [scanDepth]
  split
  · next mismatch =>
    exact .past mismatch (fun rest => Iff.rfl) (scanSlashes_decides following path)
  · next decided => exact .here (.refl path) (fun rest => Deeper.suffix) decided

/-! ## The end of a path -/

/-- Within a name, the elements that follow run out at a place that leaves at least as much
of the path as any place at which they would do better. -/
theorem exists_exhausted_of_scanName (exhausted : scanName following path = .exhausted)
    (within : rest <:+ path) (decided : following rest ≠ .mismatch) :
    ∃ first, following first = .exhausted ∧ rest <:+ first := by
  obtain ⟨first, ⟨name, rfl, slashless⟩, same, nearer⟩ :=
    (scanName_decides following path).exists_first (exhausted ▸ Outcome.noConfusion)
  refine ⟨first, same.trans exhausted, ?_⟩
  rcases Nat.lt_or_ge first.length rest.length with longer | shorter
  · obtain ⟨front, shape⟩ := within
    have inName : front <+: name := by
      refine List.prefix_of_prefix_length_le ⟨rest, shape⟩ (List.prefix_append name first) ?_
      have lengths := congrArg List.length shape
      simp only [List.length_append] at lengths
      omega
    have notAcross : '/' ∉ front := fun member => slashless (inName.subset member)
    exact absurd (nearer rest ⟨front, shape.symm, notAcross⟩ longer) decided
  · exact List.suffix_of_suffix_length_le within (List.suffix_append name first) shorter

theorem exists_exhausted_of_scanDepth (exhausted : scanDepth following path = .exhausted)
    (deeper : Deeper path rest) (decided : following rest ≠ .mismatch) :
    ∃ first, following first = .exhausted ∧ Deeper first rest := by
  obtain ⟨first, firstDeeper, same, nearer⟩ :=
    (scanDepth_decides following path).exists_first (exhausted ▸ Outcome.noConfusion)
  refine ⟨first, same.trans exhausted, firstDeeper.of_length_le deeper ?_⟩
  exact Nat.not_lt.1 fun longer => decided (nearer rest deeper longer)

/-- An element that stands for one character. -/
def Token.IsOne (token : Token) : Prop :=
  token ≠ .anyName ∧ token ≠ .anyDepth

theorem Token.isOne_or (token : Token) : token.IsOne ∨ token = .anyName ∨ token = .anyDepth := by
  cases token <;> simp [IsOne]

theorem Token.IsOne.of_fits (fits : token.fits c = true) : token.IsOne := by
  cases token <;> simp_all [IsOne, Token.fits]

theorem matchTokens_nil_of_isOne (isOne : token.IsOne) :
    matchTokens (token :: tokens) [] = .exhausted := by
  obtain ⟨notName, notDepth⟩ := isOne
  cases token <;> first | rfl | contradiction

theorem matchTokens_cons_of_isOne (isOne : token.IsOne) :
    matchTokens (token :: tokens) (c :: path) =
      if token.fits c then matchTokens tokens path else .mismatch := by
  obtain ⟨notName, notDepth⟩ := isOne
  cases token <;> first | rfl | contradiction

/-- A recursive wildcard stands only at the beginning, behind a slash or behind another one. -/
def Joins (first second : Token) : Prop :=
  second = .anyDepth → first = .literal '/' ∨ first = .anyDepth

/-- Parts of a path at which the elements may have to begin when they have failed before. -/
def Later (tokens : List Token) (path later : List Char) : Prop :=
  later <:+ path ∧ (tokens.head? = some .anyDepth → Deeper path later)

theorem Later.of_suffix (joined : (token :: tokens).IsChain Joins) (notSlash : token ≠ .literal '/')
    (notDepth : token ≠ .anyDepth) (within : later <:+ path) : Later tokens path later := by
  refine ⟨within, fun isHead => ?_⟩
  rcases joined.rel_head? isHead rfl with isSlash | isDepth
  · exact absurd isSlash notSlash
  · exact absurd isDepth notDepth

/-- What follows an element that stands for one character may have to begin later where the
element may. -/
theorem Later.of_cons (joined : (token :: tokens).IsChain Joins) (isOne : token.IsOne)
    (fits : token.fits d = true) (isLater : Later (token :: tokens) (c :: path) (d :: later)) :
    Later tokens path later := by
  have isRest : later = path ∨ d :: later <:+ path := by
    rcases List.suffix_cons_iff.1 isLater.1 with same | within
    · exact .inl (List.cons.inj same).2
    · exact .inr within
  constructor
  · rcases isRest with rfl | within
    · exact List.suffix_rfl
    · exact (List.suffix_cons d later).trans within
  · intro isDepth
    -- Only a slash stands before a recursive wildcard, and it stands for a slash.
    obtain rfl := (joined.rel_head? isDepth rfl).resolve_right isOne.2
    obtain rfl : d = '/' := by simpa [Token.fits] using fits
    exact isRest.imp_right .inl

/-- Where the path has run out once, no later part of it is accepted. -/
theorem not_accepted_of_exhausted (joined : tokens.IsChain Joins)
    (exhausted : matchTokens tokens path = .exhausted) (isLater : Later tokens path later) :
    matchTokens tokens later ≠ .accepted := by
  induction tokens generalizing path later with
  | nil =>
    rw [matchTokens] at exhausted
    split at exhausted <;> cases exhausted
  | cons token tokens inductionHypothesis =>
    intro accepted
    have joinedRest : tokens.IsChain Joins := (List.isChain_cons.1 joined).2
    rcases token.isOne_or with isOne | rfl | rfl
    · cases path with
      | nil =>
        rw [List.suffix_nil.1 isLater.1, matchTokens_nil_of_isOne isOne] at accepted
        cases accepted
      | cons c path =>
        cases later with
        | nil =>
          rw [matchTokens_nil_of_isOne isOne] at accepted
          cases accepted
        | cons d later =>
          rw [matchTokens_cons_of_isOne isOne] at exhausted accepted
          split_ifs at exhausted accepted with fits alsoFits
          exact inductionHypothesis joinedRest exhausted (isLater.of_cons joined isOne alsoFits)
            accepted
    · rw [matchTokens] at exhausted accepted
      obtain ⟨rest, ⟨name, rfl, -⟩, restAccepted⟩ :=
        (accepted ▸ scanName_decides (matchTokens tokens) later).exists_accepted
      obtain ⟨first, firstExhausted, within⟩ := exists_exhausted_of_scanName exhausted
        ((List.suffix_append name rest).trans isLater.1) (restAccepted ▸ Outcome.noConfusion)
      exact inductionHypothesis joinedRest firstExhausted
        (.of_suffix joined nofun nofun within) restAccepted
    · rw [matchTokens] at exhausted accepted
      obtain ⟨rest, deeper, restAccepted⟩ :=
        (accepted ▸ scanDepth_decides (matchTokens tokens) later).exists_accepted
      obtain ⟨first, firstExhausted, within⟩ := exists_exhausted_of_scanDepth exhausted
        ((isLater.2 rfl).trans deeper) (restAccepted ▸ Outcome.noConfusion)
      exact inductionHypothesis joinedRest firstExhausted
        ⟨within.suffix, fun _ => within⟩ restAccepted

/-- Accepted elements stand for parts of the path. -/
theorem matches_of_accepted (accepted : matchTokens tokens path = .accepted) :
    Matches tokens path := by
  induction tokens generalizing path with
  | nil =>
    rw [matchTokens] at accepted
    split_ifs at accepted with empty
    obtain rfl := List.isEmpty_iff.1 empty
    exact .nil
  | cons token tokens inductionHypothesis =>
    rcases token.isOne_or with isOne | rfl | rfl
    · cases path with
      | nil =>
        rw [matchTokens_nil_of_isOne isOne] at accepted
        cases accepted
      | cons c path =>
        rw [matchTokens_cons_of_isOne isOne] at accepted
        split_ifs at accepted with fits
        exact .one fits (inductionHypothesis accepted)
    · rw [matchTokens] at accepted
      obtain ⟨rest, ⟨name, rfl, slashless⟩, restAccepted⟩ :=
        (accepted ▸ scanName_decides (matchTokens tokens) path).exists_accepted
      exact .name slashless (inductionHypothesis restAccepted)
    · rw [matchTokens] at accepted
      obtain ⟨rest, deeper, restAccepted⟩ :=
        (accepted ▸ scanDepth_decides (matchTokens tokens) path).exists_accepted
      exact .depth deeper (inductionHypothesis restAccepted)

/-- What the elements stand for is accepted: the search does not give up too early. -/
theorem accepted_of_matches (joined : tokens.IsChain Joins) (isMatch : Matches tokens path) :
    matchTokens tokens path = .accepted := by
  induction isMatch with
  | nil => rfl
  | one fits _ inductionHypothesis =>
    rw [matchTokens_cons_of_isOne (.of_fits fits), if_pos fits]
    exact inductionHypothesis (List.isChain_cons.1 joined).2
  | @name tokens name rest slashless _ inductionHypothesis =>
    have joinedRest := (List.isChain_cons.1 joined).2
    have restAccepted := inductionHypothesis joinedRest
    rw [matchTokens]
    refine (scanName_decides _ _).eq_accepted ⟨name, rfl, slashless⟩ restAccepted
      fun exhausted => ?_
    obtain ⟨first, firstExhausted, within⟩ := exists_exhausted_of_scanName exhausted
      (List.suffix_append name rest) (restAccepted ▸ Outcome.noConfusion)
    exact not_accepted_of_exhausted joinedRest firstExhausted
      (.of_suffix joined nofun nofun within) restAccepted
  | @depth tokens path rest deeper _ inductionHypothesis =>
    have joinedRest := (List.isChain_cons.1 joined).2
    have restAccepted := inductionHypothesis joinedRest
    rw [matchTokens]
    refine (scanDepth_decides _ _).eq_accepted deeper restAccepted fun exhausted => ?_
    obtain ⟨first, firstExhausted, within⟩ := exists_exhausted_of_scanDepth exhausted
      deeper (restAccepted ▸ Outcome.noConfusion)
    exact not_accepted_of_exhausted joinedRest firstExhausted
      ⟨within.suffix, fun _ => within⟩ restAccepted

/-- The search accepts exactly what the elements stand for. -/
theorem matchTokens_eq_accepted_iff (joined : tokens.IsChain Joins) :
    matchTokens tokens path = .accepted ↔ Matches tokens path :=
  ⟨matches_of_accepted, accepted_of_matches joined⟩

/-! ## What is matched -/

theorem matches_anyDepth_cons_iff :
    Matches (.anyDepth :: tokens) path ↔ ∃ rest, Deeper path rest ∧ Matches tokens rest := by
  constructor
  · intro isMatch
    cases isMatch with
    | one fits _ => cases fits
    | depth deeper isMatch => exact ⟨_, deeper, isMatch⟩
  · rintro ⟨rest, deeper, isMatch⟩
    exact .depth deeper isMatch

/-- One recursive wildcard behind another one changes nothing. -/
theorem matches_anyDepth_anyDepth_iff :
    Matches (.anyDepth :: .anyDepth :: tokens) path ↔ Matches (.anyDepth :: tokens) path := by
  simp only [matches_anyDepth_cons_iff]
  constructor
  · rintro ⟨later, outer, rest, inner, isMatch⟩
    exact ⟨rest, outer.trans inner, isMatch⟩
  · rintro ⟨rest, deeper, isMatch⟩
    exact ⟨path, .refl path, rest, deeper, isMatch⟩

/-- Elements that stand for the same paths can stand for each other behind others. -/
theorem Matches.append_congr (same : ∀ path, Matches others path → Matches tokens path)
    (front : List Token) (isMatch : Matches (front ++ others) path) :
    Matches (front ++ tokens) path := by
  induction front generalizing path with
  | nil => exact same path isMatch
  | cons token front inductionHypothesis =>
    rw [List.cons_append] at isMatch ⊢
    cases isMatch with
    | one fits isMatch => exact .one fits (inductionHypothesis isMatch)
    | name slashless isMatch => exact .name slashless (inductionHypothesis isMatch)
    | depth deeper isMatch => exact .depth deeper (inductionHypothesis isMatch)

/-- A path has a last name, which is all of it or follows a slash. -/
theorem slashless_or_exists_lastName (path : List Char) :
    '/' ∉ path ∨ ∃ name, '/' ∉ name ∧ '/' :: name <:+ path := by
  induction path with
  | nil => exact .inl List.not_mem_nil
  | cons c path inductionHypothesis =>
    rcases inductionHypothesis with slashless | ⟨name, slashless, within⟩
    · by_cases isSlash : c = '/'
      · exact .inr ⟨path, slashless, isSlash ▸ List.suffix_rfl⟩
      · exact .inl (by simp [slashless, Ne.symm isSlash])
    · exact .inr ⟨name, slashless, within.trans (List.suffix_cons c path)⟩

/-- Elements that can stand for nothing can stand for any name. -/
theorem Matches.name_of_nil (nonempty : tokens ≠ []) (isMatch : Matches tokens [])
    (slashless : '/' ∉ name) : Matches tokens name := by
  induction tokens with
  | nil => exact absurd rfl nonempty
  | cons token tokens inductionHypothesis =>
    generalize empty : ([] : List Char) = path at isMatch
    cases isMatch with
    | one fits isMatch => cases empty
    | name _ isMatch =>
      obtain ⟨rfl, rfl⟩ := List.append_eq_nil_iff.1 empty.symm
      rcases tokens with _ | ⟨second, tokens⟩
      · exact List.append_nil name ▸ .name slashless .nil
      · exact .name List.not_mem_nil (inductionHypothesis (List.cons_ne_nil _ _) isMatch)
    | depth deeper isMatch =>
      obtain rfl := deeper_nil_iff.1 (empty ▸ deeper)
      rcases tokens with _ | ⟨second, tokens⟩
      · exact .depth (.inr (.inr rfl)) .nil
      · exact .depth (.refl name) (inductionHypothesis (List.cons_ne_nil _ _) isMatch)

/-- Behind a recursive wildcard, elements stand for the whole path or for a part of it that
begins after a slash. -/
theorem matches_anyDepth_cons_iff_of_ne_nil (nonempty : tokens ≠ []) :
    Matches (.anyDepth :: tokens) path ↔
      Matches tokens path ∨ ∃ rest, '/' :: rest <:+ path ∧ Matches tokens rest := by
  rw [matches_anyDepth_cons_iff]
  constructor
  · rintro ⟨rest, rfl | within | rfl, isMatch⟩
    · exact .inl isMatch
    · exact .inr ⟨rest, within, isMatch⟩
    · -- What matches the empty end matches the last name as well.
      rcases slashless_or_exists_lastName path with slashless | ⟨name, slashless, within⟩
      · exact .inl (isMatch.name_of_nil nonempty slashless)
      · exact .inr ⟨name, within, isMatch.name_of_nil nonempty slashless⟩
  · rintro (isMatch | ⟨rest, within, isMatch⟩)
    · exact ⟨path, .refl path, isMatch⟩
    · exact ⟨rest, .inr (.inl within), isMatch⟩

/-- A wildcard for a name at any depth matches every path. -/
theorem matches_anyDepth_anyName (path : List Char) : Matches [.anyDepth, .anyName] path := by
  have anyName : ∀ {name : List Char}, '/' ∉ name → Matches [.anyName] name :=
    fun slashless => by simpa using Matches.name slashless .nil
  refine (matches_anyDepth_cons_iff_of_ne_nil (List.cons_ne_nil _ _)).2 ?_
  rcases slashless_or_exists_lastName path with slashless | ⟨name, slashless, within⟩
  · exact .inl (anyName slashless)
  · exact .inr ⟨name, within, anyName slashless⟩

theorem Token.eq_slash_iff_of_fits (fits : token.fits c = true) :
    c = '/' ↔ token = .literal '/' := by
  cases token with
  | literal wanted =>
    obtain rfl : c = wanted := by simpa [Token.fits] using fits
    simp
  | anyChar | oneOf => simp_all [Token.fits]
  | anyName | anyDepth => cases fits

/-- Only a literal slash and a recursive wildcard stand for slashes. -/
theorem Matches.count_slash (isMatch : Matches tokens path) (flat : .anyDepth ∉ tokens) :
    path.count '/' = tokens.count (.literal '/') := by
  induction isMatch with
  | nil => rfl
  | @one token tokens c path fits _ inductionHypothesis =>
    rw [List.count_cons, List.count_cons, inductionHypothesis (List.not_mem_of_not_mem_cons flat)]
    simp only [beq_iff_eq, Token.eq_slash_iff_of_fits fits]
  | name slashless _ inductionHypothesis =>
    rw [List.count_append, List.count_eq_zero.2 slashless,
      inductionHypothesis (List.not_mem_of_not_mem_cons flat)]
    simp
  | depth deeper _ inductionHypothesis => exact absurd List.mem_cons_self flat

end ContextDb.Glob
