import ContextDb.Glob.Pattern

/-!
# Matching paths against patterns

A pattern is matched from the left. Where an element may stand for stretches of
different length, the shortest is tried first. A failure because the path ended
too early is final: with a longer stretch even less of the path would be left.
-/

namespace ContextDb.Glob

/-- The outcome of matching some elements against the rest of a path. -/
inductive Outcome where
  /-- the elements match the whole rest -/
  | accepted
  /-- they do not, but might match a later part of the path -/
  | mismatch
  /-- the path is too short for them, whatever went before -/
  | exhausted
  deriving DecidableEq, Repr

/-- Let the elements that follow begin at each place within the current name,
the nearest first. -/
def scanName (following : List Char → Outcome) (path : List Char) : Outcome :=
  match following path with
  | .mismatch =>
    match path with
    | [] => .mismatch
    | c :: rest => if c = '/' then .mismatch else scanName following rest
  | decided => decided

/-- Let the elements that follow begin after each of the slashes ahead, the
nearest first, and finally at the end of the path. -/
def scanSlashes (following : List Char → Outcome) : List Char → Outcome
  | [] => following []
  | c :: rest =>
    if c = '/' then
      match following rest with
      | .mismatch => scanSlashes following rest
      | decided => decided
    else scanSlashes following rest

/-- Let the elements that follow begin here or at each later name. -/
def scanDepth (following : List Char → Outcome) (path : List Char) : Outcome :=
  match following path with
  | .mismatch => scanSlashes following path
  | decided => decided

/-- Whether an element that stands for one character stands for this one. Only
a literal slash stands for a slash. -/
def Token.fits (c : Char) : Token → Bool
  | .literal wanted => c = wanted
  | .anyChar => c ≠ '/'
  | .oneOf spans inside => c ≠ '/' && (spans.any (·.covers c) == inside)
  | .anyName | .anyDepth => false

/-- Match elements against the rest of a path. -/
def matchTokens : List Token → List Char → Outcome
  | [], path => if path.isEmpty then .accepted else .mismatch
  | .anyName :: tokens, path => scanName (matchTokens tokens) path
  | .anyDepth :: tokens, path => scanDepth (matchTokens tokens) path
  | _ :: _, [] => .exhausted
  | token :: tokens, c :: path =>
    if token.fits c then matchTokens tokens path else .mismatch

/-- Whether a pattern matches a whole path. -/
def Pattern.accepts (pattern : Pattern) (path : String) : Bool :=
  matchTokens pattern.tokens path.toList = .accepted

end ContextDb.Glob
