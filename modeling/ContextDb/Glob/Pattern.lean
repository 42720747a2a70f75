/-!
# Wildcard patterns

A pattern describes paths relative to a directory. `?` stands for one character
of a name, `*` for any stretch of one, `[abc]` and `[!a-z]` for one character
inside or outside a set, and a name `**` for any number of directories. This
module reads patterns; matching is in `ContextDb.Glob.Match`.
-/

namespace ContextDb.Glob

/-- A part of a character set: one character, or all from one to another. -/
inductive CharSpan where
  | one (c : Char)
  | range (first last : Char)
  deriving DecidableEq, Repr

/-- Whether a character belongs to a part of a set. -/
def CharSpan.covers (c : Char) : CharSpan → Bool
  | .one member => c = member
  | .range first last => first ≤ c && c ≤ last

/-- One element of a pattern. -/
inductive Token where
  /-- exactly this character -/
  | literal (c : Char)
  /-- one character of a name -/
  | anyChar
  /-- one character of a name that is in a set, or outside it -/
  | oneOf (spans : List CharSpan) (inside : Bool)
  /-- any stretch of characters of a name -/
  | anyName
  /-- any number of leading directories -/
  | anyDepth
  deriving DecidableEq, Repr

/-- What makes a text no pattern. -/
inductive Fault where
  | longWildcard
  | embeddedRecursion
  | badRange
  deriving DecidableEq, Repr

/-- The description of a fault. -/
def Fault.message : Fault → String
  | .longWildcard => "wildcards are either regular `*` or recursive `**`"
  | .embeddedRecursion => "recursive wildcards must form a single path component"
  | .badRange => "invalid range pattern"

/-- A readable pattern. -/
structure Pattern where
  tokens : List Token
  deriving DecidableEq, Repr

/-- The parts of a character set from its text: a dash between two characters
makes them a range. -/
def charSpans : List Char → List CharSpan
  | first :: '-' :: last :: rest => .range first last :: charSpans rest
  | c :: rest => .one c :: charSpans rest
  | [] => []

/-- How far the reading of a pattern has come. -/
inductive Progress where
  /-- between elements, after a given character -/
  | between (previous : Option Char)
  /-- within a run of stars that follows a given character -/
  | stars (count : Nat) (previous : Option Char)
  /-- after an opening bracket -/
  | opened
  /-- after an opening bracket and an exclamation mark -/
  | negated
  /-- within a character set, whose text is held in reverse -/
  | inSet (inside : Bool) (reversed : List Char)

/-- Add the recursive wildcard to the elements read, which are held in reverse.
Behind another recursive wildcard that is not the first element it changes
nothing. -/
def pushDepth : List Token → List Token
  | .anyDepth :: second :: rest => .anyDepth :: second :: rest
  | tokens => .anyDepth :: tokens

/-- Read a character that starts an element. -/
def startElement (tokens : List Token) (c : Char) (previous : Option Char) :
    List Token × Progress :=
  if c = '?' then (.anyChar :: tokens, .between (some c))
  else if c = '*' then (tokens, .stars 1 previous)
  else if c = '[' then (tokens, .opened)
  else (.literal c :: tokens, .between (some c))

/-- Whether a recursive wildcard may begin after a given character. -/
def beginsName (previous : Option Char) : Bool :=
  previous = none || previous = some '/'

/-- Read one character of a pattern. -/
def readChar : List Token × Progress → Char → Except Fault (List Token × Progress)
  | (tokens, .between previous), c => .ok (startElement tokens c previous)
  | (tokens, .stars count previous), c =>
    if c = '*' then
      if 2 ≤ count then .error .longWildcard else .ok (tokens, .stars (count + 1) previous)
    else if count = 1 then .ok (startElement (.anyName :: tokens) c (some '*'))
    else if beginsName previous && c = '/' then .ok (pushDepth tokens, .between (some '/'))
    else .error .embeddedRecursion
  | (tokens, .opened), c =>
    if c = '!' then .ok (tokens, .negated) else .ok (tokens, .inSet true [c])
  | (tokens, .negated), c => .ok (tokens, .inSet false [c])
  | (tokens, .inSet inside reversed), c =>
    if c = ']' then
      .ok (.oneOf (charSpans reversed.reverse) inside :: tokens, .between (some ']'))
    else .ok (tokens, .inSet inside (c :: reversed))

/-- The elements of a pattern that ends here. -/
def finish : List Token × Progress → Except Fault (List Token)
  | (tokens, .between _) => .ok tokens.reverse
  | (tokens, .stars count previous) =>
    if count = 1 then .ok (.anyName :: tokens).reverse
    else if beginsName previous then .ok (pushDepth tokens).reverse
    else .error .embeddedRecursion
  | (_, .opened) | (_, .negated) | (_, .inSet ..) => .error .badRange

/-- Read a pattern. -/
def compile (pattern : String) : Except Fault Pattern := do
  let read ← pattern.toList.foldlM readChar ([], .between none)
  let tokens ← finish read
  return ⟨tokens⟩

end ContextDb.Glob
