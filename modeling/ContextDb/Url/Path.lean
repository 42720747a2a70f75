import ContextDb.Text.Split
import ContextDb.Url.Percent

/-!
# Paths of URLs

A path is written segment after segment. A segment of one dot changes nothing and
one of two dots takes the segment before it away, as far as there is one.
-/

namespace ContextDb.Url

open Text

/-- Characters that every part of a URL escapes. -/
def isControl (c : Char) : Bool :=
  c.toNat < 0x20 || 0x7E < c.toNat

/-- Characters that are escaped in a path. -/
def isPathEscaped (c : Char) : Bool :=
  isControl c || [' ', '"', '<', '>', '`', '#', '?', '\x7b', '\x7d'].contains c

/-- Characters that are escaped in a segment, where no character separates. -/
def isSegmentEscaped (c : Char) : Bool :=
  isPathEscaped c || ['/', '%', '\\'].contains c

/-- Characters that a URL does not have. -/
def isDropped (c : Char) : Bool :=
  c = '\t' || c = '\n' || c = '\r'

/-- A text with the characters of a class escaped. -/
def escapeWhere (escaped : Char → Bool) (text : List Char) : List Char :=
  (text.filter (!isDropped ·)).flatMap fun c => if escaped c then escapeChar c else [c]

/-- The spellings of a dot in a segment. -/
def dots : List (List Char) :=
  [['.'], ['%', '2', 'e'], ['%', '2', 'E']]

/-- Whether a segment means the same directory. -/
def isOneDot (segment : List Char) : Bool :=
  dots.contains segment

/-- Whether a segment means the directory above. -/
def isTwoDots (segment : List Char) : Bool :=
  (dots.flatMap fun first => dots.map (first ++ ·)).contains segment

/-- Whether a path ends with a slash. -/
def endsWithSlash (path : List Char) : Bool :=
  path.getLast? = some '/'

/-- Whether a segment looks like the letter of a drive, which is never taken
away. -/
def isDriveLetter (segment : List Char) : Bool :=
  match segment with
  | letter :: mark :: rest =>
    letter.isAlpha && (mark = ':' || mark = '|') &&
      (rest.isEmpty || rest.head? = some '\\')
  | _ => false

/-- A path up to its last slash. -/
def upToLastSlash (path : List Char) : List Char :=
  (path.reverse.dropWhile (· != '/')).reverse

/-- A path without its trailing slash, if a segment comes before that slash. -/
def dropSlash (path : List Char) : List Char :=
  let before := path.dropLast
  if endsWithSlash path && before.contains '/' && !isDriveLetter (afterLast '/' before) then before
  else path

/-- A path with one segment less. -/
def dropSegment (path : List Char) : List Char :=
  upToLastSlash (dropSlash path)

/-- A path, up to the beginning of a segment, with that segment added. -/
def addSegment (path segment : List Char) (slash : Bool) : List Char :=
  if isTwoDots segment then
    let shorter := dropSegment path
    if slash && !endsWithSlash shorter then shorter ++ ['/'] else shorter
  else if isOneDot segment then
    if endsWithSlash path then path else path ++ ['/']
  else path ++ segment ++ (if slash then ['/'] else [])

/-- Add segments with a slash after each but the last. -/
def addSegments (path : List Char) : List (List Char) → List Char
  | [] => path
  | [last] => addSegment path last false
  | segment :: rest => addSegments (addSegment path segment true) rest

/-- The path that a text stands for. -/
def readPath (text : List Char) : List Char :=
  let start := if text.head? = some '/' then [] else ['/']
  if text.isEmpty then [] else addSegments start (pieces '/' (escapeWhere isPathEscaped text))

/-- A path with one more segment, which may be any text. Texts of one or two dots
add nothing. -/
def pushSegment (path segment : List Char) : List Char :=
  if segment = ['.'] || segment = ['.', '.'] then path
  else
    let start := if 1 < path.length then path ++ ['/'] else path
    addSegment start (escapeWhere isSegmentEscaped segment) false

end ContextDb.Url
