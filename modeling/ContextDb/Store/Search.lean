import ContextDb.Decimal.Binary64
import ContextDb.Glob.Match
import ContextDb.Store.Tree
import ContextDb.Text.LowerCase
import ContextDb.Text.Occurrence

/-!
# Searching

Files by how often the words of a query occur in them, lines by a text they
contain, and addresses by a wildcard pattern.
-/

namespace ContextDb.Store

open Text Decimal

/-- The words of a query in lower case. -/
def queryTerms (query : String) : List (List Char) :=
  (words query.toList).map lower

/-- How often the words of a query occur in a text in lower case, taken
together. -/
def scoreOf (terms : List (List Char)) (lowered : List Char) : Nat :=
  terms.foldr (fun term total => occurrences term lowered + total) 0

/-- The trimmed line of a text at the place of the first line of its lower-case
form that contains a word. -/
def snippetAround (content lowered term : List Char) : String :=
  let index := ((lines lowered).findIdx? (occursIn term)).getD 0
  match (lines content)[index]? with
  | some line => truncate (trim line)
  | none => ""

/-- The hit of a file, if a word of the query occurs in it. -/
def hitOf (terms : List (List Char)) (entry : Entry) : Option Hit :=
  let content := entry.content.toList
  let lowered := lower content
  let score := scoreOf terms lowered
  if score = 0 then none
  else some ⟨entry.uri, Binary64.singleRounded score,
    snippetAround content lowered (terms.head?.getD [])⟩

/-- The best files for a query at or below an address, by default the root. -/
def find (store : Store) (query : String) (target : Option String) (limit : Nat) :
    Except Error (List Hit) := do
  let base ← Uri.normalize (target.getD Uri.scheme)
  let terms := queryTerms query
  if terms.isEmpty then throw (.invalidArgument "query is empty")
  return (((store.filesWithin base).filterMap (hitOf terms)).mergeSort Hit.precedes).take limit

/-- The lines of a file that satisfy a condition, with their numbers. -/
def matchingLines (accepts : List Char → Bool) (entry : Entry) : List LineMatch :=
  ((lines entry.content.toList).zipIdx 1).filterMap fun (line, number) =>
    if accepts line then some ⟨entry.uri, number, String.ofList line⟩ else none

/-- The lines that contain a text, in files at or below an address. -/
def grep (store : Store) (target pattern : String) (caseInsensitive : Bool) :
    Except Error (List LineMatch) := do
  let base ← Uri.normalize target
  if pattern.isEmpty then throw (.invalidArgument "pattern is empty")
  let wanted := pattern.toList
  let accepts :=
    if caseInsensitive then
      let lowered := lower wanted
      fun line => occursIn lowered (lower line)
    else occursIn wanted
  if !store.entries.contains base then throw (.notFound base)
  return (store.filesWithin base).flatMap (matchingLines accepts)

/-- The error for a text that is no pattern. -/
def badPattern (pattern : String) (fault : Glob.Fault) : Error :=
  .invalidArgument ("invalid glob pattern '" ++ pattern ++ "': " ++ fault.message)

/-- The addresses of files below a directory, by default the root, whose path
from there matches a pattern. -/
def glob (store : Store) (pattern : String) (target : Option String) :
    Except Error (List String) := do
  let base ← Uri.normalize (target.getD Uri.scheme)
  match Glob.compile pattern with
  | .error fault => throw (badPattern pattern fault)
  | .ok compiled =>
    return ((store.filesBelow base).map (·.uri)).filter fun uri =>
      compiled.accepts (Uri.relative uri base)

end ContextDb.Store
