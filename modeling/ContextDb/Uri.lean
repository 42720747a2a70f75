import ContextDb.Error
import ContextDb.Text.Bytes
import ContextDb.Text.Split
import ContextDb.Text.White

/-!
# Addresses in the context tree

An entry of the tree is addressed by a URI: the scheme followed by the names on
the way from the root, with a slash between each two. `normalize` accepts every
spelling of such an address and gives the one under which the entry is kept; the
other functions relate addresses in that form to each other.
-/

namespace ContextDb.Uri

open Text

/-- The scheme, which is also the address of the root. -/
def scheme : String := "viking://"

/-- The number of bytes of the scheme. -/
def schemeBytes : Nat := 9

/-- The address with a given path. -/
def ofPath (path : List Char) : String :=
  String.ofList (scheme.toList ++ path)

/-- The path of an address: what follows the scheme. -/
def path (uri : String) : List Char :=
  (dropBytes? schemeBytes uri.toList).getD []

/-- Whether a name only refers to a directory relative to another one. -/
def isRelativeName (name : List Char) : Bool :=
  name = ['.'] || name = ['.', '.']

/-- The one spelling of an address under which its entry is kept: repeated and
trailing slashes are dropped. Names that refer to other directories are
refused. -/
def normalize (uri : String) : Except Error String :=
  match dropPrefix? scheme.toList uri.toList with
  | none => .error (.invalidUri ("expected " ++ scheme ++ "..., got '" ++ uri ++ "'"))
  | some rest =>
    let names := (pieces '/' rest).filter (!·.isEmpty)
    if names.any isRelativeName then
      .error (.invalidUri ("relative segment in '" ++ uri ++ "'"))
    else .ok (ofPath (joinWith ['/'] names))

/-- Whether an address is that of the root. -/
def isRoot (uri : String) : Bool :=
  uri = scheme

/-- The address of the directory that holds an entry; the root is in none. -/
def parent? (uri : String) : Option String :=
  if isRoot uri then none
  else some (ofPath ((beforeLast? '/' (path uri)).getD []))

/-- Whether an address lies strictly below another. -/
def isBelow (uri ancestor : String) : Bool :=
  if isRoot ancestor then !isRoot uri && scheme.toList.isPrefixOf uri.toList
  else match dropPrefix? ancestor.toList uri.toList with
    | some ('/' :: _) => true
    | _ => false

/-- The path of an address seen from an ancestor; empty for the ancestor itself. -/
def relative (uri ancestor : String) : String :=
  if isRoot ancestor then String.ofList (path uri)
  else String.ofList (((dropBytes? ancestor.utf8ByteSize uri.toList).getD []).dropWhile (· == '/'))

/-- The beginnings of a path that end right before a slash, shortest first. -/
def leadingPaths (path : List Char) : List (List Char) :=
  path.foldr (fun c longer =>
    let extended := longer.map (c :: ·)
    if c == '/' then [] :: extended else extended) []

/-- The addresses of all directories above an entry, from the root down. -/
def ancestors (uri : String) : List String :=
  if isRoot uri then []
  else scheme :: (((leadingPaths (path uri)).filter (!·.isEmpty)).map ofPath)

/-- The last name of an address. -/
def name (uri : String) : String :=
  String.ofList (afterLast '/' uri.toList)

end ContextDb.Uri
