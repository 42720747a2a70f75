import ContextDb.Store.Basic

/-!
# The context tree

Writing, reading, moving and removing entries. Writing creates the directories
that are missing on the way, and nothing can be written below a file. Moving and
removing take a whole subtree and carry the links along.
-/

namespace ContextDb.Store

open Text

/-- Create the directories of a chain that are missing, the uppermost first. A
file in the way ends the creation. -/
def ensureDirs (now : Tick) :
    List String → SortedMap Entry → Except Error Unit × SortedMap Entry
  | [], entries => (.ok (), entries)
  | dir :: deeper, entries =>
    match entries.get? dir with
    | some existing =>
      if existing.isFile then (.error (.alreadyExists (dir ++ " is a file")), entries)
      else ensureDirs now deeper entries
    | none => ensureDirs now deeper (entries.insert dir (.newDir dir now))

/-- Write a file, whether or not it exists. -/
def addResource (store : Store) (uri content : String) (now : Tick) : Outcome Entry :=
  store.withUri uri fun target =>
    if Uri.isRoot target then (.error (.invalidArgument "cannot write to the root"), store)
    else
      match ensureDirs now (Uri.ancestors target) store.entries with
      | (.error error, entries) => (.error error, { store with entries })
      | (.ok (), entries) =>
        match entries.get? target with
        | some existing =>
          if existing.isDir then
            (.error (.alreadyExists (target ++ " is a directory")), { store with entries })
          else
            let entry := existing.withContent content now
            (.ok entry, { store with entries := entries.insert target entry })
        | none =>
          let entry := Entry.newFile target content now
          (.ok entry, { store with entries := entries.insert target entry })

/-- Create a directory, unless it exists. -/
def mkdir (store : Store) (uri : String) (now : Tick) : Outcome Entry :=
  store.withUri uri fun target =>
    match ensureDirs now (Uri.ancestors target ++ [target]) store.entries with
    | (.error error, entries) => (.error error, { store with entries })
    | (.ok (), entries) =>
      match entries.get? target with
      | some entry => (.ok entry, { store with entries })
      | none => (.error (.internal ("directory vanished: " ++ target)), { store with entries })

/-- The files below a directory, by default the root. -/
def listResources (store : Store) (under : Option String) : Except Error (List Entry) := do
  let base ← Uri.normalize (under.getD Uri.scheme)
  return store.filesBelow base

/-- The entry with a given normal address. -/
def entryAt (store : Store) (target : String) : Except Error Entry :=
  match store.entries.get? target with
  | some entry => .ok entry
  | none => .error (.notFound target)

/-- The entry at an address. -/
def stat (store : Store) (uri : String) : Except Error Entry := do
  let target ← Uri.normalize uri
  store.entryAt target

/-- The entries that lie directly in a directory. -/
def children (store : Store) (dir : String) : List Entry :=
  store.entries.values.filter fun entry => Uri.parent? entry.uri = some dir

/-- The entries directly in a directory, in the order of their addresses. -/
def ls (store : Store) (uri : String) : Except Error (List Entry) := do
  let target ← Uri.normalize uri
  let dir ← store.entryAt target
  if dir.isDir then return store.children target
  else throw (.invalidArgument (target ++ " is not a directory"))

/-- The content of a file. -/
def read (store : Store) (uri : String) : Except Error String := do
  let target ← Uri.normalize uri
  let entry ← store.entryAt target
  if entry.isDir then throw (.invalidArgument (target ++ " is a directory"))
  else return entry.content

/-- The number of characters after which a line is cut. -/
def snippetLength : Nat := 160

/-- A line, cut after the greatest length with three dots in place of the rest. -/
def truncate (line : List Char) : String :=
  if line.length ≤ snippetLength then String.ofList line
  else String.ofList (line.take snippetLength ++ ['.', '.', '.'])

/-- The first line of a text that is not blank, trimmed and cut. -/
def firstLine (content : String) : String :=
  match ((lines content.toList).map trim).find? (!·.isEmpty) with
  | some line => truncate line
  | none => ""

/-- A one-line summary: the first line of a file, the number of entries of a
directory. -/
def abstractOf (store : Store) (uri : String) : Except Error String := do
  let target ← Uri.normalize uri
  let entry ← store.entryAt target
  if entry.isDir then
    let count := (store.entries.keys.filter fun key => Uri.parent? key = some target).length
    return "Directory " ++ target ++ " with " ++ Nat.repr count ++ " entries"
  else return firstLine entry.content

/-- The links that are left when some entries are gone. -/
def relationsWithout (relations : SortedMap (List Relation)) (gone : List String) :
    SortedMap (List Relation) :=
  (relations.filter fun source _ => !gone.contains source).mapValues fun links =>
    links.filter fun link => !gone.contains link.uri

/-- Remove an entry with all below it, and every link from or to what is removed.
A directory that is not empty is only removed on demand. -/
def rm (store : Store) (uri : String) (recursive : Bool) : Outcome (List String) :=
  store.withUri uri fun target =>
    if Uri.isRoot target then (.error (.invalidArgument "cannot remove the root"), store)
    else if !store.entries.contains target then (.error (.notFound target), store)
    else
      let below := store.entries.keys.filter (Uri.isBelow · target)
      if !below.isEmpty && !recursive then
        (.error (.failedPrecondition (target ++ " is not empty; pass recursive=true")), store)
      else
        let removed := target :: below
        (.ok removed,
          { store with
            entries := removed.foldl SortedMap.erase store.entries
            relations := relationsWithout store.relations removed })

/-- The address that an entry gets when an ancestor of it, or it itself, moves. -/
def renamed (source destination uri : String) : String :=
  destination ++ String.ofList ((dropBytes? source.utf8ByteSize uri.toList).getD [])

/-- Put an entry under the address it gets. -/
def moveEntry (source destination : String) (now : Tick) (entries : SortedMap Entry)
    (uri : String) : SortedMap Entry :=
  match entries.get? uri with
  | some entry =>
    let moved := entry.moveTo (renamed source destination uri) now
    (entries.erase uri).insert moved.uri moved
  | none => entries

/-- Put the links of an entry under the address it gets. -/
def moveLinks (source destination : String) (relations : SortedMap (List Relation))
    (uri : String) : SortedMap (List Relation) :=
  match relations.get? uri with
  | some links => (relations.erase uri).insert (renamed source destination uri) links
  | none => relations

/-- Let links point to where the moved entries are. -/
def redirect (source destination : String) (moved : List String) (links : List Relation) :
    List Relation :=
  links.map fun link =>
    if moved.contains link.uri then { link with uri := renamed source destination link.uri }
    else link

/-- Move an entry with all below it. The destination must be free and must not
lie below the source. -/
def mv (store : Store) (source destination : String) (now : Tick) : Outcome Entry :=
  store.withUri source fun source =>
  store.withUri destination fun destination =>
    if Uri.isRoot source || Uri.isRoot destination then
      (.error (.invalidArgument "cannot move the root"), store)
    else if Uri.isBelow destination source then
      (.error (.invalidArgument ("cannot move " ++ source ++ " into itself")), store)
    else if !store.entries.contains source then (.error (.notFound source), store)
    else if store.entries.contains destination then (.error (.alreadyExists destination), store)
    else
      match ensureDirs now (Uri.ancestors destination) store.entries with
      | (.error error, entries) => (.error error, { store with entries })
      | (.ok (), entries) =>
        let moved := entries.keys.filter fun key => key = source || Uri.isBelow key source
        let store := { store with
          entries := moved.foldl (moveEntry source destination now) entries
          relations :=
            (moved.foldl (moveLinks source destination) store.relations).mapValues
              (redirect source destination moved) }
        match store.entries.get? destination with
        | some entry => (.ok entry, store)
        | none => (.error (.internal ("moved entry vanished: " ++ destination)), store)

end ContextDb.Store
