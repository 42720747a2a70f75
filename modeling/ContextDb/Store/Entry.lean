import ContextDb.Uuid

/-!
# What the store holds

Entries of the context tree, links between them, and sessions with their
messages; and the forms in which queries report them. Times are ticks of the
clock of the service.
-/

namespace ContextDb

/-- A point in time. -/
abbrev Tick := Nat

/-- Whether an entry is a directory or a file. -/
inductive EntryKind where
  | dir
  | file
  deriving DecidableEq, Repr

/-- A node of the context tree. -/
structure Entry where
  uri : String
  kind : EntryKind
  content : String
  /-- the length of the content in bytes, zero for a directory -/
  size : Nat
  createdAt : Tick
  updatedAt : Tick
  deriving DecidableEq, Repr

namespace Entry

/-- A new directory. -/
def newDir (uri : String) (now : Tick) : Entry :=
  ⟨uri, .dir, "", 0, now, now⟩

/-- A new file. -/
def newFile (uri content : String) (now : Tick) : Entry :=
  ⟨uri, .file, content, content.utf8ByteSize, now, now⟩

/-- A file with new content. -/
def withContent (entry : Entry) (content : String) (now : Tick) : Entry :=
  { entry with content, size := content.utf8ByteSize, updatedAt := now }

/-- An entry at a new place. -/
def moveTo (entry : Entry) (uri : String) (now : Tick) : Entry :=
  { entry with uri, updatedAt := now }

/-- Whether an entry is a directory. -/
def isDir (entry : Entry) : Bool :=
  entry.kind = .dir

/-- Whether an entry is a file. -/
def isFile (entry : Entry) : Bool :=
  entry.kind = .file

end Entry

/-- A link to an entry, and why it is there. -/
structure Relation where
  uri : String
  reason : String
  deriving DecidableEq, Repr

/-- A message of a session. -/
structure Message where
  role : String
  content : String
  createdAt : Tick
  deriving DecidableEq, Repr

/-- A conversation. -/
structure Session where
  id : Uuid
  createdAt : Tick
  messages : List Message
  deriving DecidableEq, Repr

/-- The order of sessions in a listing: by age, those of one moment by identifier. -/
def Session.precedes (first second : Session) : Bool :=
  first.createdAt < second.createdAt ||
    (first.createdAt = second.createdAt && first.id.bits.toNat ≤ second.id.bits.toNat)

/-- A file of a pack, with its path inside the pack. -/
structure PackFile where
  path : String
  content : String
  deriving DecidableEq, Repr

/-- The files of a subtree. -/
structure Pack where
  uri : String
  files : List PackFile
  deriving DecidableEq, Repr

/-- A file that answers a query, with its number of occurrences to the precision
in which ranks are compared. -/
structure Hit where
  uri : String
  score : Nat
  snippet : String
  deriving DecidableEq, Repr

/-- The order of hits: those with more occurrences first, equal ones by address. -/
def Hit.precedes (first second : Hit) : Bool :=
  second.score < first.score || (first.score = second.score && first.uri ≤ second.uri)

/-- A line that contains a pattern. Lines are counted from one. -/
structure LineMatch where
  uri : String
  line : Nat
  content : String
  deriving DecidableEq, Repr

end ContextDb
