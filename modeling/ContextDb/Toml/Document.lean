import ContextDb.Toml.Node

/-!
# TOML documents

A document is a sequence of keys with values and of headers. A header opens a
table to which the keys after it belong.
-/

namespace ContextDb.Toml

/-- A header: the path of its table, and whether it opens another table under a
path that has several. -/
structure Header where
  path : List String
  several : Bool

/-- How far a document has been read: the finished tables, and the open one. -/
structure Progress where
  root : Members
  header : Option Header
  current : Members

/-- The document before its first line. -/
def Progress.start : Progress :=
  ⟨[], none, []⟩

/-- Do something with the table that holds the one at a path. -/
def withHolder (root : Members) (path : List String)
    (change : String → Members → Option Members) : Option Members :=
  match path.getLast? with
  | none => none
  | some key =>
    root.change .passing false (fun _ members => change key members) path.dropLast .header

/-- Put the open table where its header says. -/
def Progress.close (progress : Progress) : Option Members :=
  match progress.header with
  | none => some progress.current
  | some header =>
    withHolder progress.root header.path fun key members =>
      match header.several, members.get? key with
      | true, none => some (members.set key (.tables progress.current []))
      | true, some (.tables latest earlier) =>
        some (members.set key (.tables progress.current (latest :: earlier)))
      | false, none => some (members.set key (.table .header progress.current))
      | _, _ => none

/-- The value under a key of the table at a path. -/
def findHeld (members : Members) (key : String) : List String → Option Node
  | [] => members.get? key
  | part :: path =>
    match members.get? part with
    | some (.table _ held) => findHeld held key path
    | some (.tables latest _) => findHeld latest key path
    | _ => none

/-- Let another table be opened under a header in double brackets, of which there
may be some already. -/
def openAnother (root : Members) (header : Header) : Option Progress :=
  let holder := withHolder root header.path fun key members =>
    match members.get? key with
    | none | some (.tables ..) => some members
    | some _ => none
  holder.map fun root => ⟨root, some header, []⟩

/-- Open the only table under a header. A table that so far only exists on the way
to others is continued; any other must not exist. -/
def openOnly (root : Members) (header : Header) : Option Progress :=
  let holder := withHolder root header.path fun key members => some (members.remove key)
  let found := header.path.getLast?.bind fun key => findHeld root key header.path.dropLast
  match holder, found with
  | some root, none => some ⟨root, some header, []⟩
  | some root, some (.table .passing members) => some ⟨root, some header, members⟩
  | _, _ => none

/-- Finish the open table and open that of a header. -/
def Progress.openTable (progress : Progress) (header : Header) : Option Progress :=
  progress.close.bind fun root =>
    if header.several then openAnother root header else openOnly root header

/-- A header in brackets, and the text after its line. -/
def readHeader : Reader Header := fun text =>
  match text with
  | '[' :: '[' :: rest =>
    match readKey rest with
    | some (path, ']' :: ']' :: rest) => (lineEnd? rest).map (⟨path, true⟩, ·)
    | _ => none
  | '[' :: rest =>
    match readKey rest with
    | some (path, ']' :: rest) => (lineEnd? rest).map (⟨path, false⟩, ·)
    | _ => none
  | _ => none

/-- A key with its value, and the text after its line. -/
def readAssignment : Reader (List String × Node) := fun text =>
  match readKey text with
  | some (parts, '=' :: rest) =>
    match readValue (2 * rest.length + 2) (nestingLimit - 1) (skipBlank rest) with
    | some (value, rest) => (lineEnd? rest).map ((parts, value), ·)
    | none => none
  | _ => none

/-- Read the lines of a document. -/
def readLines : Nat → Progress → List Char → Option Progress
  | 0, _, _ => none
  | fuel + 1, progress, text =>
    match skipBlank text with
    | [] => some progress
    | '#' :: rest =>
      match lineEnd? ('#' :: rest) with
      | some rest => readLines fuel progress rest
      | none => none
    | '[' :: rest =>
      match readHeader ('[' :: rest) with
      | none => none
      | some (header, rest) =>
        match progress.openTable header with
        | none => none
        | some progress => readLines fuel progress rest
    | c :: rest =>
      match newline? (c :: rest) with
      | some rest => readLines fuel progress rest
      | none =>
        match readAssignment (c :: rest) with
        | none => none
        | some ((parts, value), rest) =>
          match progress.current.assignKey parts value with
          | none => none
          | some current => readLines fuel { progress with current } rest

/-- The table that a text stands for. A mark of the byte order in front of it is
passed over. -/
def read? (text : String) : Option Members :=
  let text := match text.toList with
    | '\uFEFF' :: rest => rest
    | other => other
  (readLines (text.length + 1) .start text).bind Progress.close

end ContextDb.Toml
