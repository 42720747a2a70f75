import ContextDb.Toml.Number

/-!
# Values of TOML

The values that keys may have, and tables, which are built up from keys and
headers. How a table came about decides what may still be added to it.
-/

namespace ContextDb.Toml

/-- How a table came about. -/
inductive Origin where
  /-- by a header of its own -/
  | header
  /-- on the way to a table with a header -/
  | passing
  /-- on the way of a key with several parts -/
  | dotted
  /-- written out in one value -/
  | inline
  deriving DecidableEq, Repr

/-- A value of a document. -/
inductive Node where
  | text (value : String)
  | integer (value : Int)
  | flag (value : Bool)
  /-- a fraction, a date or a time -/
  | scalar
  | array (items : List Node)
  | table (origin : Origin) (members : List (String × Node))
  /-- the tables under one header in double brackets, the last one first -/
  | tables (latest : List (String × Node)) (earlier : List (List (String × Node)))

/-- The members of a table in order. -/
abbrev Members := List (String × Node)

/-- Whether a table only exists on the way to others. -/
def Origin.isImplicit : Origin → Bool
  | .passing | .dotted => true
  | .header | .inline => false

/-- The value under a key. -/
def Members.get? (members : Members) (key : String) : Option Node :=
  (members.find? (·.1 = key)).map (·.2)

/-- A key set to a value, in its place if it has one. -/
def Members.set (members : Members) (key : String) (node : Node) : Members :=
  if members.any (·.1 = key) then
    members.map fun (name, held) => if name = key then (name, node) else (name, held)
  else members ++ [(key, node)]

/-- A key without its value. -/
def Members.remove (members : Members) (key : String) : Members :=
  members.filter (·.1 ≠ key)

/-- Change the table at the end of a path, creating the tables on the way. Along
a key with several parts only tables are entered that exist on the way to
others. -/
def Members.change (created : Origin) (isKey : Bool)
    (change : Origin → Members → Option Members) :
    List String → Origin → Members → Option Members
  | [], origin, members => change origin members
  | key :: path, _, members =>
    match members.get? key with
    | none =>
      (Members.change created isKey change path created []).map fun changed =>
        members.set key (.table created changed)
    | some (.table origin held) =>
      if origin = .inline then none
      else if isKey && !origin.isImplicit then none
      else
        (Members.change created isKey change path origin held).map fun changed =>
          members.set key (.table origin changed)
    | some (.tables latest earlier) =>
      (Members.change created isKey change path .header latest).map fun changed =>
        members.set key (.tables changed earlier)
    | some _ => none

/-- Add a value under a key with one or more parts. A key of one part adds to the
table itself; one of several parts adds to a table of its own making. -/
def Members.assign (members : Members) (path : List String) (key : String) (node : Node) :
    Option Members :=
  members.change .dotted true (fun origin held =>
    if (origin == .dotted) == path.isEmpty then none
    else if (held.get? key).isSome then none
    else some (held.set key node)) path .header

/-- Add a value under the parts of a key. -/
def Members.assignKey (members : Members) (parts : List String) (node : Node) :
    Option Members :=
  match parts.getLast? with
  | none => none
  | some key => members.assign parts.dropLast key node

mutual

/-- A value. -/
def readValue : (fuel depth : Nat) → Reader Node
  | 0, _, _ => none
  | fuel + 1, depth, text =>
    match text with
    | '"' :: _ | '\x27' :: _ => (readString text).map fun (value, rest) => (.text value, rest)
    | '[' :: rest =>
      match depth with
      | 0 => none
      | depth + 1 => readItems fuel depth [] (skipSpace rest.length rest)
    | '\x7b' :: rest =>
      match depth with
      | 0 => none
      | depth + 1 =>
        match skipBlank rest with
        | '\x7d' :: rest => some (.table .inline [], rest)
        | rest => readInline fuel depth [] rest
    | 't' :: _ => (word? "true" text).map (.flag true, ·)
    | 'f' :: _ => (word? "false" text).map (.flag false, ·)
    | c :: _ =>
      if c = '+' || c = '-' || c.isDigit then
        (((skipTime? text).orElse fun _ => skipFraction? text).map (Node.scalar, ·)).orElse
          fun _ => (readInteger text).map fun (value, rest) => (.integer value, rest)
      else if c = 'i' then (word? "inf" text).map (.scalar, ·)
      else if c = 'n' then (word? "nan" text).map (.scalar, ·)
      else none
    | [] => none

/-- The elements of an array up to its closing bracket, collected in reverse. -/
def readItems : (fuel depth : Nat) → List Node → Reader Node
  | 0, _, _, _ => none
  | fuel + 1, depth, reversed, text =>
    match text with
    | ']' :: rest => some (.array reversed.reverse, rest)
    | _ =>
      match readValue fuel depth text with
      | none => none
      | some (item, rest) =>
        match skipSpace rest.length rest with
        | ',' :: rest => readItems fuel depth (item :: reversed) (skipSpace rest.length rest)
        | ']' :: rest => some (.array (item :: reversed).reverse, rest)
        | _ => none

/-- The members of a table that is written out, up to its closing brace. -/
def readInline : (fuel depth : Nat) → Members → Reader Node
  | 0, _, _, _ => none
  | fuel + 1, depth, members, text =>
    match readKey text with
    | none => none
    | some (parts, rest) =>
      match rest with
      | '=' :: rest =>
        match readValue fuel depth (skipBlank rest) with
        | none => none
        | some (value, rest) =>
          match members.assignKey parts value with
          | none => none
          | some members =>
            match skipBlank rest with
            | ',' :: rest => readInline fuel depth members rest
            | '\x7d' :: rest => some (.table .inline members, rest)
            | _ => none
      | _ => none

end

end ContextDb.Toml
