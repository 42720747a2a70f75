import ContextDb.Text.Bytes
import ContextDb.Text.Split

/-!
# Request targets

What stands in a request line between the method and the version: a path with a
query, an absolute URI, an authority alone, or a star. A target with a character
that may not stand where it does is no target.
-/

namespace ContextDb.Http

open Text

/-- The path and the query of a target. -/
structure Target where
  path : String
  query : Option String
  deriving DecidableEq, Repr

/-- The length of a target in bytes, with the mark in front of its query. -/
def Target.size (target : Target) : Nat :=
  target.path.utf8ByteSize + (target.query.map fun query => query.utf8ByteSize + 1).getD 0

/-- The greatest length of a target in bytes. -/
def maxTargetBytes : Nat := 65534

/-- Characters that may stand in a path. -/
def isPathChar (c : Char) : Bool :=
  let code := c.toNat
  code == 0x21 || code == 0x22 || (0x24 ≤ code && code ≤ 0x3B) || code == 0x3D ||
    (0x40 ≤ code && code ≤ 0x5F) || (0x61 ≤ code && code ≤ 0x7E) || 0x80 ≤ code

/-- Characters that may stand in a query. -/
def isQueryChar (c : Char) : Bool :=
  let code := c.toNat
  code == 0x21 || (0x24 ≤ code && code ≤ 0x3B) || code == 0x3D || (0x3F ≤ code && code != 0x7F)

/-- The path and the query of a text, of which a fragment is dropped. -/
def Target.ofPath? (text : List Char) : Option Target :=
  let path := text.takeWhile fun c => c != '?' && c != '#'
  let rest := text.drop path.length
  if !path.all isPathChar then none
  else
    let path := if path.isEmpty then "/" else String.ofList path
    match rest with
    | '?' :: rest =>
      let query := rest.takeWhile (· != '#')
      if query.all isQueryChar then some ⟨path, some (String.ofList query)⟩ else none
    | _ => some ⟨path, none⟩

/-- Characters that may stand in an authority. -/
def isAuthorityChar (c : Char) : Bool :=
  c.isAlphanum || "!$&'()*+,-.:;=@[]_~".toList.contains c

/-- What has been seen of an authority. -/
structure AuthorityState where
  colons : Nat := 0
  opened : Bool := false
  closed : Bool := false
  percent : Bool := false
  /-- whether the last character was an at sign -/
  user : Bool := false

/-- Take one character of an authority. -/
def AuthorityState.next (state : AuthorityState) (c : Char) : Option AuthorityState :=
  let state := { state with user := false }
  if c = ':' then if 8 ≤ state.colons then none else some { state with colons := state.colons + 1 }
  else if c = '[' then
    if state.percent || state.opened then none else some { state with opened := true }
  else if c = ']' then
    if !state.opened || state.closed then none
    else some { state with closed := true, colons := 0, percent := false }
  else if c = '@' then some { state with user := true, colons := 0, percent := false }
  else if c = '%' then some { state with percent := true }
  else if isAuthorityChar c then some state
  else none

/-- Whether what has been seen is a whole authority. -/
def AuthorityState.isWhole (state : AuthorityState) : Bool :=
  state.opened == state.closed && state.colons ≤ 1 && !state.user && !state.percent

/-- Whether a text is an authority. -/
def isAuthority (text : List Char) : Bool :=
  !text.isEmpty && (text.foldlM AuthorityState.next {}).any AuthorityState.isWhole

/-- Characters that may stand in a scheme. -/
def isSchemeChar (c : Char) : Bool :=
  c.isAlphanum || c = '+' || c = '-' || c = '.' || c = '~'

/-- The greatest length of a scheme. -/
def maxSchemeLength : Nat := 64

/-- The text after a scheme and two slashes. `none` if there is no scheme, and a
text only if the scheme is not too long. -/
def afterScheme? (text : List Char) : Option (Option (List Char)) :=
  let scheme := text.takeWhile isSchemeChar
  match text.drop scheme.length with
  | ':' :: '/' :: '/' :: rest =>
    some (if scheme.length ≤ maxSchemeLength then some rest else none)
  | _ => none

/-- Whether a character ends an authority. -/
def endsHost (c : Char) : Bool :=
  c = '/' || c = '?' || c = '#'

/-- Read a target. -/
def Target.ofText? (text : String) : Option Target :=
  if maxTargetBytes < text.utf8ByteSize then none
  else
    match text.toList with
    | [] => none
    | ['*'] => some ⟨"*", none⟩
    | '/' :: rest => Target.ofPath? ('/' :: rest)
    | other =>
      match afterScheme? other with
      | none => if isAuthority other then some ⟨"", none⟩ else none
      | some none => none
      | some (some rest) =>
        let authority := rest.takeWhile (!endsHost ·)
        if isAuthority authority then Target.ofPath? (rest.drop authority.length) else none

end ContextDb.Http
