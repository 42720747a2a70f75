import ContextDb.Json.Basic
import ContextDb.Store.Operation

/-!
# Answers in JSON

How entries, links, sessions and the results of queries are written in answers.
The content of an entry is not part of it there.
-/

namespace ContextDb

open Json Decimal

/-- The name of a kind of entry. -/
def EntryKind.name : EntryKind → String
  | .dir => "dir"
  | .file => "file"

/-- An entry in JSON. -/
def Entry.toJson (entry : Entry) : Json :=
  .obj [("uri", .str entry.uri), ("kind", .str entry.kind.name), ("size", .ofNat entry.size),
    ("created_at", .ofNat entry.createdAt), ("updated_at", .ofNat entry.updatedAt)]

/-- A link in JSON. -/
def Relation.toJson (relation : Relation) : Json :=
  .obj [("uri", .str relation.uri), ("reason", .str relation.reason)]

/-- A message in JSON. -/
def Message.toJson (message : Message) : Json :=
  .obj [("role", .str message.role), ("content", .str message.content),
    ("created_at", .ofNat message.createdAt)]

/-- A session in JSON with all its messages. -/
def Session.toJson (session : Session) : Json :=
  .obj [("id", .str session.id.toString), ("created_at", .ofNat session.createdAt),
    ("messages", .arr (session.messages.map Message.toJson))]

/-- A session as a row of a listing. -/
def Session.toRow (session : Session) : Json :=
  .obj [("id", .str session.id.toString), ("created_at", .ofNat session.createdAt),
    ("message_count", .ofNat session.messages.length)]

/-- A file of a pack in JSON. -/
def PackFile.toJson (file : PackFile) : Json :=
  .obj [("path", .str file.path), ("content", .str file.content)]

/-- A pack in JSON. -/
def Pack.toJson (pack : Pack) : Json :=
  .obj [("uri", .str pack.uri), ("files", .arr (pack.files.map PackFile.toJson))]

/-- A hit in JSON. Its score is written as a fraction. -/
def Hit.toJson (hit : Hit) : Json :=
  .obj [("uri", .str hit.uri), ("score", .num (.float (Binary64.ofNat hit.score))),
    ("snippet", .str hit.snippet)]

/-- A matching line in JSON. -/
def LineMatch.toJson (found : LineMatch) : Json :=
  .obj [("uri", .str found.uri), ("line", .ofNat found.line), ("content", .str found.content)]

/-- An answer of the store in JSON. -/
def Answer.toJson : Answer → Json
  | .entry it => it.toJson
  | .entries all => .arr (all.map Entry.toJson)
  | .text it => .str it
  | .uris all => .ofStrings all
  | .hits all => .arr (all.map Hit.toJson)
  | .lines all => .arr (all.map LineMatch.toJson)
  | .pack it => it.toJson
  | .links all => .arr (all.map Relation.toJson)
  | .session it => it.toJson
  | .sessions all => .arr (all.map Session.toRow)
  | .done => .null

end ContextDb
