import ContextDb.Rest.Endpoint

/-!
# The description of the REST interface

The OpenAPI document that the service serves about itself, and from which the
operations for agents are taken. It is put together from the table of endpoints.
-/

namespace ContextDb.Rest

open Json

/-- The version of the service. -/
def serviceVersion : String := "0.1.0"

/-- The parameters that are captured from the path. -/
def pathParameter (name : String) : Json :=
  .obj [("description", .str "Session UUID"), ("in", .str "path"), ("name", .str name),
    ("required", .bool true), ("schema", SchemaType.text.schema)]

/-- A parameter of the query. An optional one has the schema of its values. -/
def queryParameter (property : Property) : Json :=
  let (required, type) := match property.type with
    | .optional inner => (false, inner)
    | type => (true, type)
  .obj [("description", .str property.about), ("in", .str "query"), ("name", .str property.name),
    ("required", .bool required), ("schema", type.schema)]

/-- All parameters of an endpoint. -/
def Endpoint.parameters (endpoint : Endpoint) : List Json :=
  let captured := endpoint.segments.filterMap fun segment =>
    match segment with
    | .literal _ => none
    | .capture name => some (pathParameter name)
  captured ++ (fieldProperties endpoint.profile.query).map queryParameter

/-- The content of a JSON message with a given schema. -/
def jsonContent (type : SchemaType) : String × Json :=
  ("content", .obj [("application/json", .obj [("schema", type.schema)])])

/-- A reply in the description. -/
def Reply.describe (reply : Reply) : String × Json :=
  let about := ("description", Json.str reply.about)
  (Nat.repr reply.status,
    .obj (match reply.result with
      | none => [about]
      | some type => [jsonContent type, about]))

/-- An endpoint in the description. -/
def Endpoint.describe (endpoint : Endpoint) : Json :=
  let profile := endpoint.profile
  let parameters := match endpoint.parameters with
    | [] => []
    | some_ => [("parameters", Json.arr some_)]
  let body := match profile.body with
    | none => []
    | some shape =>
      [("requestBody", Json.obj [jsonContent (shapeType shape), ("required", .bool true)])]
  .obj (("operationId", .str profile.id) :: parameters ++ body ++
    [("responses", .obj (profile.replies.map Reply.describe)), ("summary", .str profile.summary),
      ("tags", .ofStrings [profile.tag])])

/-- The endpoints with a given path in the description, by method. -/
def pathItem (template : String) : Json :=
  .obj (canonicalMembers ((Endpoint.all.filter (·.template = template)).map fun endpoint =>
    (endpoint.method.key, endpoint.describe)))

/-- All endpoints in the description, by path and method. -/
def paths : Json :=
  .obj (canonicalMembers (Endpoint.all.map fun endpoint =>
    (endpoint.template, pathItem endpoint.template)))

/-- The schemas of what is answered. -/
def answerSchemas : List ObjectSchema :=
  [ { name := "Entry"
      about := "A node in the context tree, addressed by a `viking://` URI"
      properties :=
        [⟨"uri", .text, ""⟩, ⟨"kind", .named "EntryKind", ""⟩,
          ⟨"size", .count, "Content length in bytes (0 for directories)"⟩,
          ⟨"created_at", .time, ""⟩, ⟨"updated_at", .time, ""⟩] },
    { name := "ErrorInfo"
      about := "Error payload of the response envelope"
      properties :=
        [⟨"code", .text, "Machine-readable code such as `NOT_FOUND`"⟩,
          ⟨"message", .text, "Human-readable message"⟩, ⟨"details", .optional .anything, ""⟩] },
    { name := "FindHit"
      about := "Search hit from `find`"
      properties := [⟨"uri", .text, ""⟩, ⟨"score", .score, ""⟩, ⟨"snippet", .text, ""⟩] },
    { name := "GrepMatch"
      about := "Line match from `grep`"
      properties := [⟨"uri", .text, ""⟩, ⟨"line", .count, ""⟩, ⟨"content", .text, ""⟩] },
    { name := "Message"
      properties := [⟨"role", .text, ""⟩, ⟨"content", .text, ""⟩, ⟨"created_at", .time, ""⟩] },
    { name := "Relation"
      about := "A directed link between two entries"
      properties := [⟨"uri", .text, ""⟩, ⟨"reason", .text, ""⟩] },
    { name := "Session"
      properties :=
        [⟨"id", .identifier, ""⟩, ⟨"created_at", .time, ""⟩,
          ⟨"messages", .list (.named "Message"), ""⟩] },
    { name := "SessionMeta"
      about := "Session listing row"
      properties :=
        [⟨"id", .identifier, ""⟩, ⟨"created_at", .time, ""⟩, ⟨"message_count", .count, ""⟩] },
    { name := "HealthResponse"
      properties :=
        [⟨"status", .text, "Service status"⟩, ⟨"version", .text, "Server version"⟩] },
    { name := "SystemStatus"
      properties :=
        [⟨"version", .text, ""⟩, ⟨"mcp_enabled", .flag, ""⟩, ⟨"mcp_path", .optional .text, ""⟩,
          ⟨"mcp_auth", .flag, ""⟩, ⟨"uptime_secs", .seconds, ""⟩] },
    { name := "ComponentStatus"
      properties := [⟨"name", .text, ""⟩, ⟨"healthy", .flag, ""⟩, ⟨"detail", .text, ""⟩] },
    { name := "ContentResponse"
      properties := [⟨"uri", .text, ""⟩, ⟨"content", .text, ""⟩] },
    { name := "RemovedResponse"
      properties := [⟨"removed", .list .text, ""⟩] },
    { name := "Pack"
      about := "Portable snapshot of a subtree"
      properties := [⟨"uri", .text, ""⟩, ⟨"files", .list (.named "PackFile"), ""⟩] },
    { name := "PackFile"
      about := "One file of an exported context pack, addressed relative to the pack root"
      properties := [⟨"path", .text, ""⟩, ⟨"content", .text, ""⟩] },
    { name := "ObserverSnapshot"
      about := "Store-wide counters"
      properties :=
        [⟨"entries", .count, ""⟩, ⟨"relations", .count, ""⟩, ⟨"sessions", .count, ""⟩,
          ⟨"uptime_secs", .seconds, ""⟩] } ]

/-- The schemas of what is asked. -/
def requestSchemas : List ObjectSchema :=
  Endpoint.all.filterMap fun endpoint => endpoint.profile.body.bind recordSchema?

/-- The schema of the kinds of entries. -/
def kindSchema : Json :=
  .obj [("enum", .ofStrings ["dir", "file"]), ("type", .str "string")]

/-- All named schemas. -/
def schemas : Json :=
  .obj (canonicalMembers (("EntryKind", kindSchema) ::
    (answerSchemas ++ requestSchemas).map fun object => (object.name, object.schema)))

/-- The tags of endpoints with their descriptions. -/
def tags : Json :=
  .arr ([("system", "Health and status"), ("resources", "Resource ingestion"),
    ("filesystem", "Context tree operations"), ("content", "Reading content"),
    ("search", "Search operations"), ("relations", "Links between entries"),
    ("sessions", "Conversation sessions"), ("pack", "Subtree export and import"),
    ("debug", "Diagnostics"), ("observer", "Store counters")].map fun (name, about) =>
      .obj [("description", .str about), ("name", .str name)])

/-- The terms under which the interface is offered. -/
def terms : Json :=
  .obj [("identifier", .str "Apache-2.0"), ("name", .str "Apache-2.0")]

/-- The description of the REST interface. -/
def document : Json :=
  .obj [("components", .obj [("schemas", schemas)]),
    ("info", .obj [("description",
        .str "OpenViking HTTP Server - Agent-native context database"),
      ("license", terms), ("title", .str "OpenViking API"), ("version", .str serviceVersion)]),
    ("openapi", .str "3.1.0"), ("paths", paths), ("tags", tags)]

end ContextDb.Rest
