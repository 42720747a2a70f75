import ContextDb.Json.Reader
import ContextDb.Json.Shape

/-!
# Schemas

How the description of the REST interface states the form of JSON values. What
is accepted is described from its shape; what is answered has schemas of its
own.
-/

namespace ContextDb.Rest

open Json

/-- The type of a value in a description. -/
inductive SchemaType where
  | text
  | flag
  | count
  | seconds
  | score
  | time
  | identifier
  | anything
  | named (name : String)
  | list (item : SchemaType)
  | optional (inner : SchemaType)

/-- The place of a named schema in the description. -/
def schemaPlace (name : String) : String :=
  "#/components/schemas/" ++ name

/-- A reference to a named schema. -/
def reference (name : String) : Json :=
  .obj [("$ref", .str (schemaPlace name))]

/-- The JSON type of a value, and what else is said about it, in the order of
the names. -/
def SchemaType.members (typeOf : Json → Json) : SchemaType → List (String × Json)
  | .text => [("type", typeOf (.str "string"))]
  | .flag => [("type", typeOf (.str "boolean"))]
  | .count => [("minimum", .ofNat 0), ("type", typeOf (.str "integer"))]
  | .seconds => [("format", .str "int64"), ("type", typeOf (.str "integer"))]
  | .score => [("format", .str "float"), ("type", typeOf (.str "number"))]
  | .time => [("format", .str "date-time"), ("type", typeOf (.str "string"))]
  | .identifier => [("format", .str "uuid"), ("type", typeOf (.str "string"))]
  | .anything => [("type", typeOf (.str "object"))]
  | .named name => [("$ref", .str (schemaPlace name))]
  | .list item => [("items", .obj (item.members id)), ("type", typeOf (.str "array"))]
  | .optional inner => inner.members fun type => .arr [type, .str "null"]

/-- The schema of a type. -/
def SchemaType.schema (type : SchemaType) : Json :=
  .obj (type.members id)

/-- Whether a value may be left out. -/
def SchemaType.isOptional : SchemaType → Bool
  | .optional _ => true
  | _ => false

/-- A property of an object. -/
structure Property where
  name : String
  type : SchemaType
  about : String := ""

/-- The schema of a property. A description comes first in the order of names. -/
def Property.schema (property : Property) : Json :=
  let members := property.type.members id
  .obj (if property.about.isEmpty then members else ("description", .str property.about) :: members)

/-- A named schema of objects. -/
structure ObjectSchema where
  name : String
  about : String := ""
  properties : List Property

/-- A named schema in JSON. -/
def ObjectSchema.schema (object : ObjectSchema) : Json :=
  let properties := object.properties.map fun property => (property.name, property.schema)
  let required := (object.properties.filter (!·.type.isOptional)).map (·.name)
  .obj ((if object.about.isEmpty then [] else [("description", .str object.about)]) ++
    [("properties", .obj (canonicalMembers properties)), ("required", .ofStrings required),
      ("type", .str "object")])

mutual

/-- The type of the values of a shape. -/
def shapeType : Shape → SchemaType
  | .text => .text
  | .flag => .flag
  | .count => .count
  | .optional inner => .optional (shapeType inner)
  | .list item => .list (shapeType item)
  | .record name _ => .named name

/-- The properties of the fields of a record. -/
def fieldProperties : Fields → List Property
  | .done => []
  | .field name about shape others => ⟨name, shapeType shape, about⟩ :: fieldProperties others

end

/-- The named schema of a record. -/
def recordSchema? : Shape → Option ObjectSchema
  | .record name fields => some ⟨name, "", fieldProperties fields⟩
  | _ => none

end ContextDb.Rest
