import ContextDb.Json.Basic

/-!
# Forms of parameters

What the parameters of a message have to look like before they are used. A form
gives no value and no reason: a value either has it or not.
-/

namespace ContextDb.Bridge

/-- What a value has to look like. -/
abbrev Form := Json → Bool

/-- A field of a record. -/
structure Field where
  name : String
  isRequired : Bool
  form : Form

namespace Form

open Json

/-- Any text. -/
def text : Form := fun value =>
  value.text?.isSome

/-- Any truth value. -/
def flag : Form := fun value =>
  value.flag?.isSome

/-- Any object. -/
def object : Form := fun value =>
  value.members?.isSome

/-- An array whose elements all have a form. -/
def list (item : Form) : Form := fun value =>
  value.items?.any (·.all item)

/-- An object whose members all have a form. -/
def table (item : Form) : Form := fun value =>
  value.members?.any (·.all fun member => item member.2)

end Form

/-- A field that every record has. -/
def Field.required (name : String) (form : Form) : Field :=
  ⟨name, true, form⟩

/-- A field that may be left out or null. -/
def Field.optional (name : String) (form : Form) : Field :=
  ⟨name, false, fun value => value.isNull || form value⟩

/-- Whether the members of an object have a field once, or not at all if they
need not. -/
def Field.isIn (field : Field) (members : List (String × Json)) : Bool :=
  match members.filter (·.1 = field.name) with
  | [] => !field.isRequired
  | [(_, value)] => field.form value
  | _ => false

namespace Form

open Json

/-- An object with certain fields, and any other members. -/
def members (fields : List Field) : Form := fun value =>
  value.members?.any fun members => fields.all (·.isIn members)

/-- The array of the values of certain fields, in their order. -/
def inOrder (fields : List Field) : Form := fun value =>
  value.items?.any fun items =>
    items.length = fields.length && (fields.zip items).all fun (field, item) => field.form item

/-- A record: an object with its fields, or the array of all of them. -/
def record (fields : List Field) : Form := fun value =>
  members fields value || inOrder fields value

/-- The parameters of a message: an object with certain fields. Remarks may be
added to the parameters of every message. -/
def parameters (fields : List Field) : Form :=
  members (.optional "_meta" object :: fields)

end Form

end ContextDb.Bridge
