import ContextDb.Decimal.Shortest

/-!
# JSON values

The values in which requests, answers and documents are written. A number is an
integer as long as it is one of the 64-bit integers, signed or not, and was
written without fraction and exponent; any other number is in double precision.
-/

namespace ContextDb

open Decimal

/-- A JSON number. -/
inductive Json.Number where
  | int (value : Int)
  | float (value : Binary64)
  deriving DecidableEq, Repr, Inhabited

/-- A JSON value. The members of an object stand in the order in which they are
written. -/
inductive Json where
  | null
  | bool (value : Bool)
  | num (value : Json.Number)
  | str (value : String)
  | arr (items : List Json)
  | obj (members : List (String × Json))
  deriving Repr, Inhabited

namespace Json

/-- A natural number. -/
def ofNat (n : Nat) : Json :=
  .num (.int n)

/-- A list of strings. -/
def ofStrings (texts : List String) : Json :=
  .arr (texts.map .str)

/-- A value or null. -/
def ofOption {α : Type} (encode : α → Json) : Option α → Json
  | none => .null
  | some value => encode value

/-- The value of a member of a list of members. -/
def lookup (members : List (String × Json)) (key : String) : Option Json :=
  (members.find? (·.1 = key)).map (·.2)

/-- The member of an object with a given name; other values have none. -/
def get? (value : Json) (key : String) : Option Json :=
  match value with
  | .obj members => lookup members key
  | _ => none

/-- The text, of a string. -/
def text? : Json → Option String
  | .str value => some value
  | _ => none

/-- The truth value, of a truth value. -/
def flag? : Json → Option Bool
  | .bool value => some value
  | _ => none

/-- The elements, of an array. -/
def items? : Json → Option (List Json)
  | .arr items => some items
  | _ => none

/-- The members, of an object. -/
def members? : Json → Option (List (String × Json))
  | .obj members => some members
  | _ => none

/-- Whether a value is null. -/
def isNull : Json → Bool
  | .null => true
  | _ => false

/-- What holds of a value as soon as it holds of all elements and members holds of every
value. -/
@[elab_as_elim]
theorem induction_on_parts {property : Json → Prop} (value : Json)
    (single : ∀ value : Json, value.members? = none → value.items? = none → property value)
    (array : ∀ items : List Json, (∀ item ∈ items, property item) → property (.arr items))
    (object : ∀ members : List (String × Json), (∀ member ∈ members, property member.2) →
      property (.obj members)) : property value :=
  match value with
  | .null => single .null rfl rfl
  | .bool flag => single (.bool flag) rfl rfl
  | .num number => single (.num number) rfl rfl
  | .str text => single (.str text) rfl rfl
  | .arr items =>
    array items fun item member =>
      have : sizeOf item < sizeOf items := List.sizeOf_lt_of_mem member
      induction_on_parts item single array object
  | .obj members =>
    object members fun member listed =>
      have : sizeOf member < sizeOf members := List.sizeOf_lt_of_mem listed
      have : sizeOf member = 1 + sizeOf member.1 + sizeOf member.2 := rfl
      induction_on_parts member.2 single array object
termination_by sizeOf value
decreasing_by all_goals simp only [arr.sizeOf_spec, obj.sizeOf_spec]; omega

/-- How numbers in double precision are written. -/
def numberLayout : Layout :=
  ⟨-5, 15, true⟩

/-- The text of a number. -/
def Number.render : Number → String
  | .int value => String.ofList ((if value < 0 then ['-'] else []) ++ Nat.toDigits 10 value.natAbs)
  | .float value => Decimal.render numberLayout value

end Json

end ContextDb
