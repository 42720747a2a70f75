import ContextDb.Json.Basic
import ContextDb.Text.Split

/-!
# Pointers into JSON values

A pointer names a part of a value by the way to it: the names of members and the
positions of elements, each after a slash.
-/

namespace ContextDb.Json

open Text

/-- The name that a step of a pointer stands for: `~1` is a slash and `~0` a
tilde. -/
def pointerName : List Char → List Char
  | '~' :: '1' :: rest => '/' :: pointerName rest
  | '~' :: '0' :: rest => '~' :: pointerName rest
  | c :: rest => c :: pointerName rest
  | [] => []

/-- The position that a step of a pointer stands for: a decimal number without
sign and leading zeros. -/
def pointerIndex? (step : List Char) : Option Nat :=
  if step.isEmpty || !step.all Char.isDigit || (step.head? = some '0' && 1 < step.length) then none
  else some (step.foldl (fun n c => n * 10 + (c.toNat - '0'.toNat)) 0)

/-- The part of a value that is one step away. -/
def child? (value : Json) (step : List Char) : Option Json :=
  match value with
  | .obj members => lookup members (String.ofList (pointerName step))
  | .arr items => (pointerIndex? (pointerName step)).bind fun index => items[index]?
  | _ => none

/-- The part of a value that a pointer names. -/
def pointer? (value : Json) (pointer : List Char) : Option Json :=
  match pointer with
  | [] => some value
  | '/' :: rest => (pieces '/' rest).foldlM child? value
  | _ => none

end ContextDb.Json
