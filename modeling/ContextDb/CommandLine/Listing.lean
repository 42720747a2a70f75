import ContextDb.Bridge.Basic

/-!
# The listing of the catalog

The rules for capabilities and the tools and resources that follow from them, as
they are printed.
-/

namespace ContextDb.CommandLine

open Capability

/-- A text filled up with blanks on the right. -/
def padRight (width : Nat) (text : String) : String :=
  text ++ String.ofList (List.replicate (width - text.length) ' ')

/-- A text filled up with blanks on the left. -/
def padLeft (width : Nat) (text : String) : String :=
  String.ofList (List.replicate (width - text.length) ' ') ++ text

/-- What a rule speaks of, where a star stands for anything. -/
def condition (values : Option (List String)) : String :=
  (values.map fun values => ",".intercalate values).getD "*"

/-- A rule with its number, which counts from one. -/
def ruleLine (rule : Rule) (number : Nat) : String :=
  padLeft 2 (Nat.repr number) ++ ". " ++ padRight 12 (condition rule.methods) ++ " " ++
    padRight 12 (condition rule.tags) ++ " " ++ rule.exposure.name

/-- An item of a list. -/
def itemLine (item : String) : String :=
  "  • " ++ item

/-- The method and the path of an action. -/
def request (action : Action) : String :=
  action.method ++ " " ++ action.path

/-- The heading of a part of the catalog, after an empty line. -/
def heading (title : String) (part : List Action) : List String :=
  ["", title ++ " (" ++ Nat.repr part.length ++ ")"]

/-- The lines of the listing. -/
def listingLines (rules : List Rule) (catalog : Catalog) : List String :=
  ["Route maps", "=========="] ++
    rules.zipIdx.map (fun (rule, index) => ruleLine rule (index + 1)) ++
    heading "Tools" catalog.tools ++
    catalog.tools.map (fun action => itemLine (padRight 16 action.id ++ " " ++ request action)) ++
    heading "Resources" catalog.resources ++
    catalog.resources.map
      (fun action => itemLine (padRight 40 action.address ++ " " ++ request action)) ++
    heading "Excluded" catalog.excluded ++
    catalog.excluded.map fun action => itemLine (request action)

/-- The listing of the catalog of the service. -/
def listing : String :=
  String.join ((listingLines defaultRules Bridge.ownCatalog).map (· ++ "\n"))

end ContextDb.CommandLine
