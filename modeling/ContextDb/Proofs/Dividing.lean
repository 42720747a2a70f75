import ContextDb.Proofs.Descriptions

/-!
# How the catalog divides a document

Each place of a document at which an action is described gives one action, whatever stands
elsewhere: what is malformed is left out alone. The catalog divides the actions by what the
rules say of their methods and tags, and merging its parts in document order gives them back.
-/

namespace ContextDb.Capability

open Json Text

universe u v

variable {document other value : Json} {action : Action} {rules : List Rule}

/-! ## What is kept of a list -/

/-- The place where an action is described. -/
def Action.place (action : Action) : Place :=
  ⟨action.path, action.method⟩

/-- Whether an action may stand before another one in document order. -/
def inOrder (first second : Action) : Bool :=
  first.path < second.path ||
    (first.path = second.path && methodRank first.method ≤ methodRank second.method)

namespace Catalog

/-- The part of a catalog with an exposure. -/
def part (catalog : Catalog) : Exposure → List Action
  | .tool => catalog.tools
  | .resource => catalog.resources
  | .exclude => catalog.excluded

end Catalog

end ContextDb.Capability
