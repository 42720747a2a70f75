import ContextDb.Capability.Action
import ContextDb.Capability.Rule

/-!
# The catalog

The actions of a document, divided by what they are to an agent.
-/

namespace ContextDb.Capability

/-- The actions of a document by their exposure, each part in document order. -/
structure Catalog where
  tools : List Action
  resources : List Action
  excluded : List Action

namespace Catalog

/-- The exposure of an action under some rules. -/
def exposure (rules : List Rule) (action : Action) : Exposure :=
  classify rules action.method action.tags

/-- Divide the actions of a document by rules. -/
def build (document : Json) (rules : List Rule) : Catalog :=
  let all := actions document
  { tools := all.filter fun action => exposure rules action = .tool
    resources := all.filter fun action => exposure rules action = .resource
    excluded := all.filter fun action => exposure rules action = .exclude }

/-- The tool with a given name. -/
def tool? (catalog : Catalog) (id : String) : Option Action :=
  catalog.tools.find? (·.id = id)

/-- The resource with a given name. -/
def resource? (catalog : Catalog) (id : String) : Option Action :=
  catalog.resources.find? (·.id = id)

end Catalog

end ContextDb.Capability
