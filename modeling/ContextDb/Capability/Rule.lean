/-!
# Rules for capabilities

Which operations of the REST interface are offered to agents, and as what. Each
rule speaks of some methods and tags; the first rule that matches an operation
decides.
-/

namespace ContextDb.Capability

/-- What an operation is to an agent. -/
inductive Exposure where
  /-- state that can be read -/
  | resource
  /-- an action that can be called -/
  | tool
  /-- nothing -/
  | exclude
  deriving DecidableEq, Repr

/-- The name of an exposure. -/
def Exposure.name : Exposure → String
  | .resource => "RESOURCE"
  | .tool => "TOOL"
  | .exclude => "EXCLUDE"

/-- The exposure with a given name. -/
def Exposure.ofName? (name : String) : Option Exposure :=
  [Exposure.resource, .tool, .exclude].find? (·.name = name)

/-- A rule. Without methods or without tags it matches any. -/
structure Rule where
  methods : Option (List String)
  tags : Option (List String)
  exposure : Exposure
  deriving DecidableEq, Repr

/-- Whether a rule matches an operation: the method is one of the rule's, and the
operation has all of the rule's tags. -/
def Rule.matches (rule : Rule) (method : String) (tags : List String) : Bool :=
  rule.methods.all (·.contains method) && rule.tags.all fun wanted => wanted.all tags.contains

/-- The tags of the operations that are offered to agents. -/
def offeredTags : List String :=
  ["content", "filesystem", "resources", "search", "sessions", "relations"]

/-- The rules for one tag: what is read is a resource, what changes or asks with a
body is a tool. -/
def rulesForTag (tag : String) : List Rule :=
  [⟨some ["GET"], some [tag], .resource⟩, ⟨some ["POST", "DELETE"], some [tag], .tool⟩]

/-- The rules of the service. What no tag offers is excluded. -/
def defaultRules : List Rule :=
  offeredTags.flatMap rulesForTag ++ [⟨none, none, .exclude⟩]

/-- The exposure of an operation: that of the first rule that matches. -/
def classify (rules : List Rule) (method : String) (tags : List String) : Exposure :=
  match rules.find? (·.matches method tags) with
  | some rule => rule.exposure
  | none => .exclude

end ContextDb.Capability
