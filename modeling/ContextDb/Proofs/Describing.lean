import ContextDb.Bridge.Basic
import ContextDb.Proofs.Classifying
import ContextDb.Proofs.SortedMap

/-!
# The description and the catalog

The actions that the description of the REST interface lists are the endpoints,
each under its own method, path, name and tag. What the catalog offers to agents are
the endpoints with an offered tag.
-/

namespace ContextDb

open Json

/-- Members in canonical order answer look-ups like the map they are taken from. -/
theorem Json.lookup_canonicalMembers (members : List (String × Json)) (key : String) :
    lookup (canonicalMembers members) key = (SortedMap.ofList members).get? key := rfl

namespace Rest

open Capability

/-- The action that the description makes of an endpoint. -/
def Endpoint.action (endpoint : Endpoint) : Action :=
  .ofJson document endpoint.template endpoint.method.name endpoint.describe

theorem Endpoint.mem_all (endpoint : Endpoint) : endpoint ∈ all := by
  cases endpoint <;> decide

/-- What is asked of every endpoint is decided by the table. -/
instance {property : Endpoint → Prop} [DecidablePred property] :
    Decidable (∀ endpoint, property endpoint) :=
  decidable_of_iff (∀ endpoint ∈ Endpoint.all, property endpoint)
    ⟨fun holds endpoint => holds endpoint endpoint.mem_all, fun holds endpoint _ => holds endpoint⟩

/-- A method and a path belong to one endpoint. -/
theorem Endpoint.eq_of_method_of_template {first second : Endpoint}
    (sameMethod : first.method = second.method) (sameTemplate : first.template = second.template) :
    first = second := by
  have distinct : ∀ first second : Endpoint, first.method = second.method →
      first.template = second.template → first = second := by decide +kernel
  exact distinct first second sameMethod sameTemplate

/-- A name belongs to one endpoint. -/
theorem Endpoint.eq_of_id {first second : Endpoint}
    (same : first.profile.id = second.profile.id) : first = second := by
  have distinct : ∀ first second : Endpoint, first.profile.id = second.profile.id →
      first = second := by decide +kernel
  exact distinct first second same

/-! ## The actions of the description -/

theorem mem_paths_iff {path : String} {item : Json} :
    (path, item) ∈ ((document.get? "paths").bind members?).getD [] ↔
      ∃ endpoint : Endpoint, path = endpoint.template ∧ item = pathItem endpoint.template := by
  have listed : ((document.get? "paths").bind members?).getD [] =
      (SortedMap.ofList (Endpoint.all.map fun endpoint =>
        (endpoint.template, pathItem endpoint.template))).toList := rfl
  rw [listed, SortedMap.mem_toList_iff]
  constructor
  · intro found
    obtain ⟨endpoint, _, same⟩ := List.mem_map.1 (SortedMap.mem_of_get?_ofList found)
    cases same
    exact ⟨endpoint, rfl, rfl⟩
  · rintro ⟨endpoint, rfl, rfl⟩
    refine SortedMap.get?_ofList_of_agreeing (List.mem_map.2 ⟨endpoint, endpoint.mem_all, rfl⟩) ?_
    intro other member
    obtain ⟨sibling, _, same⟩ := List.mem_map.1 member
    rw [Prod.mk.injEq] at same
    rw [← same.2, same.1]

/-- At a path, the description has what the endpoints there are. -/
theorem get?_pathItem_iff {template key : String} {value : Json} :
    (pathItem template).get? key = some value ↔
      ∃ endpoint : Endpoint, endpoint.template = template ∧ endpoint.method.key = key ∧
        value = endpoint.describe := by
  rw [pathItem, Json.get?, lookup_canonicalMembers]
  have mem_iff : ∀ other, (key, other) ∈ (Endpoint.all.filter (·.template = template)).map
      (fun endpoint => (endpoint.method.key, endpoint.describe)) ↔
      ∃ endpoint : Endpoint, endpoint.template = template ∧ endpoint.method.key = key ∧
        other = endpoint.describe := by
    intro other
    simp only [List.mem_map, List.mem_filter, decide_eq_true_eq, Prod.mk.injEq]
    constructor
    · rintro ⟨endpoint, ⟨_, atPath⟩, sameKey, rfl⟩
      exact ⟨endpoint, atPath, sameKey, rfl⟩
    · rintro ⟨endpoint, atPath, sameKey, rfl⟩
      exact ⟨endpoint, ⟨endpoint.mem_all, atPath⟩, sameKey, rfl⟩
  constructor
  · intro found
    exact (mem_iff value).1 (SortedMap.mem_of_get?_ofList found)
  · intro described
    refine SortedMap.get?_ofList_of_agreeing ((mem_iff value).2 described) fun other member => ?_
    obtain ⟨endpoint, atPath, sameKey, rfl⟩ := described
    obtain ⟨sibling, siblingAtPath, siblingKey, rfl⟩ := (mem_iff other).1 member
    have sameMethod : sibling.method = endpoint.method := by
      rw [← sameKey] at siblingKey
      revert siblingKey
      cases sibling.method <;> cases endpoint.method <;> decide
    rw [Endpoint.eq_of_method_of_template sameMethod (siblingAtPath.trans atPath.symm)]

/-- The key of a method in a description stands for the method. -/
theorem mem_describedMethods_iff {endpoint : Endpoint} {method : String} :
    (endpoint.method.key, method) ∈ describedMethods ↔ method = endpoint.method.name := by
  cases endpoint.method <;> simp [describedMethods, Method.key, Method.name]

/-- The description lists the endpoints and nothing else. -/
theorem mem_actions_document_iff {action : Action} :
    action ∈ actions document ↔ ∃ endpoint : Endpoint, action = endpoint.action := by
  simp only [actions, actionsAt, List.mem_flatMap, List.mem_filterMap, Prod.exists,
    Option.map_eq_some_iff, mem_paths_iff]
  constructor
  · rintro ⟨path, item, ⟨holder, rfl, rfl⟩, key, method, listed, value, found, rfl⟩
    obtain ⟨endpoint, atPath, rfl, rfl⟩ := get?_pathItem_iff.1 found
    rw [mem_describedMethods_iff] at listed
    exact ⟨endpoint, by rw [listed, ← atPath, Endpoint.action]⟩
  · rintro ⟨endpoint, rfl⟩
    exact ⟨endpoint.template, _, ⟨endpoint, rfl, rfl⟩, endpoint.method.key, endpoint.method.name,
      mem_describedMethods_iff.2 rfl, endpoint.describe,
      get?_pathItem_iff.2 ⟨endpoint, rfl, rfl, rfl⟩, rfl⟩

/-! ## What an action is -/

variable (endpoint : Endpoint)

@[simp] theorem Endpoint.action_method : endpoint.action.method = endpoint.method.name := rfl

@[simp] theorem Endpoint.action_path : endpoint.action.path = endpoint.template := rfl

@[simp] theorem Endpoint.action_id : endpoint.action.id = endpoint.profile.id := rfl

@[simp] theorem Endpoint.action_tags : endpoint.action.tags = [endpoint.tag] := by
  have described : endpoint.describe.get? "tags" = some (.ofStrings [endpoint.tag]) := by
    rw [Endpoint.describe]
    cases endpoint.parameters <;> cases endpoint.profile.body <;> rfl
  rw [Endpoint.action, Action.ofJson, described]
  rfl

/-- The parameters of an action are those that its endpoint is described with. -/
theorem Endpoint.action_parameters :
    endpoint.action.parameters = endpoint.parameters.filterMap (parameterOf? document) := by
  have described : endpoint.describe.get? "parameters" =
      if endpoint.parameters = [] then none else some (.arr endpoint.parameters) := by
    rw [Endpoint.describe]
    cases endpoint.parameters <;> cases endpoint.profile.body <;> rfl
  rw [Endpoint.action, Action.ofJson, described]
  cases endpoint.parameters <;> rfl

/-- A parameter of the query is described as one. -/
theorem location_of_queryParameter {property : Property} {parameter : Parameter}
    (read : parameterOf? document (queryParameter property) = some parameter) :
    parameter.location = .query := by
  have place : (resolve document (queryParameter property)).get? "in" = some (.str "query") := by
    obtain ⟨name, type, about⟩ := property
    cases type <;> rfl
  have isQuery : [Location.path, .query].find? (·.name = "query") = some .query := by decide
  simp only [parameterOf?, place, Option.bind_eq_bind, Option.bind_some, text?, isQuery] at read
  obtain ⟨_, _, made⟩ := Option.bind_eq_some_iff.1 read
  obtain ⟨_, _, made⟩ := Option.bind_eq_some_iff.1 made
  cases made
  rfl

/-- A parameter that is passed in the path has its name from a captured segment. -/
theorem Endpoint.capture_mem_of_path_parameter {parameter : Parameter}
    (member : parameter ∈ endpoint.action.parameters) (inPath : parameter.location = .path) :
    .capture parameter.name ∈ endpoint.segments := by
  rw [action_parameters, List.mem_filterMap] at member
  obtain ⟨value, described, read⟩ := member
  rcases List.mem_append.1 described with captured | queried
  · obtain ⟨segment, inSegments, isPath⟩ := List.mem_filterMap.1 captured
    cases segment with
    | literal text => cases isPath
    | capture name =>
      cases isPath
      cases read
      exact inSegments
  · obtain ⟨property, _, rfl⟩ := List.mem_map.1 queried
    rw [location_of_queryParameter read] at inPath
    cases inPath

/-! ## What is offered -/

/-- What is offered has an offered tag. -/
theorem offered_of_classify {method : String} {tags : List String}
    (offered : classify defaultRules method tags ≠ .exclude) : ∃ tag ∈ tags, tag ∈ offeredTags := by
  rw [classify_defaultRules, exposureByTags] at offered
  by_contra noneOffered
  exact offered (if_neg noneOffered)

end Rest

namespace Bridge

open Rest Capability

/-- The actions with an exposure are the endpoints to which the rules give it. -/
theorem mem_actions_with_iff (exposure : Exposure) {action : Action} :
    action ∈ (actions document).filter (Catalog.exposure defaultRules · = exposure) ↔
      ∃ endpoint : Endpoint,
        classify defaultRules endpoint.method.name [endpoint.tag] = exposure ∧
          action = endpoint.action := by
  simp only [List.mem_filter, decide_eq_true_eq, mem_actions_document_iff]
  constructor
  · rintro ⟨⟨endpoint, rfl⟩, exposed⟩
    exact ⟨endpoint, by simpa [Catalog.exposure] using exposed, rfl⟩
  · rintro ⟨endpoint, exposed, rfl⟩
    exact ⟨⟨endpoint, rfl⟩, by simpa [Catalog.exposure] using exposed⟩

theorem mem_tools_iff {action : Action} :
    action ∈ ownCatalog.tools ↔ ∃ endpoint : Endpoint,
      classify defaultRules endpoint.method.name [endpoint.tag] = .tool ∧
        action = endpoint.action := by
  rw [ownCatalog, Catalog.build]
  exact mem_actions_with_iff .tool

theorem mem_resources_iff {action : Action} :
    action ∈ ownCatalog.resources ↔ ∃ endpoint : Endpoint,
      classify defaultRules endpoint.method.name [endpoint.tag] = .resource ∧
        action = endpoint.action := by
  rw [ownCatalog, Catalog.build]
  exact mem_actions_with_iff .resource

/-- Among the actions of endpoints, each is found by its name. -/
theorem find?_id_of_mem {actions : List Action} {endpoint : Endpoint}
    (described : ∀ action ∈ actions, ∃ other : Endpoint, action = other.action)
    (member : endpoint.action ∈ actions) :
    actions.find? (·.id = endpoint.profile.id) = some endpoint.action := by
  refine SortedMap.find?_eq_some_of_unique member fun action isListed sameName => ?_
  obtain ⟨other, rfl⟩ := described action isListed
  rw [Endpoint.eq_of_id sameName]

/-- What the rules make a tool is called by its name. -/
theorem tool?_of_classify {endpoint : Endpoint}
    (exposed : classify defaultRules endpoint.method.name [endpoint.tag] = .tool) :
    ownCatalog.tool? endpoint.profile.id = some endpoint.action :=
  find?_id_of_mem (fun _ member => (mem_tools_iff.1 member).imp fun _ => And.right)
    (mem_tools_iff.2 ⟨endpoint, exposed, rfl⟩)

/-- What the rules make a resource is read under its name. -/
theorem resource?_of_classify {endpoint : Endpoint}
    (exposed : classify defaultRules endpoint.method.name [endpoint.tag] = .resource) :
    ownCatalog.resource? endpoint.profile.id = some endpoint.action :=
  find?_id_of_mem (fun _ member => (mem_resources_iff.1 member).imp fun _ => And.right)
    (mem_resources_iff.2 ⟨endpoint, exposed, rfl⟩)

/-- What the catalog of the interface offers are endpoints with an offered tag. -/
theorem exists_endpoint_of_offered {action : Action}
    (offered : action ∈ ownCatalog.tools ∨ action ∈ ownCatalog.resources) :
    ∃ endpoint : Endpoint, action = endpoint.action ∧ endpoint.tag ∈ offeredTags := by
  have exposed : ∃ endpoint : Endpoint, action = endpoint.action ∧
      classify defaultRules endpoint.method.name [endpoint.tag] ≠ .exclude := by
    rcases offered with isTool | isResource
    · obtain ⟨endpoint, exposure, same⟩ := mem_tools_iff.1 isTool
      exact ⟨endpoint, same, fun excluded => nomatch exposure.symm.trans excluded⟩
    · obtain ⟨endpoint, exposure, same⟩ := mem_resources_iff.1 isResource
      exact ⟨endpoint, same, fun excluded => nomatch exposure.symm.trans excluded⟩
  obtain ⟨endpoint, same, exposure⟩ := exposed
  obtain ⟨tag, isTag, isOffered⟩ := offered_of_classify exposure
  rw [List.mem_singleton] at isTag
  exact ⟨endpoint, same, isTag ▸ isOffered⟩

end Bridge

end ContextDb
