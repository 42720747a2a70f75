import ContextDb.Proofs.Descriptions
import ContextDb.Proofs.Pieces
import Mathlib.Data.List.Pairwise

/-!
# Names of capabilities

What the catalog offers is found by its name. A description may state a name, and otherwise
one is made of its method and its path. Such a name keeps the words of the path and forgets
what separates them, so that it may belong to several descriptions.
-/

namespace ContextDb.Capability

open Json Text

variable {document : Json} {first second : Description}

/-! ## Names that are made -/

/-- The segments of a path without the braces around them. -/
def pathNames (path : String) : List (List Char) :=
  ((pieces '/' path.toList).filter (!·.isEmpty)).map (trimBy fun c => c = '\x7b' || c = '\x7d')

/-- The words of a path: what stands between slashes and underscores, braces aside. Where there
are no segments, there is an empty word. -/
def pathWords (path : String) : List (List Char) :=
  if pathNames path = [] then [[]] else (pathNames path).flatMap (pieces '_')

/-- A name that is made consists of the method and the words of the path. -/
theorem pieces_fallbackId {method : String} (absent : '_' ∉ method.toList.map Char.toLower)
    (path : String) :
    pieces '_' (fallbackId method path).toList =
      method.toList.map Char.toLower :: pathWords path := by
  have joined : pieces '_' (joinWith ['_'] (pathNames path)) = pathWords path := by
    rw [pathWords]
    split
    · rename_i noNames
      rw [noNames]
      rfl
    · rename_i someNames
      exact pieces_joinWith_eq_flatMap someNames
  rw [fallbackId, String.toList_ofList, List.append_assoc, List.singleton_append,
    pieces_append_cons absent, ← pathNames, joined]

/-- The methods in a document have names that differ in more than case and have no
underscore. -/
theorem described_methods_differ :
    (∀ method ∈ describedMethods.map (·.2), '_' ∉ method.toList.map Char.toLower) ∧
    ∀ method ∈ describedMethods.map (·.2), ∀ other ∈ describedMethods.map (·.2),
      method.toList.map Char.toLower = other.toList.map Char.toLower → method = other := by
  decide

/-- Two names that are made are the same exactly if the methods and the words are. -/
theorem fallbackId_eq_iff {method other path otherPath : String}
    (isMethod : method ∈ describedMethods.map (·.2))
    (isOther : other ∈ describedMethods.map (·.2)) :
    fallbackId method path = fallbackId other otherPath ↔
      method = other ∧ pathWords path = pathWords otherPath := by
  obtain ⟨absent, differ⟩ := described_methods_differ
  rw [← String.toList_inj, ← pieces_inj '_', pieces_fallbackId (absent _ isMethod),
    pieces_fallbackId (absent _ isOther), List.cons.injEq]
  exact and_congr_left' ⟨differ _ isMethod _ isOther, fun same => by rw [same]⟩

/-! ## Clashes -/

/-- Two descriptions get one name: both leave it to be made under the same method of the same
words, or one of them states what is made for the other. -/
inductive Clash : Description → Description → Prop
  | made {first second : Description} (firstUnstated : first.statedId? = none)
      (secondUnstated : second.statedId? = none) (sameMethod : first.method = second.method)
      (sameWords : pathWords first.path = pathWords second.path) : Clash first second
  | statedFirst {first second : Description}
      (stated : first.statedId? = some (fallbackId second.method second.path))
      (unstated : second.statedId? = none) : Clash first second
  | statedSecond {first second : Description} (unstated : first.statedId? = none)
      (stated : second.statedId? = some (fallbackId first.method first.path)) :
      Clash first second

theorem Clash.symm (clash : Clash first second) : Clash second first := by
  cases clash with
  | made firstUnstated secondUnstated sameMethod sameWords =>
    exact .made secondUnstated firstUnstated sameMethod.symm sameWords.symm
  | statedFirst stated unstated => exact .statedSecond unstated stated
  | statedSecond unstated stated => exact .statedFirst stated unstated

/-- The name of an action is the stated one, and otherwise made. -/
theorem Description.action_id (description : Description) (document : Json) :
    (description.action document).id =
      description.statedId?.getD (fallbackId description.method description.path) := rfl

/-- Where no name is stated twice, actions have the same name exactly if their descriptions
clash. -/
theorem id_eq_iff_clash (isFirst : first.method ∈ describedMethods.map (·.2))
    (isSecond : second.method ∈ describedMethods.map (·.2))
    (distinct : ∀ id ∈ first.statedId?, ∀ other ∈ second.statedId?, id ≠ other) :
    (first.action document).id = (second.action document).id ↔ Clash first second := by
  rw [Description.action_id, Description.action_id]
  constructor
  · intro same
    cases statesFirst : first.statedId? with
    | none =>
      cases statesSecond : second.statedId? with
      | none =>
        rw [statesFirst, statesSecond] at same
        obtain ⟨sameMethod, sameWords⟩ := (fallbackId_eq_iff isFirst isSecond).1 same
        exact .made statesFirst statesSecond sameMethod sameWords
      | some other =>
        rw [statesFirst, statesSecond] at same
        exact .statedSecond statesFirst (statesSecond.trans (congrArg some same.symm))
    | some id =>
      cases statesSecond : second.statedId? with
      | none =>
        rw [statesFirst, statesSecond] at same
        exact .statedFirst (statesFirst.trans (congrArg some same)) statesSecond
      | some other =>
        rw [statesFirst, statesSecond] at same
        exact absurd same (distinct id statesFirst other statesSecond)
  · intro clash
    cases clash with
    | made firstUnstated secondUnstated sameMethod sameWords =>
      rw [firstUnstated, secondUnstated]
      exact (fallbackId_eq_iff isFirst isSecond).2 ⟨sameMethod, sameWords⟩
    | statedFirst stated unstated =>
      rw [stated, unstated]
      rfl
    | statedSecond unstated stated =>
      rw [stated, unstated]
      rfl

/-! ## Looking up -/

/-- Each action of a list without repetition is found by its name exactly if no two of them
have the same name. -/
theorem find?_id_iff {listed : List Action} (nodup : listed.Nodup) :
    (∀ action ∈ listed, listed.find? (·.id = action.id) = some action) ↔
      (listed.map (·.id)).Nodup := by
  constructor
  · intro found
    refine nodup.map_on fun first isFirst second isSecond same => ?_
    have foundFirst := found first isFirst
    rw [same, found second isSecond] at foundFirst
    exact (Option.some.inj foundFirst).symm
  · intro distinct action isListed
    exact SortedMap.find?_eq_some_of_unique isListed fun other isOther same =>
      List.inj_on_of_nodup_map distinct isOther isListed same

/-- The descriptions of what is offered in one way. -/
def offeredAs (document : Json) (rules : List Rule) (exposure : Exposure) : List Description :=
  (described document).filter fun description =>
    Catalog.exposure rules (description.action document) = exposure

/-- What the catalog offers in one way is described. -/
theorem filter_actions (document : Json) (rules : List Rule) (exposure : Exposure) :
    (actions document).filter (Catalog.exposure rules · = exposure) =
      (offeredAs document rules exposure).map (·.action document) := by
  rw [actions_eq_map, List.filter_map, offeredAs]
  rfl

/-- What is described in different places makes different actions. -/
theorem Description.Apart.action_ne (apart : first.Apart second) :
    first.action document ≠ second.action document := by
  intro same
  rcases apart with otherPath | otherMethod
  · exact otherPath (congrArg Action.path same)
  · exact otherMethod (congrArg Action.method same)

instance : Std.Symm fun first second => ¬ Clash first second :=
  ⟨fun _ _ noClash clash => noClash clash.symm⟩

/-- What is offered is found by its name exactly if no two of its descriptions clash. -/
theorem found_iff_no_clash (canonical : document.Canonical)
    (distinct : ((described document).filterMap (·.statedId?)).Nodup) (rules : List Rule)
    (exposure : Exposure) :
    (∀ action ∈ (actions document).filter (Catalog.exposure rules · = exposure),
      ((actions document).filter (Catalog.exposure rules · = exposure)).find? (·.id = action.id) =
        some action) ↔
      ∀ first ∈ offeredAs document rules exposure, ∀ second ∈ offeredAs document rules exposure,
        first ≠ second → ¬ Clash first second := by
  have apart : (offeredAs document rules exposure).Pairwise Description.Apart :=
    (pairwise_described canonical).filter _
  have statedOnce : (offeredAs document rules exposure).Pairwise fun first second =>
      ∀ id ∈ first.statedId?, ∀ other ∈ second.statedId?, id ≠ other :=
    (List.pairwise_filterMap.1 distinct).filter _
  have isMethod : ∀ description ∈ offeredAs document rules exposure,
      description.method ∈ describedMethods.map (·.2) :=
    fun _ isOffered => method_of_mem_described (List.mem_filter.1 isOffered).1
  have nodup : ((offeredAs document rules exposure).map (·.action document)).Nodup :=
    List.pairwise_map.2 (apart.imp Description.Apart.action_ne)
  rw [filter_actions, find?_id_iff nodup, List.Nodup, List.pairwise_map, List.pairwise_map]
  constructor
  · intro differ first isFirst second isSecond different
    have noClash : (offeredAs document rules exposure).Pairwise fun first second =>
        ¬ Clash first second := by
      refine (differ.and statedOnce).imp_of_mem fun isFirst isSecond ⟨differ, once⟩ clash => ?_
      exact differ ((id_eq_iff_clash (isMethod _ isFirst) (isMethod _ isSecond) once).2 clash)
    exact noClash.forall isFirst isSecond different
  · intro noClash
    refine (apart.and statedOnce).imp_of_mem fun isFirst isSecond ⟨apart, once⟩ same => ?_
    exact noClash _ isFirst _ isSecond apart.ne
      ((id_eq_iff_clash (isMethod _ isFirst) (isMethod _ isSecond) once).1 same)

/-- Every tool and every resource of a catalog leads back to itself by its name, unless two of
the same kind clash: let the members of the document stand in order, and let no name be stated
twice. Then each tool is the one that is found by its name exactly if no two descriptions of
tools clash, and so it is with resources. -/
theorem names_lead_back_iff (document : Json) (rules : List Rule)
    (canonical : document.Canonical)
    (distinct : ((described document).filterMap (·.statedId?)).Nodup) :
    ((∀ action ∈ (Catalog.build document rules).tools,
        (Catalog.build document rules).tool? action.id = some action) ↔
      ∀ first ∈ offeredAs document rules .tool, ∀ second ∈ offeredAs document rules .tool,
        first ≠ second → ¬ Clash first second) ∧
    ((∀ action ∈ (Catalog.build document rules).resources,
        (Catalog.build document rules).resource? action.id = some action) ↔
      ∀ first ∈ offeredAs document rules .resource,
        ∀ second ∈ offeredAs document rules .resource, first ≠ second → ¬ Clash first second) :=
  ⟨found_iff_no_clash canonical distinct rules .tool,
    found_iff_no_clash canonical distinct rules .resource⟩

/-- A description that offers content, with some other members. -/
def contentWith (members : List (String × Json)) : Json :=
  .obj (members ++ [("tags", .arr [.str "content"])])

/-- A document with two actions at one path, and one at another path that states its name. -/
def crossing : Json :=
  .obj [("paths", .obj [
    ("/a/b", .obj [("get", contentWith []), ("post", contentWith [])]),
    ("/a/c", .obj [("get", contentWith [("operationId", .str "see")])])])]

/-- Each capability of the crossing is found by its name. -/
theorem crossing_is_found :
    crossing.Canonical ∧ (described crossing).filterMap (·.statedId?) = ["see"] ∧
      (Catalog.build crossing defaultRules).tools.map (·.id) = ["post_a_b"] ∧
      (Catalog.build crossing defaultRules).resources.map (·.id) = ["get_a_b", "see"] ∧
      (∀ action ∈ (Catalog.build crossing defaultRules).tools,
        (Catalog.build crossing defaultRules).tool? action.id = some action) ∧
      ∀ action ∈ (Catalog.build crossing defaultRules).resources,
        (Catalog.build crossing defaultRules).resource? action.id = some action := by
  have canonical : crossing.Canonical := by decide
  have stated : (described crossing).filterMap (·.statedId?) = ["see"] := by rfl
  have tools : offeredAs crossing defaultRules .tool = [⟨"/a/b", "POST", contentWith []⟩] := by rfl
  have resources : offeredAs crossing defaultRules .resource =
      [⟨"/a/b", "GET", contentWith []⟩,
        ⟨"/a/c", "GET", contentWith [("operationId", .str "see")]⟩] := by rfl
  have noClash : ¬ Clash ⟨"/a/b", "GET", contentWith []⟩
      ⟨"/a/c", "GET", contentWith [("operationId", .str "see")]⟩ := by
    intro clash
    cases clash with
    | made _ unstated => cases unstated
    | statedFirst stated => cases stated
    | statedSecond _ stated => exact absurd (Option.some.inj stated) (by decide)
  have found := names_lead_back_iff crossing defaultRules canonical (stated ▸ by decide)
  rw [tools, resources] at found
  refine ⟨canonical, stated, by rfl, by rfl, found.1.2 ?_, found.2.2 ?_⟩
  · intro first isFirst second isSecond different
    rw [List.mem_singleton] at isFirst isSecond
    exact absurd (isFirst.trans isSecond.symm) different
  · simp only [List.mem_cons, List.not_mem_nil, or_false]
    rintro first (rfl | rfl) second (rfl | rfl) different
    · exact absurd rfl different
    · exact noClash
    · exact fun clash => noClash clash.symm
    · exact absurd rfl different

/-- A document with two paths of the same words, both without a name. -/
def fork : Json :=
  .obj [("paths", .obj [
    ("/a/b", .obj [("get", contentWith [])]), ("/a_b", .obj [("get", contentWith [])])])]

/-- What the fork lists second is not found by its name, for what it lists first is found in its
place. -/
theorem fork_leads_astray :
    fork.Canonical ∧ ((described fork).filterMap (·.statedId?)).Nodup ∧
      ∃ action ∈ (Catalog.build fork defaultRules).resources,
        action.path = "/a_b" ∧ ∃ other, other.path = "/a/b" ∧
          (Catalog.build fork defaultRules).resource? action.id = some other := by
  have resources : (Catalog.build fork defaultRules).resources =
      [.ofJson fork "/a/b" "GET" (contentWith []),
        .ofJson fork "/a_b" "GET" (contentWith [])] := by rfl
  refine ⟨by decide, by decide, .ofJson fork "/a_b" "GET" (contentWith []), ?_, rfl,
    .ofJson fork "/a/b" "GET" (contentWith []), rfl, rfl⟩
  rw [resources]
  exact List.mem_cons_of_mem _ (List.mem_singleton_self _)

end ContextDb.Capability
