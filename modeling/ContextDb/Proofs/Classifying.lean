import ContextDb.Capability.Rule
import Mathlib.Data.List.Perm.Basic

/-!
# What the rules decide

The first rule that matches an operation decides. Where rules that match the same operations
agree, their order does not matter, and nothing behind a rule that matches everything does. The
rules of the service are of this kind: they look at the method of an operation and at whether
it has an offered tag.
-/

namespace ContextDb.Capability

variable {rules front other behind : List Rule} {rule : Rule} {exposure : Exposure}
variable {method : String} {tags others : List String}

/-! ## The first rule -/

theorem Rule.matches_iff :
    rule.matches method tags = true ↔
      (∀ methods ∈ rule.methods, method ∈ methods) ∧
        ∀ wanted ∈ rule.tags, ∀ tag ∈ wanted, tag ∈ tags := by
  rw [Rule.matches, Bool.and_eq_true, Option.all_eq_true, Option.all_eq_true]
  simp

/-- Where a rule matches, one that matches is found first. -/
theorem exists_find?_of_match (isRule : rule ∈ rules) (matched : rule.matches method tags = true) :
    ∃ first ∈ rules, first.matches method tags = true ∧
      rules.find? (·.matches method tags) = some first := by
  have isSome : (rules.find? (·.matches method tags)).isSome = true :=
    List.find?_isSome.2 ⟨rule, isRule, matched⟩
  obtain ⟨first, found⟩ := Option.isSome_iff_exists.1 isSome
  have matchedFirst := List.find?_some found
  exact ⟨first, List.mem_of_find?_eq_some found, matchedFirst, found⟩

/-- Rules in front decide what one of them matches. -/
theorem classify_append_of_match (isRule : rule ∈ front)
    (matched : rule.matches method tags = true) (behind : List Rule) :
    classify (front ++ behind) method tags = classify front method tags := by
  obtain ⟨first, _, _, found⟩ := exists_find?_of_match isRule matched
  simp only [classify, List.find?_append, found, Option.some_or]

/-- What no rule in front matches is left to the rules behind. -/
theorem classify_append_of_no_match
    (unmatched : ∀ rule ∈ front, ¬ rule.matches method tags = true) (behind : List Rule) :
    classify (front ++ behind) method tags = classify behind method tags := by
  have noneFound : front.find? (·.matches method tags) = none := List.find?_eq_none.2 unmatched
  simp only [classify, List.find?_append, noneFound, Option.none_or]

/-- Where all rules that match say the same, that is what is decided. -/
theorem classify_of_agreed (isRule : rule ∈ rules) (matched : rule.matches method tags = true)
    (agreed : ∀ rule ∈ rules, rule.matches method tags = true → rule.exposure = exposure) :
    classify rules method tags = exposure := by
  obtain ⟨first, isFirst, matchedFirst, found⟩ := exists_find?_of_match isRule matched
  simp only [classify, found, agreed first isFirst matchedFirst]

/-- Nothing behind a rule for all operations is ever asked. -/
theorem classify_behind_catchAll (front behind : List Rule) (exposure : Exposure)
    (method : String) (tags : List String) :
    classify (front ++ ⟨none, none, exposure⟩ :: behind) method tags =
      classify (front ++ [⟨none, none, exposure⟩]) method tags := by
  have matched : Rule.matches ⟨none, none, exposure⟩ method tags = true := rfl
  rw [← List.singleton_append, ← List.append_assoc]
  exact classify_append_of_match (List.mem_append_right _ (List.mem_singleton_self _)) matched _

/-! ## Order -/

/-- Rules that can match the same operation say the same of it. -/
def Agreeing (rules : List Rule) : Prop :=
  ∀ method tags, ∀ first ∈ rules, ∀ second ∈ rules,
    first.matches method tags = true → second.matches method tags = true →
      first.exposure = second.exposure

/-- Agreeing rules in front decide the same in any order. -/
theorem Agreeing.classify_perm (agreeing : Agreeing front) (reordered : other.Perm front)
    (behind : List Rule) (method : String) (tags : List String) :
    classify (other ++ behind) method tags = classify (front ++ behind) method tags := by
  by_cases matched : ∃ rule ∈ front, rule.matches method tags = true
  · obtain ⟨rule, isRule, matched⟩ := matched
    have isOther := reordered.mem_iff.2 isRule
    have agreed : ∀ each ∈ front, each.matches method tags = true →
        each.exposure = rule.exposure := fun each isEach matchedEach =>
      agreeing method tags each isEach rule isRule matchedEach matched
    rw [classify_append_of_match isOther matched, classify_append_of_match isRule matched,
      classify_of_agreed isRule matched agreed]
    exact classify_of_agreed isOther matched fun each isEach =>
      agreed each (reordered.mem_iff.1 isEach)
  · have unmatched : ∀ rule ∈ front, ¬ rule.matches method tags = true :=
      fun rule isRule matchedRule => matched ⟨rule, isRule, matchedRule⟩
    have unmatchedOther : ∀ rule ∈ other, ¬ rule.matches method tags = true :=
      fun rule isRule => unmatched rule (reordered.mem_iff.1 isRule)
    rw [classify_append_of_no_match unmatched, classify_append_of_no_match unmatchedOther]

/-! ## The rules of the service -/

/-- The rules for all offered tags. -/
def taggedRules : List Rule :=
  offeredTags.flatMap rulesForTag

/-- Some tag of an operation is offered. -/
def HasOfferedTag (tags : List String) : Prop :=
  ∃ tag ∈ tags, tag ∈ offeredTags

instance (tags : List String) : Decidable (HasOfferedTag tags) :=
  inferInstanceAs (Decidable (∃ tag ∈ tags, tag ∈ offeredTags))

/-- The exposure that a method has with an offered tag. -/
def exposureOfMethod? (method : String) : Option Exposure :=
  if method = "GET" then some .resource
  else if method = "POST" ∨ method = "DELETE" then some .tool
  else none

/-- A rule for a tag matches the operations that have the tag and a method for which it is
meant. -/
theorem matches_rulesForTag_iff {tag : String} (isRule : rule ∈ rulesForTag tag) :
    rule.matches method tags = true ↔
      exposureOfMethod? method = some rule.exposure ∧ tag ∈ tags := by
  rw [Rule.matches_iff, exposureOfMethod?]
  rcases List.mem_cons.1 isRule with rfl | isRule
  · by_cases isGet : method = "GET" <;> simp [isGet]
  · rw [List.mem_singleton.1 isRule]
    by_cases isGet : method = "GET"
    · simp [isGet]
    · simp [isGet, or_iff_not_imp_left]

/-- For each exposure that a method can have there is a rule. -/
theorem exists_rulesForTag (known : exposureOfMethod? method = some exposure) (tag : String) :
    ∃ rule ∈ rulesForTag tag, rule.exposure = exposure := by
  unfold exposureOfMethod? at known
  split at known
  · exact ⟨_, List.mem_cons_self, Option.some.inj known⟩
  · split at known
    · exact ⟨_, List.mem_cons_of_mem _ (List.mem_singleton_self _), Option.some.inj known⟩
    · cases known

/-- A rule for tags matches an operation by its method and an offered tag. -/
theorem exposure_of_matches (isRule : rule ∈ taggedRules)
    (matched : rule.matches method tags = true) :
    exposureOfMethod? method = some rule.exposure ∧ HasOfferedTag tags := by
  obtain ⟨tag, isOffered, isRule⟩ := List.mem_flatMap.1 isRule
  obtain ⟨known, present⟩ := (matches_rulesForTag_iff isRule).1 matched
  exact ⟨known, tag, present, isOffered⟩

/-- The rules for tags agree, whatever tags an operation has at once: what they say depends on
its method alone. -/
theorem agreeing_taggedRules : Agreeing taggedRules := by
  intro method tags first isFirst second isSecond matchedFirst matchedSecond
  have knownFirst := (exposure_of_matches isFirst matchedFirst).1
  have knownSecond := (exposure_of_matches isSecond matchedSecond).1
  exact Option.some.inj (knownFirst.symm.trans knownSecond)

/-- An exposure that is decided by the method of an operation and by whether it has an offered
tag. -/
structure DecidedByTags (exposure : String → List String → Exposure) : Prop where
  resource_iff : ∀ method tags, exposure method tags = .resource ↔
    method = "GET" ∧ HasOfferedTag tags
  tool_iff : ∀ method tags, exposure method tags = .tool ↔
    (method = "POST" ∨ method = "DELETE") ∧ HasOfferedTag tags
  exclude_iff : ∀ method tags, exposure method tags = .exclude ↔
    ¬ ((method = "GET" ∨ method = "POST" ∨ method = "DELETE") ∧ HasOfferedTag tags)
  /-- The order of the tags does not matter, nor how often each of them is there. -/
  rearranged : ∀ method tags others, (∀ tag, tag ∈ tags ↔ tag ∈ others) →
    exposure method tags = exposure method others
  /-- Tags that are not offered do not matter, wherever they are added. -/
  extended : ∀ method before after added, (∀ tag ∈ added, tag ∉ offeredTags) →
    exposure method (before ++ added ++ after) = exposure method (before ++ after)

/-- The exposure of an operation: with an offered tag the method decides, and all else is
excluded. -/
def exposureByTags (method : String) (tags : List String) : Exposure :=
  if HasOfferedTag tags then (exposureOfMethod? method).getD .exclude else .exclude

/-- The rules of the service decide by tags. -/
theorem classify_defaultRules (method : String) (tags : List String) :
    classify defaultRules method tags = exposureByTags method tags := by
  rw [exposureByTags, defaultRules, ← taggedRules]
  by_cases matched : ∃ rule ∈ taggedRules, rule.matches method tags = true
  · obtain ⟨rule, isRule, matched⟩ := matched
    obtain ⟨known, offered⟩ := exposure_of_matches isRule matched
    rw [if_pos offered, known, Option.getD_some, classify_append_of_match isRule matched]
    exact classify_of_agreed isRule matched fun each isEach matchedEach =>
      agreeing_taggedRules method tags each isEach rule isRule matchedEach matched
  · have unmatched : ∀ rule ∈ taggedRules, ¬ rule.matches method tags = true :=
      fun rule isRule matchedRule => matched ⟨rule, isRule, matchedRule⟩
    have excluded : classify [⟨none, none, .exclude⟩] method tags = .exclude := rfl
    rw [classify_append_of_no_match unmatched, excluded]
    split
    · -- With an offered tag it is the method for which there is no rule.
      rename_i offered
      obtain ⟨tag, present, isOffered⟩ := offered
      cases known : exposureOfMethod? method with
      | none => rfl
      | some exposure =>
        obtain ⟨rule, isRule, rfl⟩ := exists_rulesForTag known tag
        exact absurd ((matches_rulesForTag_iff isRule).2 ⟨known, present⟩)
          (unmatched rule (List.mem_flatMap.2 ⟨tag, isOffered, isRule⟩))
    · rfl

/-- Only the offered ones among the tags matter. -/
theorem exposureByTags_congr (same : ∀ tag ∈ offeredTags, tag ∈ tags ↔ tag ∈ others)
    (method : String) : exposureByTags method tags = exposureByTags method others := by
  have sameOffered : HasOfferedTag tags ↔ HasOfferedTag others :=
    exists_congr fun tag => and_congr_left fun isOffered => same tag isOffered
  simp only [exposureByTags, sameOffered]

theorem decidedByTags_exposureByTags : DecidedByTags exposureByTags where
  resource_iff method tags := by
    unfold exposureByTags exposureOfMethod?
    split_ifs with offered isGet isChange <;> simp_all
  tool_iff method tags := by
    unfold exposureByTags exposureOfMethod?
    split_ifs with offered isGet isChange <;> simp_all
  exclude_iff method tags := by
    unfold exposureByTags exposureOfMethod?
    split_ifs with offered isGet isChange <;> simp_all
  rearranged method tags others same := exposureByTags_congr (fun tag _ => same tag) method
  extended method before after added notOffered := by
    refine exposureByTags_congr (fun tag isOffered => ?_) method
    have notAdded : tag ∉ added := fun member => notOffered tag member isOffered
    simp [notAdded]

/-- The rules of the service look at the method and at the offered tags only. It does not matter
in which order the rules for tags stand, nor what stands behind the rule for all operations. -/
theorem service_rules_decide_by_tags :
    DecidedByTags (classify defaultRules) ∧
      ∀ front behind, front.Perm taggedRules → ∀ method tags,
        classify (front ++ ⟨none, none, .exclude⟩ :: behind) method tags =
          classify defaultRules method tags := by
  constructor
  · have same : classify defaultRules = exposureByTags :=
      funext fun method => funext fun tags => classify_defaultRules method tags
    exact same ▸ decidedByTags_exposureByTags
  · intro front behind reordered method tags
    rw [classify_behind_catchAll, agreeing_taggedRules.classify_perm reordered]
    rfl

/-- The rules for tags from the last to the first, with a rule behind them that would offer
everything: an operation with two offered tags and another one is still a tool. -/
theorem reversed_rules_decide :
    taggedRules.reverse.Perm taggedRules ∧ taggedRules.length = 12 ∧
      classify (taggedRules.reverse ++ [⟨none, none, .exclude⟩, ⟨none, none, .resource⟩]) "DELETE"
        ["debug", "sessions", "content", "sessions"] = .tool ∧
      classify (taggedRules.reverse ++ [⟨none, none, .exclude⟩, ⟨none, none, .resource⟩]) "GET"
        ["debug"] = .exclude := by
  have decided := service_rules_decide_by_tags
  have reordered : taggedRules.reverse.Perm taggedRules := List.reverse_perm _
  refine ⟨reordered, rfl, ?_, ?_⟩
  · rw [decided.2 _ _ reordered, decided.1.tool_iff]
    exact ⟨.inr rfl, by decide⟩
  · rw [decided.2 _ _ reordered, decided.1.exclude_iff]
    decide

end ContextDb.Capability
