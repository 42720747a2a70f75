import ContextDb.Json.References
import ContextDb.Json.Shape

/-!
# Expanding references

References in a document may lead to larger values, to values around them and back to
themselves. Expanding them ends all the same, because only so many are followed within
each other, and what is left of them can be told: those that lead nowhere, those that lie
too deep, and objects that only look like references once they are expanded.
-/

namespace ContextDb.Json

variable {document value result : Json} {follows : Nat → Prop} {depth limit count : Nat}
  {place : List Step}

/-! ## Parts of values -/

/-- The part of a value at a place. The steps are given from the outermost. -/
inductive HasPart : Json → List Step → Json → Prop
  | whole (value : Json) : HasPart value [] value
  | member {members : List (String × Json)} {name : String} {child part : Json}
      {place : List Step} (listed : (name, child) ∈ members)
      (inside : HasPart child place part) : HasPart (.obj members) (.member name :: place) part
  | element {items : List Json} {position : Nat} {child part : Json} {place : List Step}
      (listed : items[position]? = some child) (inside : HasPart child place part) :
      HasPart (.arr items) (.index position :: place) part

/-- The reference that a value is, if it is one. -/
def reference? (value : Json) : Option String :=
  value.members?.bind referenceOf?

theorem exists_members_of_reference? {reference : String}
    (refers : value.reference? = some reference) :
    ∃ members, value = .obj members ∧ referenceOf? members = some reference := by
  cases value with
  | obj members => exact ⟨members, rfl, refers⟩
  | null | bool | num | str | arr => cases refers

/-! ## Expansion -/

/-- The expansion of a value that lies within `depth` references. A reference is replaced by
the expansion of what it stands for, if one at that depth is followed and there is such a
value; otherwise it stays as it is. -/
inductive Expands (document : Json) (follows : Nat → Prop) : Nat → Json → Json → Prop
  | follow {depth : Nat} {members : List (String × Json)} {reference : String}
      {target result : Json} (refers : referenceOf? members = some reference)
      (followed : follows depth) (found : target? document reference = some target)
      (expanded : Expands document follows (depth + 1) target result) :
      Expands document follows depth (.obj members) result
  | leave {depth : Nat} {members : List (String × Json)} {reference : String}
      (refers : referenceOf? members = some reference)
      (stays : follows depth → target? document reference = none) :
      Expands document follows depth (.obj members) (.obj members)
  | object {depth : Nat} {members : List (String × Json)} (expansion : Json → Json)
      (plain : referenceOf? members = none)
      (inside : ∀ member ∈ members,
        Expands document follows depth member.2 (expansion member.2)) :
      Expands document follows depth (.obj members)
        (.obj (members.map fun member => (member.1, expansion member.2)))
  | array {depth : Nat} {items : List Json} (expansion : Json → Json)
      (inside : ∀ item ∈ items, Expands document follows depth item (expansion item)) :
      Expands document follows depth (.arr items) (.arr (items.map expansion))
  | single {depth : Nat} {value : Json} (noMembers : value.members? = none)
      (noItems : value.items? = none) : Expands document follows depth value value

/-- A value has at most one expansion. -/
theorem Expands.unique {other : Json} (first : Expands document follows depth value result)
    (second : Expands document follows depth value other) : result = other := by
  induction first generalizing other with
  | follow refers followed found _ inductionHypothesis =>
    cases second with
    | follow otherRefers _ otherFound expanded =>
      cases refers.symm.trans otherRefers
      cases found.symm.trans otherFound
      exact inductionHypothesis expanded
    | leave otherRefers stays =>
      cases refers.symm.trans otherRefers
      cases found.symm.trans (stays followed)
    | object _ plain => cases refers.symm.trans plain
    | single noMembers => cases noMembers
  | leave refers stays =>
    cases second with
    | follow otherRefers followed found =>
      cases refers.symm.trans otherRefers
      cases found.symm.trans (stays followed)
    | leave => rfl
    | object _ plain => cases refers.symm.trans plain
    | single noMembers => cases noMembers
  | object expansion plain _ inductionHypothesis =>
    cases second with
    | follow refers => cases refers.symm.trans plain
    | leave refers => cases refers.symm.trans plain
    | object _ _ inside =>
      refine congrArg Json.obj (List.map_congr_left fun member listed => ?_)
      rw [inductionHypothesis member listed (inside member listed)]
    | single noMembers => cases noMembers
  | array expansion _ inductionHypothesis =>
    cases second with
    | array _ inside =>
      exact congrArg Json.arr (List.map_congr_left fun item listed =>
        inductionHypothesis item listed (inside item listed))
    | single _ noItems => cases noItems
  | single noMembers noItems =>
    cases second with
    | follow | leave | object => cases noMembers
    | array => cases noItems
    | single => rfl

theorem replaceInItems_eq_map (replacement : String → Option Json) (items : List Json) :
    replaceInItems replacement items = items.map (replaceReferences replacement) := by
  induction items with
  | nil => rfl
  | cons item rest inductionHypothesis => rw [replaceInItems, inductionHypothesis, List.map_cons]

theorem replaceInMembers_eq_map (replacement : String → Option Json)
    (members : List (String × Json)) :
    replaceInMembers replacement members =
      members.map fun member => (member.1, replaceReferences replacement member.2) := by
  induction members with
  | nil => rfl
  | cons member rest inductionHypothesis =>
    rw [replaceInMembers, inductionHypothesis, List.map_cons]

/-- Replacing references expands a value, if each replacement is an expansion and there is
one for each reference that is followed. -/
theorem expands_replaceReferences {replacement : String → Option Json}
    (replaced : ∀ reference result, replacement reference = some result → follows depth ∧
      ∃ target, target? document reference = some target ∧
        Expands document follows (depth + 1) target result)
    (kept : ∀ reference, replacement reference = none → follows depth →
      target? document reference = none) (value : Json) :
    Expands document follows depth value (replaceReferences replacement value) := by
  induction value using induction_on_parts with
  | single value noMembers noItems =>
    have same : replaceReferences replacement value = value := by
      cases value with
      | null | bool | num | str => rfl
      | arr => cases noItems
      | obj => cases noMembers
    rw [same]
    exact .single noMembers noItems
  | array items inductionHypothesis =>
    rw [replaceReferences, replaceInItems_eq_map]
    exact .array _ inductionHypothesis
  | object members inductionHypothesis =>
    rw [replaceReferences]
    cases refers : referenceOf? members with
    | none =>
      rw [replaceInMembers_eq_map]
      exact .object _ refers inductionHypothesis
    | some reference =>
      simp only
      cases given : replacement reference with
      | none => exact .leave refers (kept reference given)
      | some result =>
        obtain ⟨followed, target, found, expanded⟩ := replaced reference result given
        exact .follow refers followed found expanded

/-- A value is expanded by as many references within each other as are left. -/
theorem expands_resolveWithin {left : Nat} (total : depth + left = limit) (value : Json) :
    Expands document (· < limit) depth value (resolveWithin document left value) := by
  induction left generalizing depth value with
  | zero =>
    refine expands_replaceReferences (fun _ _ given => ?_) (fun _ _ below => ?_) value
    · cases given
    · omega
  | succ left inductionHypothesis =>
    refine expands_replaceReferences (fun reference result given => ?_) (fun _ given _ => ?_) value
    · obtain ⟨target, found, rfl⟩ := Option.map_eq_some_iff.1 given
      exact ⟨by omega, target, found, inductionHypothesis (by omega) target⟩
    · exact Option.map_eq_none_iff.1 given

/-- Every value has one expansion, in which at most eight references within each other are
followed. -/
theorem expands_iff :
    Expands document (· < maxReferences) 0 value result ↔ result = resolve document value := by
  have expanded : Expands document (· < maxReferences) 0 value (resolve document value) :=
    expands_resolveWithin (Nat.zero_add _) value
  constructor
  · intro other
    exact other.unique expanded
  · rintro rfl
    exact expanded

/-! ## What is reached -/

/-- What a value leads to at a place of its expansion, through how many references within
each other. -/
inductive Reaches (document : Json) : Json → List Step → Nat → Json → Prop
  | here (value : Json) : Reaches document value [] 0 value
  | member {members : List (String × Json)} {name : String} {child part : Json}
      {place : List Step} {count : Nat} (plain : referenceOf? members = none)
      (listed : (name, child) ∈ members) (inside : Reaches document child place count part) :
      Reaches document (.obj members) (.member name :: place) count part
  | element {items : List Json} {position : Nat} {child part : Json} {place : List Step}
      {count : Nat} (listed : items[position]? = some child)
      (inside : Reaches document child place count part) :
      Reaches document (.arr items) (.index position :: place) count part
  | follow {members : List (String × Json)} {reference : String} {target part : Json}
      {place : List Step} {count : Nat} (refers : referenceOf? members = some reference)
      (found : target? document reference = some target)
      (inside : Reaches document target place count part) :
      Reaches document (.obj members) place (count + 1) part

/-- What is reached from what is reached is reached, through all references on the way. -/
theorem Reaches.trans {middle part : Json} {below : List Step} {further : Nat}
    (first : Reaches document value place count middle)
    (second : Reaches document middle below further part) :
    Reaches document value (place ++ below) (count + further) part := by
  induction first with
  | here => simpa using second
  | member plain listed _ inductionHypothesis =>
    exact .member plain listed (inductionHypothesis second)
  | element listed _ inductionHypothesis => exact .element listed (inductionHypothesis second)
  | follow refers found _ inductionHypothesis =>
    rw [Nat.add_right_comm]
    exact .follow refers found (inductionHypothesis second)

/-- An object that is no reference, but in which `$ref` is a reference that leads to a text.
Its expansion looks like a reference. -/
def FormsReference (document : Json) (members : List (String × Json)) : Prop :=
  referenceOf? members = none ∧ ∃ inner count text,
    lookup members "$ref" = some inner ∧ Reaches document inner [] count (.str text)

/-- What expands to a text leads to it. -/
theorem Expands.exists_reaches {text : String}
    (expanded : Expands document follows depth value (.str text)) :
    ∃ count, Reaches document value [] count (.str text) := by
  generalize same : Json.str text = result at expanded
  induction expanded with
  | follow refers _ found _ inductionHypothesis =>
    obtain ⟨count, reached⟩ := inductionHypothesis same
    exact ⟨count + 1, .follow refers found reached⟩
  | leave | object | array => cases same
  | single =>
    subst same
    exact ⟨0, .here _⟩

/-! ## What is left -/

/-- A reference that a value leads to at a place of its expansion and that is not followed:
it leads nowhere, or it lies within as many references as are followed. -/
def Stays (document value : Json) (limit : Nat) (place : List Step) (left : Json) : Prop :=
  ∃ count reference, Reaches document value place count left ∧ left.reference? = some reference ∧
    (target? document reference = none ∨ count = limit)

/-- Why there is a reference at a place of an expansion: an object only looks like one there,
or it belongs to a reference that is not followed. -/
inductive Accounted (document value result : Json) (limit : Nat) : List Step → Json → Prop
  | formed {place : List Step} {count : Nat} {members : List (String × Json)} {part : Json}
      (reached : Reaches document value place count (.obj members))
      (forms : FormsReference document members) : Accounted document value result limit place part
  | left {before after : List Step} {whole part : Json}
      (stays : Stays document value limit before whole) (held : HasPart result before whole)
      (inside : HasPart whole after part) :
      Accounted document value result limit (before ++ after) part

/-- What is accounted for in the expansion of a target is so in that of the reference. -/
theorem Accounted.follow {members : List (String × Json)} {reference : String}
    {target part : Json} (refers : referenceOf? members = some reference)
    (found : target? document reference = some target)
    (accounted : Accounted document target result limit place part) :
    Accounted document (.obj members) result (limit + 1) place part := by
  cases accounted with
  | formed reached forms => exact .formed (.follow refers found reached) forms
  | left stays held inside =>
    obtain ⟨count, own, reached, isReference, reason⟩ := stays
    refine .left ⟨count + 1, own, .follow refers found reached, isReference, ?_⟩ held inside
    exact reason.imp_right fun same => by rw [same]

/-- What is accounted for in the expansion of a part is so in that of the whole, if the part
is one step away in both. -/
theorem Accounted.step {child childResult part : Json} {step : Step}
    (reaches : ∀ {place count part}, Reaches document child place count part →
      Reaches document value (step :: place) count part)
    (holds : ∀ {place part}, HasPart childResult place part → HasPart result (step :: place) part)
    (accounted : Accounted document child childResult limit place part) :
    Accounted document value result limit (step :: place) part := by
  cases accounted with
  | formed reached forms => exact .formed (reaches reached) forms
  | @left before after _ _ stays held inside =>
    obtain ⟨count, own, reached, isReference, reason⟩ := stays
    rw [← List.cons_append]
    exact .left ⟨count, own, reaches reached, isReference, reason⟩ (holds held) inside

theorem mem_of_lookup {members : List (String × Json)} {key : String}
    (found : lookup members key = some value) : (key, value) ∈ members := by
  obtain ⟨member, isFirst, rfl⟩ := Option.map_eq_some_iff.1 found
  have named : member.1 = key := by simpa using List.find?_some isFirst
  exact named ▸ List.mem_of_find?_eq_some isFirst

theorem lookup_map (change : Json → Json) (members : List (String × Json)) (key : String) :
    lookup (members.map fun member => (member.1, change member.2)) key =
      (lookup members key).map change := by
  rw [lookup, lookup, List.find?_map, Option.map_map, Option.map_map]
  rfl

/-- An expanded object that looks like a reference forms one. -/
theorem formsReference_of_expanded {members : List (String × Json)} {expansion : Json → Json}
    (plain : referenceOf? members = none)
    (inside : ∀ member ∈ members, Expands document follows depth member.2 (expansion member.2))
    (looks : referenceOf? (members.map fun member => (member.1, expansion member.2)) ≠ none) :
    FormsReference document members := by
  obtain ⟨reference, looks⟩ := Option.ne_none_iff_exists'.1 looks
  rw [referenceOf?, lookup_map] at looks
  obtain ⟨expanded, given, isText⟩ := Option.bind_eq_some_iff.1 looks
  obtain ⟨inner, found, rfl⟩ := Option.map_eq_some_iff.1 given
  have innerExpands := inside _ (mem_of_lookup found)
  cases same : expansion inner with
  | str text =>
    simp only [same] at innerExpands
    obtain ⟨count, reached⟩ := innerExpands.exists_reaches
    exact ⟨plain, inner, count, text, found, reached⟩
  | null | bool | num | arr | obj =>
    rw [same] at isText
    cases isText

/-- Every reference in an expansion is accounted for. -/
theorem Expands.accounted {part : Json} {left : Nat}
    (expanded : Expands document (· < limit) depth value result) (total : depth + left = limit)
    (held : HasPart result place part) (looks : part.reference? ≠ none) :
    Accounted document value result left place part := by
  induction expanded generalizing place left with
  | @follow depth _ _ _ _ refers followed found _ inductionHypothesis =>
    have followed : depth < limit := followed
    obtain ⟨fewer, rfl⟩ : ∃ fewer, left = fewer + 1 := ⟨left - 1, by omega⟩
    exact .follow refers found (inductionHypothesis (by omega) held)
  | @leave depth members reference refers stays =>
    have stands : Stays document (.obj members) left [] (.obj members) := by
      refine ⟨0, reference, .here _, refers, ?_⟩
      by_cases below : depth < limit
      · exact .inl (stays below)
      · exact .inr (by omega)
    exact .left stands (.whole _) held
  | object expansion plain inside inductionHypothesis =>
    cases held with
    | whole => exact .formed (.here _) (formsReference_of_expanded plain inside looks)
    | member listed held =>
      obtain ⟨⟨name, child⟩, isMember, same⟩ := List.mem_map.1 listed
      cases same
      exact .step (.member plain isMember) (.member listed)
        (inductionHypothesis _ isMember total held)
  | array expansion _ inductionHypothesis =>
    cases held with
    | whole => exact absurd rfl looks
    | element listed held =>
      have mapped := listed
      rw [List.getElem?_map] at mapped
      obtain ⟨child, isItem, rfl⟩ := Option.map_eq_some_iff.1 mapped
      exact .step (.element isItem) (.element listed)
        (inductionHypothesis _ (List.mem_of_getElem? isItem) total held)
  | single noMembers noItems =>
    cases held with
    | whole =>
      rw [reference?, noMembers] at looks
      exact absurd rfl looks
    | member => cases noMembers
    | element => cases noItems

/-! ## Bounded nesting -/

/-- The references that a value leads to all lead somewhere, and at most `limit` of them lie
within each other. -/
structure Nests (document value : Json) (limit : Nat) : Prop where
  leadsOn : ∀ {place count part reference}, Reaches document value place count part →
    part.reference? = some reference → ∃ target, target? document reference = some target
  bounded : ∀ {place count part}, Reaches document value place count part → count ≤ limit

/-- Behind some references, the bound is that much lower. -/
theorem Nests.of_reaches {part : Json} (nests : Nests document value limit)
    (reached : Reaches document value place count part) :
    Nests document part (limit - count) where
  leadsOn further refers := nests.leadsOn (reached.trans further) refers
  bounded further := by
    have bound := nests.bounded (reached.trans further)
    omega

/-- Where nesting is bounded, nothing that is reached lies within itself: a cycle could be
followed any number of times. -/
theorem Nests.acyclic {part : Json} {below : List Step} {further : Nat}
    (nests : Nests document value limit) (reached : Reaches document value place count part) :
    ¬ Reaches document part below (further + 1) part := by
  intro cycle
  have repeated : ∀ times, ∃ place, Reaches document part place (times * (further + 1)) part := by
    intro times
    induction times with
    | zero => exact ⟨[], by simpa using Reaches.here part⟩
    | succ times inductionHypothesis =>
      obtain ⟨place, soFar⟩ := inductionHypothesis
      exact ⟨_, Nat.succ_mul times (further + 1) ▸ soFar.trans cycle⟩
  obtain ⟨_, often⟩ := repeated (limit + 1)
  have bound := nests.bounded (reached.trans often)
  rw [Nat.mul_add_one] at bound
  omega

/-- Where nesting is bounded by the number of references that are followed, all are followed. -/
theorem Expands.unlimited {left : Nat}
    (expanded : Expands document (· < limit) depth value result) (total : depth + left = limit)
    (nests : Nests document value left) : Expands document (fun _ => True) depth value result := by
  induction expanded generalizing left with
  | follow refers followed found _ inductionHypothesis =>
    have within := nests.of_reaches (.follow refers found (.here _))
    have followed : _ < limit := followed
    exact .follow refers trivial found (inductionHypothesis (by omega) within)
  | leave refers stays =>
    obtain ⟨target, found⟩ := nests.leadsOn (.here _) refers
    have positive := nests.bounded (.follow refers found (.here _))
    have nowhere := stays (by omega)
    cases found.symm.trans nowhere
  | object expansion plain _ inductionHypothesis =>
    refine .object expansion plain fun member listed => inductionHypothesis member listed total ?_
    exact nests.of_reaches (.member plain listed (.here _))
  | array expansion _ inductionHypothesis =>
    refine .array expansion fun item listed => inductionHypothesis item listed total ?_
    obtain ⟨position, isItem⟩ := List.getElem?_of_mem listed
    exact nests.of_reaches (.element isItem (.here _))
  | single noMembers noItems => exact .single noMembers noItems

/-- A value without references is its own expansion. -/
theorem expands_self (plain : ∀ place part, HasPart value place part → part.reference? = none) :
    Expands document follows depth value value := by
  induction value using induction_on_parts with
  | single value noMembers noItems => exact .single noMembers noItems
  | array items inductionHypothesis =>
    have expanded : Expands document follows depth (.arr items) (.arr (items.map id)) := by
      refine .array id fun item listed => inductionHypothesis item listed fun place part held => ?_
      obtain ⟨position, isItem⟩ := List.getElem?_of_mem listed
      exact plain _ _ (.element isItem held)
    rwa [List.map_id] at expanded
  | object members inductionHypothesis =>
    have expanded : Expands document follows depth (.obj members)
        (.obj (members.map fun member => (member.1, id member.2))) := by
      refine .object id (plain _ _ (.whole _)) fun member listed =>
        inductionHypothesis member listed fun place part held => ?_
      exact plain _ _ (.member listed held)
    rwa [show (fun member : String × Json => (member.1, id member.2)) = id from rfl,
      List.map_id] at expanded

/-- No reference is left where nesting is bounded by the number of references that are
followed, unless an object forms one. -/
theorem reference?_of_nests (nests : Nests document value maxReferences)
    (unformed : ∀ place count members, Reaches document value place count (.obj members) →
      ¬ FormsReference document members) {part : Json}
    (held : HasPart (resolve document value) place part) : part.reference? = none := by
  refine Decidable.byContradiction fun looks => ?_
  have expanded : Expands document (· < maxReferences) 0 value (resolve document value) :=
    expands_iff.2 rfl
  cases expanded.accounted (Nat.zero_add _) held looks with
  | formed reached forms => exact unformed _ _ _ reached forms
  | left stays _ _ =>
    obtain ⟨count, reference, reached, refers, reason⟩ := stays
    obtain ⟨target, found⟩ := nests.leadsOn reached refers
    rcases reason with nowhere | deep
    · cases found.symm.trans nowhere
    · obtain ⟨members, rfl, isReference⟩ := exists_members_of_reference? refers
      have bound := nests.bounded (reached.trans (.follow isReference found (.here _)))
      omega

/-! ## A document with references -/

/-- The reference with a pointer. -/
def refer (pointer : String) : Json :=
  .obj [("$ref", .str pointer)]

/-- A reference leads to itself and to what its target leads to. -/
theorem reaches_refer_cases {pointer : String} {part : Json}
    (reached : Reaches document (refer pointer) place count part) :
    (count = 0 ∧ part = refer pointer) ∨
      ∃ target before, target? document pointer = some target ∧ count = before + 1 ∧
        Reaches document target place before part := by
  have own : referenceOf? [("$ref", .str pointer)] = some pointer := rfl
  cases reached with
  | here => exact .inl ⟨rfl, rfl⟩
  | member plain => cases own.symm.trans plain
  | follow refers found inside =>
    cases own.symm.trans refers
    exact .inr ⟨_, _, found, rfl, inside⟩

/-- What is neither an array nor an object leads to itself only. -/
theorem eq_of_reaches_single {part : Json} (noMembers : value.members? = none)
    (noItems : value.items? = none) (reached : Reaches document value place count part) :
    count = 0 ∧ part = value := by
  cases reached with
  | here => exact ⟨rfl, rfl⟩
  | member | follow => cases noMembers
  | element => cases noItems

/-- A document with a reference that leads through another one, and with an object that has
a reference to a text under `$ref`. -/
def signposts : Json :=
  .obj [("goal", .bool true), ("mask", .obj [("$ref", refer "#/name")]), ("name", .str "#/goal"),
    ("road", .arr [refer "#/turn"]), ("turn", refer "#/goal")]

/-- All that the road leads to. -/
theorem reaches_road {part : Json}
    (reached : Reaches signposts (.arr [refer "#/turn"]) place count part) :
    (count = 0 ∧ (part = .arr [refer "#/turn"] ∨ part = refer "#/turn")) ∨
      (count = 1 ∧ part = refer "#/goal") ∨ (count = 2 ∧ part = .bool true) := by
  cases reached with
  | here => exact .inl ⟨rfl, .inl rfl⟩
  | element listed inside =>
    have atTurn : target? signposts "#/turn" = some (refer "#/goal") := rfl
    have atGoal : target? signposts "#/goal" = some (.bool true) := rfl
    cases List.mem_singleton.1 (List.mem_of_getElem? listed)
    rcases reaches_refer_cases inside with ⟨rfl, rfl⟩ | ⟨target, before, found, rfl, inside⟩
    · exact .inl ⟨rfl, .inr rfl⟩
    · cases found.symm.trans atTurn
      rcases reaches_refer_cases inside with ⟨rfl, rfl⟩ | ⟨target, before, found, rfl, inside⟩
      · exact .inr (.inl ⟨rfl, rfl⟩)
      · cases found.symm.trans atGoal
        obtain ⟨rfl, rfl⟩ := eq_of_reaches_single rfl rfl inside
        exact .inr (.inr ⟨rfl, rfl⟩)

/-- All that the mask leads to. -/
theorem reaches_mask {part : Json}
    (reached : Reaches signposts (.obj [("$ref", refer "#/name")]) place count part) :
    (count = 0 ∧ (part = .obj [("$ref", refer "#/name")] ∨ part = refer "#/name")) ∨
      (count = 1 ∧ part = .str "#/goal") := by
  have plain : referenceOf? [("$ref", refer "#/name")] = none := rfl
  cases reached with
  | here => exact .inl ⟨rfl, .inl rfl⟩
  | follow refers => cases plain.symm.trans refers
  | member _ listed inside =>
    have atName : target? signposts "#/name" = some (.str "#/goal") := rfl
    cases List.mem_singleton.1 listed
    rcases reaches_refer_cases inside with ⟨rfl, rfl⟩ | ⟨target, before, found, rfl, inside⟩
    · exact .inl ⟨rfl, .inr rfl⟩
    · cases found.symm.trans atName
      obtain ⟨rfl, rfl⟩ := eq_of_reaches_single rfl rfl inside
      exact .inr ⟨rfl, rfl⟩

/-! ## Resolution -/

/-- References are expanded as far as they are followed. Every value has one expansion, and
that is what it is resolved to. A reference in it leads nowhere, lies within eight others,
belongs to one of these, or only looks like a reference since a reference to a text stood
under `$ref`. Where all references lead somewhere, at most eight lie within each other and
no object comes to look like one, nothing is left: what a value is resolved to has no
references, stays as it is when it is resolved again, and is the only expansion that follows
references without a bound. -/
theorem references_are_expanded (document value : Json) :
    (∀ result, Expands document (· < maxReferences) 0 value result ↔
      result = resolve document value) ∧
    (∀ place part, HasPart (resolve document value) place part → part.reference? ≠ none →
      Accounted document value (resolve document value) maxReferences place part) ∧
    (Nests document value maxReferences →
      (∀ place count members, Reaches document value place count (.obj members) →
        ¬ FormsReference document members) →
      (∀ place part, HasPart (resolve document value) place part → part.reference? = none) ∧
      resolve document (resolve document value) = resolve document value ∧
      ∀ result, Expands document (fun _ => True) 0 value result ↔
        result = resolve document value) := by
  have expanded : Expands document (· < maxReferences) 0 value (resolve document value) :=
    expands_iff.2 rfl
  refine ⟨fun _ => expands_iff,
    fun _ _ held looks => expanded.accounted (Nat.zero_add _) held looks, fun nests unformed => ?_⟩
  have noReference : ∀ place part, HasPart (resolve document value) place part →
      part.reference? = none := fun _ _ held => reference?_of_nests nests unformed held
  have whole := expanded.unlimited (Nat.zero_add _) nests
  refine ⟨noReference, (expands_iff.1 (expands_self noReference)).symm, fun result => ?_⟩
  exact ⟨fun other => other.unique whole, fun same => same ▸ whole⟩

/-- The road is expanded through two references within each other. -/
theorem road_is_expanded :
    Nests signposts (.arr [refer "#/turn"]) maxReferences ∧
      resolve signposts (.arr [refer "#/turn"]) = .arr [.bool true] ∧
      resolve signposts (.arr [.bool true]) = .arr [.bool true] ∧
      Expands signposts (fun _ => True) 0 (.arr [refer "#/turn"]) (.arr [.bool true]) := by
  have nests : Nests signposts (.arr [refer "#/turn"]) maxReferences := by
    refine ⟨fun reached refers => ?_, fun reached => ?_⟩
    · rcases reaches_road reached with ⟨_, rfl | rfl⟩ | ⟨_, rfl⟩ | ⟨_, rfl⟩ <;> cases refers <;>
        exact ⟨_, rfl⟩
    · have eight : maxReferences = 8 := rfl
      rcases reaches_road reached with ⟨_, _⟩ | ⟨_, _⟩ | ⟨_, _⟩ <;> omega
  have unformed : ∀ place count members,
      Reaches signposts (.arr [refer "#/turn"]) place count (.obj members) →
        ¬ FormsReference signposts members := by
    rintro place count members reached ⟨plain, _⟩
    rcases reaches_road reached with ⟨_, same | same⟩ | ⟨_, same⟩ | ⟨_, same⟩ <;> cases same <;>
      cases plain
  have resolved : resolve signposts (.arr [refer "#/turn"]) = .arr [.bool true] := rfl
  obtain ⟨_, _, whole⟩ := references_are_expanded signposts (.arr [refer "#/turn"])
  obtain ⟨_, again, unbounded⟩ := whole nests unformed
  rw [resolved] at again unbounded
  exact ⟨nests, resolved, again, (unbounded _).2 rfl⟩

/-- All references that the mask leads to lead somewhere, and none lies within another. But
it is resolved to what looks like a reference that could be followed, and that changes when
it is resolved again. -/
theorem mask_is_left :
    signposts.get? "mask" = some (.obj [("$ref", refer "#/name")]) ∧
      Nests signposts (.obj [("$ref", refer "#/name")]) 1 ∧
      resolve signposts (.obj [("$ref", refer "#/name")]) = refer "#/goal" ∧
      target? signposts "#/goal" = some (.bool true) ∧
      (∀ whole, ¬ Stays signposts (.obj [("$ref", refer "#/name")]) maxReferences [] whole) ∧
      resolve signposts (refer "#/goal") = .bool true := by
  have leadsOn : ∀ {place count part reference},
      Reaches signposts (.obj [("$ref", refer "#/name")]) place count part →
        part.reference? = some reference → ∃ target, target? signposts reference = some target := by
    intro place count part reference reached refers
    rcases reaches_mask reached with ⟨_, rfl | rfl⟩ | ⟨_, rfl⟩ <;> cases refers
    exact ⟨_, rfl⟩
  have bounded : ∀ {place count part},
      Reaches signposts (.obj [("$ref", refer "#/name")]) place count part → count ≤ 1 := by
    intro place count part reached
    rcases reaches_mask reached with ⟨_, _⟩ | ⟨_, _⟩ <;> omega
  refine ⟨rfl, ⟨leadsOn, bounded⟩, rfl, rfl, ?_, rfl⟩
  rintro whole ⟨count, reference, reached, refers, nowhere | deep⟩
  · obtain ⟨target, found⟩ := leadsOn reached refers
    cases found.symm.trans nowhere
  · have eight : maxReferences = 8 := rfl
    have bound := bounded reached
    omega

end ContextDb.Json
