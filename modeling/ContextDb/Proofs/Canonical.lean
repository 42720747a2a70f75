import ContextDb.Json.Reader
import ContextDb.Proofs.Expanding
import ContextDb.Proofs.SortedMap

/-!
# Values with their members in order

A value that is read has the members of each object in order of their names, and no name
twice. So has every part of such a value, and what it is resolved to in such a document.
-/

namespace ContextDb.Json

variable {document value part : Json}

mutual

/-- Whether the members of every object in a value stand in order of their names. -/
def isCanonical : Json → Bool
  | .arr items => areCanonical items
  | .obj members =>
    decide (members.Pairwise fun first second => first.1 < second.1) && haveCanonical members
  | _ => true

/-- Whether all elements of an array are canonical. -/
def areCanonical : List Json → Bool
  | [] => true
  | item :: rest => isCanonical item && areCanonical rest

/-- Whether the values of all members of an object are canonical. -/
def haveCanonical : List (String × Json) → Bool
  | [] => true
  | (_, value) :: rest => isCanonical value && haveCanonical rest

end

/-- The members of every object in a value stand in order of their names. -/
def Canonical (value : Json) : Prop :=
  value.isCanonical = true

instance : Decidable value.Canonical :=
  inferInstanceAs (Decidable (_ = true))

theorem canonical_arr_iff {items : List Json} :
    Canonical (.arr items) ↔ ∀ item ∈ items, item.Canonical := by
  rw [Canonical, isCanonical]
  induction items with
  | nil => simp [areCanonical]
  | cons item rest inductionHypothesis =>
    rw [areCanonical, Bool.and_eq_true, inductionHypothesis, List.forall_mem_cons, Canonical]

theorem haveCanonical_iff {members : List (String × Json)} :
    haveCanonical members = true ↔ ∀ member ∈ members, member.2.Canonical := by
  induction members with
  | nil => simp [haveCanonical]
  | cons member rest inductionHypothesis =>
    rw [haveCanonical, Bool.and_eq_true, inductionHypothesis, List.forall_mem_cons, Canonical]

theorem canonical_obj_iff {members : List (String × Json)} :
    Canonical (.obj members) ↔
      members.Pairwise (fun first second => first.1 < second.1) ∧
        ∀ member ∈ members, member.2.Canonical := by
  rw [Canonical, isCanonical, Bool.and_eq_true, decide_eq_true_eq, haveCanonical_iff]

/-- No two members of an object have the same name. -/
theorem Canonical.nodup_names {members : List (String × Json)}
    (canonical : Canonical (.obj members)) : (members.map (·.1)).Nodup := by
  refine List.Pairwise.map _ (fun first second below => ?_) (canonical_obj_iff.1 canonical).1
  exact fun same => String.lt_irrefl _ (same ▸ below)

/-! ## Parts -/

theorem items?_eq_some_iff {items : List Json} :
    value.items? = some items ↔ value = .arr items := by
  cases value <;> simp [items?]

theorem members?_eq_some_iff {members : List (String × Json)} :
    value.members? = some members ↔ value = .obj members := by
  cases value <;> simp [members?]

/-- A member of a canonical value is canonical. -/
theorem Canonical.get? (canonical : value.Canonical) {key : String}
    (found : value.get? key = some part) : part.Canonical := by
  cases value with
  | obj members => exact (canonical_obj_iff.1 canonical).2 _ (mem_of_lookup found)
  | null | bool | num | str | arr => cases found

/-- What is one step away from a canonical value is canonical. -/
theorem Canonical.child? (canonical : value.Canonical) {step : List Char}
    (found : value.child? step = some part) : part.Canonical := by
  cases value with
  | obj members => exact (canonical_obj_iff.1 canonical).2 _ (mem_of_lookup found)
  | arr items =>
    obtain ⟨position, _, isItem⟩ := Option.bind_eq_some_iff.1 found
    exact canonical_arr_iff.1 canonical _ (List.mem_of_getElem? isItem)
  | null | bool | num | str => cases found

/-- What several steps lead to in a canonical value is canonical. -/
theorem Canonical.foldlM_child? (canonical : value.Canonical) {steps : List (List Char)}
    (found : steps.foldlM Json.child? value = some part) : part.Canonical := by
  induction steps generalizing value with
  | nil =>
    cases found
    exact canonical
  | cons step rest inductionHypothesis =>
    rw [List.foldlM_cons] at found
    obtain ⟨next, isChild, found⟩ := Option.bind_eq_some_iff.1 found
    exact inductionHypothesis (canonical.child? isChild) found

/-- What a pointer names in a canonical value is canonical. -/
theorem Canonical.pointer? (canonical : value.Canonical) {pointer : List Char}
    (found : value.pointer? pointer = some part) : part.Canonical := by
  unfold Json.pointer? at found
  split at found
  · cases found
    exact canonical
  · exact canonical.foldlM_child? found
  · cases found

/-- What a reference stands for in a canonical document is canonical. -/
theorem Canonical.target? (canonical : document.Canonical) {reference : String}
    (found : document.target? reference = some part) : part.Canonical := by
  unfold Json.target? at found
  split at found
  · exact canonical.pointer? found
  · cases found

/-! ## Expansions -/

/-- The expansion of a canonical value is canonical. -/
theorem Expands.canonical {follows : Nat → Prop} {depth : Nat} {result : Json}
    (expanded : Expands document follows depth value result) (ofDocument : document.Canonical)
    (ofValue : value.Canonical) : result.Canonical := by
  induction expanded with
  | follow _ _ found _ inductionHypothesis =>
    exact inductionHypothesis (ofDocument.target? found)
  | leave => exact ofValue
  | object expansion _ _ inductionHypothesis =>
    obtain ⟨sorted, inside⟩ := canonical_obj_iff.1 ofValue
    refine canonical_obj_iff.2 ⟨List.Pairwise.map _ (fun _ _ below => below) sorted, ?_⟩
    rintro _ listed
    obtain ⟨member, isMember, rfl⟩ := List.mem_map.1 listed
    exact inductionHypothesis member isMember (inside member isMember)
  | array expansion _ inductionHypothesis =>
    refine canonical_arr_iff.2 fun _ listed => ?_
    obtain ⟨item, isItem, rfl⟩ := List.mem_map.1 listed
    exact inductionHypothesis item isItem (canonical_arr_iff.1 ofValue item isItem)
  | single => exact ofValue

/-- What a canonical value is resolved to in a canonical document is canonical. -/
theorem Canonical.resolve (ofValue : value.Canonical) (ofDocument : document.Canonical) :
    (document.resolve value).Canonical :=
  Expands.canonical (expands_iff.2 rfl) ofDocument ofValue

/-! ## Reading -/

/-- Members in canonical order make a canonical object. -/
theorem canonical_canonicalMembers {members : List (String × Json)}
    (inside : ∀ member ∈ members, member.2.Canonical) :
    Canonical (.obj (canonicalMembers members)) := by
  refine canonical_obj_iff.2 ⟨(SortedMap.ofList members).sorted, fun member listed => ?_⟩
  exact inside _ (SortedMap.mem_of_get?_ofList (SortedMap.mem_toList_iff.1 listed))

/-- What is read up to some fuel is canonical, after canonical elements and members. The three
readers call each other with less fuel, so that one induction on it is about all of them. -/
theorem canonical_of_readValue? (fuel : Nat) :
    (∀ {depth input value rest}, readValue? fuel depth input = some (value, rest) →
      value.Canonical) ∧
    (∀ {depth first reversed input value rest}, (∀ item ∈ reversed, item.Canonical) →
      readItems? fuel depth first reversed input = some (value, rest) → value.Canonical) ∧
    (∀ {depth first} {reversed : List (String × Json)} {input value rest},
      (∀ member ∈ reversed, member.2.Canonical) →
      readMembers? fuel depth first reversed input = some (value, rest) → value.Canonical) := by
  induction fuel with
  | zero =>
    refine ⟨fun read => ?_, fun _ read => ?_, fun _ read => ?_⟩
    · cases read
    · cases read
    · cases read
  | succ fuel inductionHypothesis =>
    obtain ⟨ofValue, ofItems, ofMembers⟩ := inductionHypothesis
    refine ⟨fun read => ?_, fun canonical read => ?_, fun canonical read => ?_⟩
    · unfold readValue? at read
      split at read
      · cases read
      rename_i byte rest _
      dsimp only at read
      split_ifs at read
      · obtain ⟨_, _, isText⟩ := Option.map_eq_some_iff.1 read
        cases isText
        rfl
      · split at read
        · cases read
        · exact ofItems (by simp) read
      · split at read
        · cases read
        · exact ofMembers (by simp) read
      all_goals
        obtain ⟨_, _, isSingle⟩ := Option.map_eq_some_iff.1 read
        cases isSingle
        rfl
    · unfold readItems? at read
      split at read
      · cases read
      split_ifs at read
      · cases read
        exact canonical_arr_iff.2 fun item listed => canonical item (List.mem_reverse.1 listed)
      · split at read
        · cases read
        · rename_i item _ isItem
          exact ofItems (List.forall_mem_cons.2 ⟨ofValue isItem, canonical⟩) read
      · split at read
        · cases read
        · rename_i item _ isItem
          exact ofItems (List.forall_mem_cons.2 ⟨ofValue isItem, canonical⟩) read
    · unfold readMembers? at read
      split at read
      · cases read
      split at read
      · cases read
        exact canonical_canonicalMembers fun member listed =>
          canonical member (List.mem_reverse.1 listed)
      dsimp only at read
      split at read
      · cases read
      split at read
      · cases read
      split at read
      · cases read
      split at read
      · cases read
      split at read
      · cases read
      split at read
      · cases read
      · rename_i isValue
        exact ofMembers (List.forall_mem_cons.2 ⟨ofValue isValue, canonical⟩) read

/-- What is read is canonical. -/
theorem canonical_of_read? {input : List UInt8} (read : read? input = some value) :
    value.Canonical := by
  unfold read? readWithin? at read
  split at read
  · rename_i isValue
    split at read
    · cases read
      exact (canonical_of_readValue? _).1 isValue
    · cases read
  · cases read

end ContextDb.Json
