import ContextDb.Proofs.Pieces
import ContextDb.Uri

/-!
# Addresses as lists of names

The normal addresses are exactly those that a list of proper names spells. Seen
on that list, the parent drops the last name, the ancestors are the proper
beginnings, and to lie below is to extend. `Trail` keeps the names together with
their properness, so that these facts need no side conditions.
-/

namespace ContextDb.Uri

open Text

/-- What an entry can be called in its directory. -/
structure IsName (name : List Char) : Prop where
  nonempty : name ≠ []
  slashless : '/' ∉ name
  notRelative : isRelativeName name = false

/-- The names on the way from the root to an entry. -/
@[ext]
structure Trail where
  names : List (List Char)
  proper : ∀ name ∈ names, IsName name

namespace Trail

/-- The address that a trail spells. -/
def uri (trail : Trail) : String :=
  ofPath (joinWith ['/'] trail.names)

/-- The trail without steps. -/
def root : Trail := ⟨[], by simp⟩

/-- The trail without its last step. -/
def parent (trail : Trail) : Trail :=
  ⟨trail.names.dropLast, fun name member => trail.proper name (List.dropLast_subset _ member)⟩

/-- A trail with more steps at its end. -/
def append (trail : Trail) (rest : List (List Char)) (proper : ∀ name ∈ rest, IsName name) :
    Trail :=
  ⟨trail.names ++ rest, fun name member =>
    (List.mem_append.1 member).elim (trail.proper name) (proper name)⟩

/-- One trail extends another by at least one step. -/
def Below (lower upper : Trail) : Prop :=
  ∃ rest, rest ≠ [] ∧ lower.names = upper.names ++ rest

theorem slashless (trail : Trail) : ∀ name ∈ trail.names, '/' ∉ name :=
  fun name member => (trail.proper name member).slashless

theorem toList_uri (trail : Trail) :
    trail.uri.toList = scheme.toList ++ joinWith ['/'] trail.names := by
  simp [uri, ofPath]

theorem uri_root : root.uri = scheme := by
  simp [uri, ofPath, root]

/-- No name of a trail is dropped as an empty piece. -/
theorem filter_names (trail : Trail) : trail.names.filter (!·.isEmpty) = trail.names := by
  refine List.filter_eq_self.2 fun name member => ?_
  simpa using (trail.proper name member).nonempty

/-- The non-empty pieces of a spelled path are the names themselves. -/
theorem pieces_names (trail : Trail) :
    (pieces '/' (joinWith ['/'] trail.names)).filter (!·.isEmpty) = trail.names := by
  by_cases empty : trail.names = []
  · simp [empty]
  · rw [pieces_joinWith empty trail.slashless, trail.filter_names]

end Trail

/-- The scheme is as long as its count of bytes says, so that a cut there leaves the path. -/
theorem dropBytes?_ofPath (path : List Char) :
    dropBytes? schemeBytes (ofPath path).toList = some path := by
  have size : schemeBytes = scheme.utf8ByteSize := by decide +kernel
  rw [size, ofPath, String.toList_ofList]
  exact dropBytes?_append scheme path

theorem path_ofPath (text : List Char) : path (ofPath text) = text := by
  rw [path, dropBytes?_ofPath, Option.getD_some]

/-- Different trails spell different addresses. -/
theorem Trail.uri_injective : Function.Injective Trail.uri := by
  intro first second same
  have paths : joinWith ['/'] first.names = joinWith ['/'] second.names := by
    rw [← path_ofPath (joinWith ['/'] first.names), ← path_ofPath (joinWith ['/'] second.names)]
    exact congrArg path same
  apply Trail.ext
  rw [← first.pieces_names, ← second.pieces_names, paths]

@[simp] theorem Trail.uri_inj {first second : Trail} : first.uri = second.uri ↔ first = second :=
  Trail.uri_injective.eq_iff

/-- A spelled address is normal. -/
theorem normalize_uri (trail : Trail) : normalize trail.uri = .ok trail.uri := by
  have cut : dropPrefix? scheme.toList trail.uri.toList = some (joinWith ['/'] trail.names) :=
    dropPrefix?_eq_some_iff.2 trail.toList_uri
  have absolute : trail.names.any isRelativeName = false :=
    List.any_eq_false.2 fun name member => by simp [(trail.proper name member).notRelative]
  rw [normalize, cut]
  simp only [trail.pieces_names, absolute, Bool.false_eq_true, if_false]
  rfl

/-- Normalisation gives the address of the trail of non-empty pieces. -/
theorem exists_names_of_normalize {spelling normal : String}
    (normalized : normalize spelling = .ok normal) :
    ∃ (trail : Trail) (rest : List Char), normal = trail.uri ∧
      spelling.toList = scheme.toList ++ rest ∧
      trail.names = (pieces '/' rest).filter (!·.isEmpty) := by
  unfold normalize at normalized
  split at normalized
  · cases normalized
  · rename_i rest cut
    simp only at normalized
    split at normalized
    · cases normalized
    · rename_i absolute
      have proper : ∀ name ∈ (pieces '/' rest).filter (!·.isEmpty), IsName name := by
        intro name member
        obtain ⟨inPieces, nonempty⟩ := List.mem_filter.1 member
        refine ⟨by simpa using nonempty, not_mem_of_mem_pieces inPieces, ?_⟩
        have notAny := List.any_eq_false.1 (Bool.not_eq_true _ ▸ absolute) name member
        simpa using notAny
      exact ⟨⟨_, proper⟩, rest, (Except.ok.inj normalized).symm,
        dropPrefix?_eq_some_iff.1 cut, rfl⟩

/-- Whatever normalisation gives is spelled by a trail. -/
theorem exists_trail_of_normalize {spelling normal : String}
    (normalized : normalize spelling = .ok normal) : ∃ trail : Trail, normal = trail.uri := by
  obtain ⟨trail, _, spelled, _⟩ := exists_names_of_normalize normalized
  exact ⟨trail, spelled⟩

/-- The only failure of normalisation is a bad address. -/
theorem exists_invalidUri_of_normalize {spelling : String} {error : Error}
    (failed : normalize spelling = .error error) : ∃ reason, error = .invalidUri reason := by
  unfold normalize at failed
  split at failed
  · exact ⟨_, (Except.error.inj failed).symm⟩
  · simp only at failed
    split at failed
    · exact ⟨_, (Except.error.inj failed).symm⟩
    · cases failed

namespace Trail

variable {trail lower upper : Trail}

theorem eq_root_iff : trail = root ↔ trail.names = [] :=
  ⟨fun same => same ▸ rfl, fun empty => Trail.ext empty⟩

theorem uri_eq_scheme_iff : trail.uri = scheme ↔ trail.names = [] := by
  rw [← uri_root, uri_inj, eq_root_iff]

@[simp] theorem isRoot_uri : isRoot trail.uri = decide (trail.names = []) := by
  simp [isRoot, uri_eq_scheme_iff]

/-- The directory that holds an entry is reached by all names but the last. -/
theorem parent?_uri (nonempty : trail.names ≠ []) : parent? trail.uri = some trail.parent.uri := by
  have last := List.dropLast_concat_getLast nonempty
  have lastSlashless := trail.slashless _ (List.getLast_mem nonempty)
  have cut : (beforeLast? '/' (joinWith ['/'] trail.names)).getD [] =
      joinWith ['/'] trail.names.dropLast := by
    by_cases single : trail.names.dropLast = []
    · rw [single, List.nil_append] at last
      rw [single, ← last, joinWith_singleton, beforeLast?_of_not_mem lastSlashless]
      rfl
    · conv => lhs; rw [← last, joinWith_append _ single]
      simp [beforeLast?_append_cons lastSlashless]
  have notRoot : isRoot trail.uri = false := by simp [nonempty]
  rw [parent?, notRoot, uri, path_ofPath, cut]
  rfl

theorem parent?_uri_root : parent? root.uri = none := by
  simp [parent?, isRoot, uri_root]

/-- Only the root has no parent. -/
theorem parent?_uri_eq_some_iff {above : String} :
    parent? trail.uri = some above ↔ trail.names ≠ [] ∧ trail.parent.uri = above := by
  by_cases empty : trail.names = []
  · rw [eq_root_iff.2 empty, parent?_uri_root]
    simp [root]
  · simp [parent?_uri empty, empty]

/-! ## Lying below -/

theorem Below.trans {middle : Trail} (first : lower.Below middle) (second : middle.Below upper) :
    lower.Below upper := by
  obtain ⟨deeper, deeperNonempty, lowerNames⟩ := first
  obtain ⟨deep, _, middleNames⟩ := second
  refine ⟨deep ++ deeper, by simp [deeperNonempty], ?_⟩
  rw [lowerNames, middleNames, List.append_assoc]

theorem Below.length_lt (below : lower.Below upper) : upper.names.length < lower.names.length := by
  obtain ⟨rest, nonempty, names⟩ := below
  have positive := List.length_pos_iff.2 nonempty
  rw [names, List.length_append]
  omega

theorem not_below_self : ¬ trail.Below trail :=
  fun below => Nat.lt_irrefl _ below.length_lt

theorem Below.names_ne_nil (below : lower.Below upper) : lower.names ≠ [] :=
  List.ne_nil_of_length_pos (Nat.lt_of_le_of_lt (Nat.zero_le _) below.length_lt)

theorem below_parent (nonempty : trail.names ≠ []) : trail.Below trail.parent :=
  ⟨[trail.names.getLast nonempty], by simp, (List.dropLast_concat_getLast nonempty).symm⟩

/-- What lies above an entry is its parent or lies above that. -/
theorem Below.eq_parent_or (below : lower.Below upper) :
    upper = lower.parent ∨ lower.parent.Below upper := by
  obtain ⟨rest, nonempty, names⟩ := below
  have parentNames : lower.parent.names = upper.names ++ rest.dropLast := by
    simp only [parent, names, List.dropLast_append_of_ne_nil nonempty]
  by_cases single : rest.dropLast = []
  · left
    apply Trail.ext
    rw [parentNames, single, List.append_nil]
  · exact .inr ⟨rest.dropLast, single, parentNames⟩

/-- Of two entries that an entry lies below, one lies below the other if they differ. -/
theorem Below.total {other : Trail} (first : lower.Below upper) (second : lower.Below other) :
    upper = other ∨ upper.Below other ∨ other.Below upper := by
  obtain ⟨rest, _, names⟩ := first
  obtain ⟨otherRest, _, otherNames⟩ := second
  rcases List.append_eq_append_iff.1 (names.symm.trans otherNames) with
    ⟨between, longer, _⟩ | ⟨between, longer, _⟩
  · by_cases same : between = []
    · exact .inl (Trail.ext (by rw [longer, same, List.append_nil]))
    · exact .inr (.inr ⟨between, same, longer⟩)
  · by_cases same : between = []
    · exact .inl (Trail.ext (by rw [longer, same, List.append_nil]))
    · exact .inr (.inl ⟨between, same, longer⟩)

/-- On characters, lying below an entry that is not the root is to go on with a
slash. -/
theorem isBelow_eq_true_iff {uri ancestor : String} (notRoot : isRoot ancestor = false) :
    isBelow uri ancestor = true ↔ ∃ rest, uri.toList = ancestor.toList ++ '/' :: rest := by
  simp only [isBelow, notRoot, Bool.false_eq_true, if_false]
  constructor
  · intro below
    split at below
    · rename_i rest cut
      exact ⟨rest, dropPrefix?_eq_some_iff.1 cut⟩
    · cases below
  · rintro ⟨rest, shape⟩
    simp [dropPrefix?_eq_some_iff.2 shape]

/-- The path of a longer trail goes on behind that of a shorter one. -/
theorem joinWith_names_append (nonempty : upper.names ≠ []) (name : List Char)
    (rest : List (List Char)) :
    joinWith ['/'] (upper.names ++ name :: rest) =
      joinWith ['/'] upper.names ++ '/' :: joinWith ['/'] (name :: rest) := by
  rw [joinWith_append _ nonempty]
  simp [joinWith]

/-- The addresses of trails lie below each other as the trails do. -/
theorem isBelow_uri : isBelow lower.uri upper.uri = true ↔ lower.Below upper := by
  by_cases atRoot : upper.names = []
  · have upperRoot : isRoot upper.uri = true := by simp [atRoot]
    have schemeFirst : scheme.toList.isPrefixOf lower.uri.toList = true := by
      rw [toList_uri, List.isPrefixOf_iff_prefix]
      exact List.prefix_append _ _
    simp [isBelow, upperRoot, schemeFirst, Below, atRoot]
  · have notRoot : isRoot upper.uri = false := by simp [atRoot]
    rw [isBelow_eq_true_iff notRoot]
    simp only [toList_uri, List.append_assoc, List.append_cancel_left_eq]
    constructor
    · rintro ⟨rest, path⟩
      have lowerNonempty : lower.names ≠ [] := by
        intro empty
        rw [empty, joinWith_nil] at path
        simp at path
      refine ⟨pieces '/' rest, pieces_ne_nil _ _, ?_⟩
      rw [← pieces_joinWith_append atRoot upper.slashless, ← path,
        pieces_joinWith lowerNonempty lower.slashless]
    · rintro ⟨rest, nonempty, names⟩
      obtain ⟨name, others, rfl⟩ := List.exists_cons_of_ne_nil nonempty
      exact ⟨_, names ▸ joinWith_names_append atRoot name others⟩

theorem isBelow_uri_eq_false : isBelow lower.uri upper.uri = false ↔ ¬ lower.Below upper := by
  rw [← isBelow_uri, Bool.not_eq_true]

/-! ## Lying within -/

/-- One trail is another or extends it. -/
def Within (lower upper : Trail) : Prop :=
  ∃ rest, lower.names = upper.names ++ rest

theorem within_iff : lower.Within upper ↔ lower = upper ∨ lower.Below upper := by
  constructor
  · rintro ⟨rest, names⟩
    by_cases empty : rest = []
    · left
      apply Trail.ext
      rw [names, empty, List.append_nil]
    · exact .inr ⟨rest, empty, names⟩
  · rintro (rfl | ⟨rest, _, names⟩)
    · exact ⟨[], (List.append_nil _).symm⟩
    · exact ⟨rest, names⟩

theorem within_self : trail.Within trail :=
  within_iff.2 (.inl rfl)

theorem Within.trans {middle : Trail} (first : lower.Within middle) (second : middle.Within upper) :
    lower.Within upper := by
  obtain ⟨deeper, lowerNames⟩ := first
  obtain ⟨deep, middleNames⟩ := second
  exact ⟨deep ++ deeper, by rw [lowerNames, middleNames, List.append_assoc]⟩

theorem Below.within (below : lower.Below upper) : lower.Within upper :=
  within_iff.2 (.inr below)

theorem not_root_within (nonempty : trail.names ≠ []) : ¬ root.Within trail := by
  rintro ⟨rest, names⟩
  exact nonempty (List.append_eq_nil_iff.1 names.symm).1

end Trail

/-- Whether an address is another one or lies below it. -/
def isWithin (uri top : String) : Bool :=
  uri = top || isBelow uri top

@[simp] theorem isWithin_eq_true_iff {uri top : String} :
    isWithin uri top = true ↔ uri = top ∨ isBelow uri top = true := by
  simp [isWithin]

theorem Trail.isWithin_uri {lower upper : Trail} :
    isWithin lower.uri upper.uri = true ↔ lower.Within upper := by
  rw [isWithin_eq_true_iff, Trail.uri_inj, Trail.isBelow_uri, Trail.within_iff]

theorem Trail.isWithin_uri_eq_false {lower upper : Trail} :
    isWithin lower.uri upper.uri = false ↔ ¬ lower.Within upper := by
  rw [← Trail.isWithin_uri, Bool.not_eq_true]

/-! ## Ancestors -/

/-- The beginnings of a list that leave something out, shortest first. -/
def properPrefixes {α : Type} : List α → List (List α)
  | [] => []
  | first :: rest => [] :: (properPrefixes rest).map (first :: ·)

theorem mem_properPrefixes {α : Type} {whole beginning : List α} :
    beginning ∈ properPrefixes whole ↔ ∃ rest, rest ≠ [] ∧ whole = beginning ++ rest := by
  induction whole generalizing beginning with
  | nil => simp [properPrefixes]
  | cons first others inductionHypothesis =>
    cases beginning with
    | nil => simp [properPrefixes]
    | cons c beginning =>
      simp only [properPrefixes, List.mem_cons, List.mem_map, inductionHypothesis]
      constructor
      · rintro (impossible | ⟨_, ⟨rest, nonempty, rfl⟩, same⟩)
        · cases impossible
        · cases same
          exact ⟨rest, nonempty, rfl⟩
      · rintro ⟨rest, nonempty, same⟩
        cases same
        exact .inr ⟨beginning, ⟨rest, nonempty, rfl⟩, rfl⟩

/-- Each proper beginning continues those before it. -/
theorem pairwise_properPrefixes {α : Type} (whole : List α) :
    (properPrefixes whole).Pairwise fun shorter longer =>
      ∃ rest, rest ≠ [] ∧ longer = shorter ++ rest := by
  induction whole with
  | nil => exact .nil
  | cons first others inductionHypothesis =>
    refine List.pairwise_cons.2 ⟨fun longer member => ?_, ?_⟩
    · obtain ⟨beginning, _, rfl⟩ := List.mem_map.1 member
      exact ⟨first :: beginning, by simp, rfl⟩
    · refine List.Pairwise.map _ (fun shorter longer extends_ => ?_) inductionHypothesis
      obtain ⟨rest, nonempty, rfl⟩ := extends_
      exact ⟨rest, nonempty, rfl⟩

theorem leadingPaths_cons (c : Char) (path : List Char) :
    leadingPaths (c :: path) =
      if c = '/' then [] :: (leadingPaths path).map (c :: ·)
      else (leadingPaths path).map (c :: ·) := by
  simp [leadingPaths]

theorem leadingPaths_append_cons {name : List Char} (slashless : '/' ∉ name) (rest : List Char) :
    leadingPaths (name ++ '/' :: rest) =
      name :: (leadingPaths rest).map (name ++ '/' :: ·) := by
  induction name with
  | nil => simp [leadingPaths_cons]
  | cons c name inductionHypothesis =>
    have different : c ≠ '/' := fun same => slashless (same ▸ List.mem_cons_self)
    have shorter := inductionHypothesis fun member => slashless (List.mem_cons_of_mem _ member)
    rw [List.cons_append, leadingPaths_cons, if_neg different, shorter]
    simp

theorem leadingPaths_of_not_mem {name : List Char} (slashless : '/' ∉ name) :
    leadingPaths name = [] := by
  induction name with
  | nil => rfl
  | cons c name inductionHypothesis =>
    have different : c ≠ '/' := fun same => slashless (same ▸ List.mem_cons_self)
    have shorter := inductionHypothesis fun member => slashless (List.mem_cons_of_mem _ member)
    rw [leadingPaths_cons, if_neg different, shorter, List.map_nil]

/-- The leading paths of a joined path are the joined proper beginnings. -/
theorem leadingPaths_joinWith {names : List (List Char)} (nonempty : names ≠ [])
    (slashless : ∀ name ∈ names, '/' ∉ name) :
    [] :: leadingPaths (joinWith ['/'] names) = (properPrefixes names).map (joinWith ['/']) := by
  induction names with
  | nil => exact absurd rfl nonempty
  | cons name others inductionHypothesis =>
    have nameSlashless := slashless name List.mem_cons_self
    by_cases last : others = []
    · subst last
      simp [properPrefixes, leadingPaths_of_not_mem nameSlashless]
    · have othersPaths := inductionHypothesis last
        fun other member => slashless other (List.mem_cons_of_mem _ member)
      obtain ⟨next, deeper, rfl⟩ := List.exists_cons_of_ne_nil last
      have deeperPaths : leadingPaths (joinWith ['/'] (next :: deeper)) =
          (properPrefixes deeper).map fun names => joinWith ['/'] (next :: names) := by
        simpa [properPrefixes, Function.comp_def] using othersPaths
      rw [joinWith_cons _ _ last]
      simp only [List.append_assoc, List.cons_append, List.nil_append]
      rw [leadingPaths_append_cons nameSlashless, deeperPaths]
      simp [properPrefixes, joinWith_cons]

namespace Trail

variable {trail : Trail}

/-- The ancestors are spelled by the proper beginnings, from the root down. -/
theorem ancestors_uri (trail : Trail) :
    ancestors trail.uri = (properPrefixes trail.names).map fun names =>
      ofPath (joinWith ['/'] names) := by
  by_cases empty : trail.names = []
  · have atRoot : isRoot trail.uri = true := by simp [empty]
    simp [ancestors, atRoot, empty, properPrefixes]
  · have notRoot : isRoot trail.uri = false := by simp [empty]
    have paths := leadingPaths_joinWith empty trail.slashless
    obtain ⟨first, others, shape⟩ := List.exists_cons_of_ne_nil empty
    have firstNonempty : first ≠ [] :=
      (trail.proper first (shape ▸ List.mem_cons_self)).nonempty
    have leading : leadingPaths (joinWith ['/'] trail.names) =
        (properPrefixes others).map fun names => joinWith ['/'] (first :: names) := by
      simpa [shape, properPrefixes, Function.comp_def] using paths
    have allKept : (leadingPaths (joinWith ['/'] trail.names)).filter (!·.isEmpty) =
        leadingPaths (joinWith ['/'] trail.names) := by
      refine List.filter_eq_self.2 fun leadingPath member => ?_
      rw [leading] at member
      obtain ⟨names, _, rfl⟩ := List.mem_map.1 member
      simp [joinWith, firstNonempty]
    rw [ancestors, notRoot, uri, path_ofPath, allKept, leading, shape]
    simp [properPrefixes, Function.comp_def, ← uri_root, uri, root]

/-- A proper beginning of a trail is a trail. -/
theorem exists_of_mem_properPrefixes {names : List (List Char)}
    (member : names ∈ properPrefixes trail.names) :
    ∃ upper : Trail, upper.names = names ∧ trail.Below upper := by
  obtain ⟨rest, nonempty, split⟩ := mem_properPrefixes.1 member
  have proper : ∀ name ∈ names, IsName name := fun name inNames =>
    trail.proper name (split ▸ List.mem_append_left _ inNames)
  exact ⟨⟨names, proper⟩, rfl, rest, nonempty, split⟩

/-- The ancestors of an entry are what it lies below. -/
theorem mem_ancestors_iff {ancestor : String} :
    ancestor ∈ ancestors trail.uri ↔ ∃ upper : Trail, trail.Below upper ∧ upper.uri = ancestor := by
  rw [ancestors_uri]
  constructor
  · intro member
    obtain ⟨names, proper, rfl⟩ := List.mem_map.1 member
    obtain ⟨upper, rfl, below⟩ := exists_of_mem_properPrefixes proper
    exact ⟨upper, below, rfl⟩
  · rintro ⟨upper, below, rfl⟩
    exact List.mem_map.2 ⟨upper.names, mem_properPrefixes.2 below, rfl⟩

theorem uri_mem_ancestors_iff {upper : Trail} :
    upper.uri ∈ ancestors trail.uri ↔ trail.Below upper := by
  rw [mem_ancestors_iff]
  constructor
  · rintro ⟨other, below, same⟩
    exact uri_injective same ▸ below
  · exact fun below => ⟨upper, below, rfl⟩

/-- Each ancestor lies below those listed before it. -/
theorem pairwise_ancestors (trail : Trail) :
    (ancestors trail.uri).Pairwise fun upper lower => isBelow lower upper = true := by
  rw [ancestors_uri]
  refine List.pairwise_map.2 ((pairwise_properPrefixes trail.names).imp_of_mem ?_)
  intro shorter longer shorterMember longerMember extension
  obtain ⟨upper, rfl, _⟩ := exists_of_mem_properPrefixes shorterMember
  obtain ⟨lower, rfl, _⟩ := exists_of_mem_properPrefixes longerMember
  exact isBelow_uri.2 extension

end Trail

/-- An address goes on behind another one with a slash. -/
def Extends (uri ancestor : String) : Prop :=
  ∃ rest, uri = ancestor ++ "/" ++ rest

/-- Below an entry other than the root lie the addresses that go on behind its own with a
slash; a slash and not just any character has to come next. -/
theorem isBelow_iff_extends {uri ancestor : String} (notRoot : isRoot ancestor = false) :
    isBelow uri ancestor = true ↔ Extends uri ancestor := by
  rw [Trail.isBelow_eq_true_iff notRoot]
  constructor
  · rintro ⟨rest, shape⟩
    exact ⟨String.ofList rest, String.toList_injective (by simp [shape])⟩
  · rintro ⟨rest, rfl⟩
    exact ⟨rest.toList, by simp⟩

end ContextDb.Uri
