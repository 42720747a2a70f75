import ContextDb.Proofs.Placing

/-!
# Addresses as lists of segments

Every address that is accepted stands for the list of its segments, and its normal form is the
one spelling of that list. On normal forms the functions on addresses are functions on lists of
segments: the parent leaves out the last one, the ancestors are the shorter beginnings, and to lie
below is to go on behind.
-/

namespace ContextDb.Uri

open Text Store

variable {spelling normal other : String} {text rest : List Char} {trail : Trail}

/-- The segments of a path: its pieces between slashes without the empty ones. -/
def segmentsOf (path : List Char) : List (List Char) :=
  (pieces '/' path).filter (!·.isEmpty)

/-- The segments of an address. -/
def segments (uri : String) : List (List Char) :=
  segmentsOf (path uri)

/-- The address that has some segments, with a slash between each two of them. -/
def spelled (names : List (List Char)) : String :=
  ofPath (joinWith ['/'] names)

/-- A text that is an address: it begins with the scheme, and nothing between slashes of the rest
refers to a directory relative to another one. -/
structure Accepted (spelling : String) : Prop where
  begins : ∃ rest, spelling = scheme ++ rest
  absolute : ∀ piece ∈ pieces '/' (path spelling), piece ≠ ['.'] ∧ piece ≠ ['.', '.']

/-! ## Segments of texts -/

theorem path_scheme_append (rest : String) : path (scheme ++ rest) = rest.toList := by
  have same : scheme ++ rest = ofPath rest.toList := by simp [ofPath]
  rw [same, path_ofPath]

theorem mem_segmentsOf_iff {segment : List Char} :
    segment ∈ segmentsOf text ↔ segment ∈ pieces '/' text ∧ segment ≠ [] := by
  rw [segmentsOf, List.mem_filter]
  simp

/-- Texts with a slash between them have the segments of both. -/
theorem segmentsOf_append_slash (text rest : List Char) :
    segmentsOf (text ++ '/' :: rest) = segmentsOf text ++ segmentsOf rest := by
  rw [segmentsOf, pieces_append_separator, List.filter_append, segmentsOf, segmentsOf]

/-- The segments of an address that is spelled are those that it is spelled with. -/
theorem Trail.segments_uri (trail : Trail) : segments trail.uri = trail.names := by
  rw [segments, uri, path_ofPath]
  exact trail.pieces_names

theorem isRelativeName_eq_false_iff {name : List Char} :
    isRelativeName name = false ↔ name ≠ ['.'] ∧ name ≠ ['.', '.'] := by
  simp [isRelativeName]

/-- The segments of what is accepted are the names of a trail. -/
theorem Accepted.exists_trail (accepted : Accepted spelling) :
    ∃ trail : Trail, trail.names = segments spelling := by
  refine ⟨⟨segments spelling, fun segment isSegment => ?_⟩, rfl⟩
  obtain ⟨isPiece, nonempty⟩ := mem_segmentsOf_iff.1 isSegment
  exact ⟨nonempty, not_mem_of_mem_pieces isPiece,
    isRelativeName_eq_false_iff.2 (accepted.absolute segment isPiece)⟩

/-- A text that begins with the scheme is accepted if its segments are names. -/
theorem accepted_of_names {names : List (List Char)} (proper : ∀ name ∈ names, IsName name)
    (spells : spelling.toList = scheme.toList ++ rest) (same : segmentsOf rest = names) :
    Accepted spelling := by
  have shape : spelling = scheme ++ String.ofList rest :=
    String.toList_injective (by simp [spells])
  refine ⟨⟨_, shape⟩, fun piece isPiece => ?_⟩
  rw [shape, path_scheme_append, String.toList_ofList] at isPiece
  by_cases empty : piece = []
  · simp [empty]
  · have isName := proper piece (same ▸ mem_segmentsOf_iff.2 ⟨isPiece, empty⟩)
    exact isRelativeName_eq_false_iff.1 isName.notRelative

/-! ## Normal forms -/

/-- What normalises is accepted, and its normal form is spelled with its segments. -/
theorem normalize_eq_ok_iff :
    normalize spelling = .ok normal ↔ Accepted spelling ∧ normal = spelled (segments spelling) := by
  constructor
  · intro normalized
    obtain ⟨trail, rest, rfl, spells, names⟩ := exists_names_of_normalize normalized
    have accepted := accepted_of_names trail.proper spells names.symm
    have shape : spelling = scheme ++ String.ofList rest :=
      String.toList_injective (by simp [spells])
    refine ⟨accepted, ?_⟩
    rw [segments, shape, path_scheme_append, String.toList_ofList, segmentsOf, ← names]
    rfl
  · rintro ⟨accepted, rfl⟩
    obtain ⟨rest, shape⟩ := accepted.begins
    have cut : dropPrefix? scheme.toList spelling.toList = some rest.toList :=
      dropPrefix?_eq_some_iff.2 (by simp [shape])
    have isPath : path spelling = rest.toList := by rw [shape, path_scheme_append]
    have absolute : (segmentsOf rest.toList).any isRelativeName = false := by
      refine List.any_eq_false.2 fun segment isSegment => ?_
      have isPiece := (mem_segmentsOf_iff.1 isSegment).1
      rw [isRelativeName_eq_false_iff.2 (accepted.absolute segment (isPath ▸ isPiece))]
      exact Bool.false_ne_true
    unfold segmentsOf at absolute
    simp only [normalize, cut, absolute, segments, segmentsOf, isPath, spelled]
    rfl

/-- What is accepted has a normal form. -/
theorem Accepted.normalize (accepted : Accepted spelling) :
    normalize spelling = .ok (spelled (segments spelling)) :=
  normalize_eq_ok_iff.2 ⟨accepted, rfl⟩

/-- The segments of the normal form are those of the text. -/
theorem Accepted.segments_spelled (accepted : Accepted spelling) :
    segments (spelled (segments spelling)) = segments spelling := by
  obtain ⟨trail, names⟩ := accepted.exists_trail
  rw [← names]
  exact trail.segments_uri

/-- A normal form is the normal form of itself, with the same segments. -/
theorem normalize_normal (normalized : normalize spelling = .ok normal) :
    normalize normal = .ok normal ∧ segments normal = segments spelling := by
  obtain ⟨accepted, rfl⟩ := normalize_eq_ok_iff.1 normalized
  obtain ⟨trail, names⟩ := accepted.exists_trail
  refine ⟨?_, accepted.segments_spelled⟩
  rw [← names]
  exact normalize_uri trail

/-- Accepted texts have the same normal form exactly if they have the same segments. -/
theorem normalize_eq_normalize_iff (accepted : Accepted spelling) (otherAccepted : Accepted other) :
    normalize spelling = normalize other ↔ segments spelling = segments other := by
  rw [accepted.normalize, otherAccepted.normalize]
  constructor
  · intro same
    rw [← accepted.segments_spelled, ← otherAccepted.segments_spelled, Except.ok.inj same]
  · intro same
    rw [same]

/-! ## Normal addresses -/

/-- The proper beginnings of a list are those with fewer elements. -/
theorem properPrefixes_eq {α : Type} (whole : List α) :
    properPrefixes whole = (List.range whole.length).map (whole.take ·) := by
  induction whole with
  | nil => rfl
  | cons first rest inductionHypothesis =>
    rw [properPrefixes, inductionHypothesis, List.length_cons, List.range_succ_eq_map,
      List.map_cons, List.map_map, List.map_map]
    rfl

/-- A trail lies below another one if the names of that are a beginning of its own and not all of
them. -/
theorem Trail.below_iff {lower upper : Trail} :
    lower.Below upper ↔ upper.names <+: lower.names ∧ upper.names ≠ lower.names := by
  constructor
  · rintro ⟨rest, nonempty, names⟩
    refine ⟨⟨rest, names.symm⟩, fun same => nonempty ?_⟩
    exact List.append_right_eq_self.1 (names.symm.trans same.symm)
  · rintro ⟨⟨rest, names⟩, different⟩
    refine ⟨rest, ?_, names.symm⟩
    rintro rfl
    exact different ((List.append_nil _).symm.trans names)

/-- What the functions on addresses say of normal addresses, by their segments. -/
structure Corresponds (lower upper : String) : Prop where
  /-- Only the root has no parent. -/
  parent_eq_none_iff : parent? lower = none ↔ lower = scheme
  /-- The parent is without the last segment. -/
  parent_eq : lower ≠ scheme → parent? lower = some (spelled (segments lower).dropLast)
  /-- The ancestors are the proper beginnings, from the root down. -/
  ancestors_eq : ancestors lower =
    (List.range (segments lower).length).map fun count => spelled ((segments lower).take count)
  /-- What an address lies below is a proper beginning. -/
  isBelow_iff : isBelow lower upper = true ↔
    segments upper <+: segments lower ∧ segments upper ≠ segments lower
  /-- What an address lies below is an ancestor. -/
  isBelow_iff_mem : isBelow lower upper = true ↔ upper ∈ ancestors lower
  /-- The path seen from there leads back, behind a slash. -/
  rejoins : isBelow lower upper = true →
    normalize (upper ++ "/" ++ relative lower upper) = .ok lower
  /-- Behind the root it leads back without a slash as well. -/
  rejoins_placed : isBelow lower upper = true →
    normalize (placed upper (relative lower upper)) = .ok lower

/-- The path of an entry leads to it from what it lies below, behind a slash. -/
theorem Trail.normalize_rejoined {lower upper : Trail} (below : lower.Below upper) :
    normalize (upper.uri ++ "/" ++ relative lower.uri upper.uri) = .ok lower.uri := by
  obtain ⟨rest, nonempty, names⟩ := below
  have proper : ∀ name ∈ rest, IsName name := fun name isName =>
    lower.proper name (names ▸ List.mem_append_right _ isName)
  have spells : (upper.uri ++ "/" ++ relative lower.uri upper.uri).toList =
      scheme.toList ++ (joinWith ['/'] upper.names ++ '/' :: joinWith ['/'] rest) := by
    rw [Trail.relative_of_eq_append nonempty names]
    simp [Trail.toList_uri]
  have same : segmentsOf (joinWith ['/'] upper.names ++ '/' :: joinWith ['/'] rest) =
      lower.names := by
    rw [segmentsOf_append_slash, names]
    exact congrArg₂ _ upper.pieces_names (Trail.pieces_names ⟨rest, proper⟩)
  have accepted := accepted_of_names lower.proper spells same
  have shape : upper.uri ++ "/" ++ relative lower.uri upper.uri = scheme ++ String.ofList
      (joinWith ['/'] upper.names ++ '/' :: joinWith ['/'] rest) :=
    String.toList_injective (by rw [spells]; simp)
  rw [accepted.normalize, segments, shape, path_scheme_append, String.toList_ofList, same]
  rfl

/-- The functions on the addresses of trails are functions on their names. -/
theorem Trail.corresponds (lower upper : Trail) : Corresponds lower.uri upper.uri where
  parent_eq_none_iff := by
    rw [Trail.uri_eq_scheme_iff]
    by_cases empty : lower.names = []
    · rw [Trail.eq_root_iff.2 empty]
      exact ⟨fun _ => rfl, fun _ => Trail.parent?_uri_root⟩
    · simp [Trail.parent?_uri empty, empty]
  parent_eq notRoot := by
    rw [Trail.segments_uri]
    exact Trail.parent?_uri fun empty => notRoot (Trail.uri_eq_scheme_iff.2 empty)
  ancestors_eq := by
    rw [Trail.ancestors_uri, properPrefixes_eq, Trail.segments_uri, List.map_map]
    rfl
  isBelow_iff := by
    rw [Trail.isBelow_uri, Trail.below_iff, Trail.segments_uri, Trail.segments_uri]
  isBelow_iff_mem := by
    rw [Trail.isBelow_uri, Trail.uri_mem_ancestors_iff]
  rejoins below := Trail.normalize_rejoined (Trail.isBelow_uri.1 below)
  rejoins_placed below := by
    rw [placed_relative_self (Trail.isBelow_uri.1 below)]
    exact normalize_uri lower

/-- Addresses encode lists of segments. A text normalises exactly if it is accepted, to the one
spelling of its segments; a normal form stays as it is; and accepted texts have the same normal
form exactly if they have the same segments. On normal forms the functions on addresses do what
their names say on lists of segments. -/
theorem addresses_encode_segments :
    (∀ spelling normal, normalize spelling = .ok normal ↔
      Accepted spelling ∧ normal = spelled (segments spelling)) ∧
    (∀ spelling normal, normalize spelling = .ok normal →
      normalize normal = .ok normal ∧ segments normal = segments spelling) ∧
    (∀ first second, Accepted first → Accepted second →
      (normalize first = normalize second ↔ segments first = segments second)) ∧
    ∀ lower upper, normalize lower = .ok lower → normalize upper = .ok upper →
      Corresponds lower upper := by
  refine ⟨fun _ _ => normalize_eq_ok_iff, fun _ _ => normalize_normal,
    fun _ _ => normalize_eq_normalize_iff, ?_⟩
  intro lower upper lowerNormal upperNormal
  obtain ⟨lowerTrail, rfl⟩ := exists_trail_of_normalize lowerNormal
  obtain ⟨upperTrail, rfl⟩ := exists_trail_of_normalize upperNormal
  exact lowerTrail.corresponds upperTrail

/-- A name beyond ASCII below one that is spelled like the beginning of the scheme. -/
theorem accented_address_encodes_segments :
    normalize "viking://viking:/é" = normalize "viking://viking:///é/" ∧
      segments "viking://viking:/é" = [['v', 'i', 'k', 'i', 'n', 'g', ':'], ['é']] ∧
      isBelow "viking://viking:/é" "viking://viking:" = true ∧
      Corresponds "viking://viking:/é" "viking://viking:" := by
  obtain ⟨encodes, idempotent, sameNormal, corresponds⟩ := addresses_encode_segments
  have sloppy : normalize "viking://viking:///é/" = .ok "viking://viking:/é" := by decide +kernel
  have lowerNormal := (idempotent _ _ sloppy).1
  have upperNormal : normalize "viking://viking:" = .ok "viking://viking:" := by decide +kernel
  have accepted := ((encodes _ _).1 lowerNormal).1
  have sloppyAccepted := ((encodes _ _).1 sloppy).1
  exact ⟨(sameNormal _ _ accepted sloppyAccepted).2 (idempotent _ _ sloppy).2,
    by decide +kernel, by decide +kernel, corresponds _ _ lowerNormal upperNormal⟩

end ContextDb.Uri
