import ContextDb.Proofs.Escaping
import ContextDb.Proofs.Pieces

/-!
# Paths as lists of names

A path is spelled with a slash before each of its names. Pushing a text adds a name,
unless dots are kept of the text: then a name is empty, is taken away or is not added
at all.
-/

namespace ContextDb.Url

open Text

variable {names : List (List Char)} {last text : List Char}

/-- The path with some names, with a slash before each. -/
def spell (names : List (List Char)) : List Char :=
  names.flatMap ('/' :: ·)

@[simp] theorem spell_nil : spell [] = [] := rfl

@[simp] theorem spell_cons (name : List Char) (names : List (List Char)) :
    spell (name :: names) = '/' :: (name ++ spell names) := rfl

@[simp] theorem spell_append (first second : List (List Char)) :
    spell (first ++ second) = spell first ++ spell second :=
  List.flatMap_append

/-- The names of a path are what stands between its slashes. -/
theorem pieces_append_spell {name : List Char}
    (absent : ∀ each ∈ name :: names, '/' ∉ each) :
    pieces '/' (name ++ spell names) = name :: names := by
  induction names generalizing name with
  | nil =>
    rw [spell_nil, List.append_nil]
    exact pieces_of_not_mem (absent name List.mem_cons_self)
  | cons next others inductionHypothesis =>
    rw [spell_cons, pieces_append_cons (absent name List.mem_cons_self),
      inductionHypothesis fun each member => absent each (List.mem_cons_of_mem _ member)]

/-- Nothing stands before the first slash of a path. -/
theorem pieces_spell (absent : ∀ name ∈ names, '/' ∉ name) :
    pieces '/' (spell names) = [] :: names := by
  have absentAll : ∀ each ∈ [] :: names, '/' ∉ each := by
    intro each member
    rcases List.mem_cons.1 member with rfl | inNames
    · exact List.not_mem_nil
    · exact absent each inNames
  exact pieces_append_spell absentAll

/-! ## Names taken away -/

/-- The last slash of a path stands before its last name. -/
theorem upToLastSlash_spell (absent : '/' ∉ last) :
    upToLastSlash (spell (names ++ [last])) = spell names ++ ['/'] := by
  simp [upToLastSlash, List.dropWhile_append_of_pos (bne_of_mem_reverse absent)]

@[simp] theorem endsWithSlash_append_slash (path : List Char) :
    endsWithSlash (path ++ ['/']) = true := by
  simp [endsWithSlash]

/-- Behind a slash, the last name of a path is taken away with that slash. -/
theorem dropSegment_spell (absent : '/' ∉ last) (notDrive : isDriveLetter last = false) :
    dropSegment (spell (names ++ [last]) ++ ['/']) = spell names ++ ['/'] := by
  have lastName : afterLast '/' (spell (names ++ [last])) = last := by
    simpa using afterLast_append_cons absent (spell names)
  have shorter : dropSlash (spell (names ++ [last]) ++ ['/']) = spell (names ++ [last]) := by
    rw [dropSlash, List.dropLast_concat, lastName, notDrive, endsWithSlash_append_slash]
    simp
  rw [dropSegment, shorter, upToLastSlash_spell absent]

/-! ## Names added -/

/-- The names of a path after a text has been pushed. -/
def pushed (names : List (List Char)) (text : List Char) : List (List Char) :=
  if text = ['.'] ∨ text = ['.', '.'] then names
  else if kept text = ['.', '.'] then names.dropLast ++ [[]]
  else if kept text = ['.'] then names ++ [[]]
  else names ++ [segmentOf text]

/-- No name of a path has a slash after a push. -/
theorem slash_not_mem_of_mem_pushed (absent : ∀ name ∈ names, '/' ∉ name) (text : List Char) :
    ∀ name ∈ pushed names text, '/' ∉ name := by
  have added : ∀ {start : List (List Char)} {segment : List Char},
      (∀ name ∈ start, '/' ∉ name) → '/' ∉ segment → ∀ name ∈ start ++ [segment], '/' ∉ name := by
    intro start segment absentStart absentSegment name member
    rcases List.mem_append.1 member with inStart | last
    · exact absentStart name inStart
    · exact List.mem_singleton.1 last ▸ absentSegment
  unfold pushed
  split
  · exact absent
  · split
    · exact added (fun name member => absent name (List.dropLast_subset _ member))
        List.not_mem_nil
    · split
      · exact added absent List.not_mem_nil
      · exact added absent (slash_not_mem_segmentOf text)

/-- What adding a segment does is decided by what is kept of its text. -/
theorem addSegment_segmentOf (path text : List Char) :
    addSegment path (segmentOf text) false =
      if kept text = ['.', '.'] then dropSegment path
      else if kept text = ['.'] then (if endsWithSlash path then path else path ++ ['/'])
      else path ++ segmentOf text := by
  simp only [addSegment, isTwoDots_segmentOf, isOneDot_segmentOf]
  simp

/-- Pushing a text to a path with names gives the path with the names that it has
then. -/
theorem pushSegment_spell (absent : '/' ∉ last) (nonempty : last ≠ [])
    (notDrive : isDriveLetter last = false) (text : List Char) :
    pushSegment (spell (names ++ [last])) text = spell (pushed (names ++ [last]) text) := by
  have long : 1 < (spell (names ++ [last])).length := by
    have positive := List.length_pos_iff.2 nonempty
    simp only [spell_append, spell_cons, List.length_append, List.length_cons]
    omega
  simp only [pushSegment, pushed, Bool.or_eq_true, decide_eq_true_eq, if_pos long]
  rw [← segmentOf, addSegment_segmentOf, dropSegment_spell absent notDrive]
  -- Both sides ask the same of the text.
  split
  · rfl
  · split
    · simp
    · split
      · rw [if_pos (endsWithSlash_append_slash _)]
        simp
      · simp

/-- A text that stands in a path as it is. -/
structure Plain (text : List Char) : Prop where
  /-- Nothing of it is escaped or dropped. -/
  same : segmentOf text = text
  /-- It is not the same directory. -/
  notDot : kept text ≠ ['.']
  /-- It is not the directory above. -/
  notDots : kept text ≠ ['.', '.']

instance (text : List Char) : Decidable (Plain text) :=
  decidable_of_iff
    (segmentOf text = text ∧ kept text ≠ ['.'] ∧ kept text ≠ ['.', '.'])
    ⟨fun ⟨same, notDot, notDots⟩ => ⟨same, notDot, notDots⟩,
      fun ⟨same, notDot, notDots⟩ => ⟨same, notDot, notDots⟩⟩

theorem Plain.not_dots (plain : Plain text) : ¬ (text = ['.'] ∨ text = ['.', '.']) := by
  rintro (rfl | rfl)
  · exact plain.notDot rfl
  · exact plain.notDots rfl

/-- Pushing a plain text puts it behind a slash. -/
theorem pushSegment_plain (plain : Plain text) (path : List Char) :
    pushSegment path text = (if 1 < path.length then path ++ ['/'] else path) ++ text := by
  have notDots : (decide (text = ['.']) || decide (text = ['.', '.'])) = false := by
    simpa using plain.not_dots
  rw [pushSegment, notDots, if_neg Bool.false_ne_true, ← segmentOf, addSegment_segmentOf,
    if_neg plain.notDots, if_neg plain.notDot, plain.same]

end ContextDb.Url
