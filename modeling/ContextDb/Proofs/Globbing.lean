import ContextDb.Proofs.ByteOrder
import ContextDb.Proofs.Placing
import ContextDb.Proofs.Reachable
import ContextDb.Proofs.Restoring
import ContextDb.Proofs.Spelling

/-!
# Finding files by patterns

A pattern selects some of the files below a directory, by their paths from there. Its
wildcards stay within one name, unless they are whole names of two stars.
-/

namespace ContextDb

open Text Uri

namespace Glob

variable {text path : String} {pattern : Pattern}

/-- A text with a recursive wildcard in front can be read where the text can be. -/
theorem compile_anyDepth_iff (text : String) :
    (∃ deeper, compile ("**/" ++ text) = .ok deeper) ↔ ∃ pattern, compile text = .ok pattern := by
  have inFront : ("**/" ++ text).toList = '*' :: '*' :: '/' :: text.toList := by simp
  simp only [compile_eq_ok_iff, inFront, spells_anyDepth_iff]
  constructor
  · rintro ⟨_, _, ⟨tokens, _, spells⟩, _⟩
    exact ⟨_, tokens, spells, rfl⟩
  · rintro ⟨_, tokens, spells, _⟩
    exact ⟨_, _, ⟨tokens, rfl, spells⟩, rfl⟩

/-- With a recursive wildcard in front, a pattern is matched by the whole path or by a part
of it that begins after a slash. -/
theorem accepts_anyDepth_iff {deeper : Pattern} (nonempty : text ≠ "")
    (compiled : compile text = .ok pattern)
    (compiledDeeper : compile ("**/" ++ text) = .ok deeper) :
    deeper.accepts path = true ↔ pattern.accepts path = true ∨
      ∃ front rest, path = front ++ "/" ++ rest ∧ pattern.accepts rest = true := by
  obtain ⟨tokens, spells, -⟩ := compile_eq_ok_iff.1 compiled
  have inFront : Spells true ("**/" ++ text).toList (.anyDepth :: tokens) := by
    simpa using Spells.anyDepth spells
  have someTokens : tokens ≠ [] := spells.ne_nil (by simpa using nonempty)
  simp only [accepts_iff_of_spells compiledDeeper inFront, accepts_iff_of_spells compiled spells,
    matches_anyDepth_cons_iff_of_ne_nil someTokens]
  refine or_congr_right ⟨?_, ?_⟩
  · rintro ⟨rest, ⟨front, shape⟩, isMatch⟩
    refine ⟨String.ofList front, String.ofList rest, ?_, by simpa using isMatch⟩
    apply String.toList_injective
    simpa using shape.symm
  · rintro ⟨front, rest, rfl, isMatch⟩
    exact ⟨rest.toList, ⟨front.toList, by simp⟩, isMatch⟩

/-- A wildcard for a name at any depth accepts every path. -/
theorem exists_accepts_everything :
    ∃ pattern, compile "**/*" = .ok pattern ∧ ∀ path, pattern.accepts path = true := by
  have spells : Spells true "**/*".toList [.anyDepth, .anyName] :=
    .anyDepth (.anyName nofun .nil)
  have compiled := compile_eq_ok_iff.2 ⟨_, spells, rfl⟩
  refine ⟨_, compiled, fun path => ?_⟩
  exact (accepts_iff_of_spells compiled spells).2 (matches_anyDepth_anyName _)

end Glob

namespace Store

open Glob

variable {store : Store} {target : Option String} {base text : String} {pattern : Pattern}

/-- A file is seen from a directory by the names on the way to it. -/
structure SeenFrom (base : String) (file : Entry) : Prop where
  named : ∃ names, names ≠ [] ∧ (∀ name ∈ names, name ≠ [] ∧ '/' ∉ name) ∧
    relative file.uri base = String.ofList (joinWith ['/'] names)
  placed : placed base (relative file.uri base) = file.uri

/-- Patterns select some of the files below a directory. -/
structure Selects (store : Store) (target : Option String) (base : String)
    (files : List Entry) : Prop where
  /-- The files come in the order of the bytes of their addresses. -/
  ordered : files.Pairwise fun first second => bytesOf first.uri < bytesOf second.uri
  seen : ∀ file ∈ files, SeenFrom base file
  /-- A pattern selects the files whose paths it accepts. -/
  selected : ∀ text pattern, compile text = .ok pattern → store.glob text target =
    .ok ((files.filter fun file => pattern.accepts (relative file.uri base)).map (·.uri))
  /-- A pattern accepts the paths that can be cut into what its elements stand for. -/
  accepted : ∀ text pattern, compile text = .ok pattern → ∀ path,
    pattern.accepts path = true ↔ ∃ tokens, Spells true text.toList tokens ∧
      Matches tokens path.toList
  /-- A path has the slashes that the pattern has outside of sets, if no name of the pattern
  is a recursive wildcard. -/
  slashes : ∀ text pattern, compile text = .ok pattern →
    ∃ outline, (∀ other, Outline text.toList other ↔ other = outline) ∧
      (['*', '*'] ∈ pieces '/' outline → ['*', '*'] ∈ pieces '/' text.toList) ∧
      (['*', '*'] ∉ pieces '/' outline → ∀ file ∈ files,
        pattern.accepts (relative file.uri base) = true →
          (relative file.uri base).toList.count '/' = outline.count '/')
  readable_iff : ∀ text, (∃ deeper, compile ("**/" ++ text) = .ok deeper) ↔
    ∃ pattern, compile text = .ok pattern
  /-- With a recursive wildcard in front, a pattern selects the files for which it accepts the
  path or a part of it that begins after a slash. -/
  anywhere : ∀ text pattern, text ≠ "" → compile text = .ok pattern →
    ∃ found, store.glob ("**/" ++ text) target = .ok found ∧ ∀ uri, uri ∈ found ↔
      ∃ file ∈ files, file.uri = uri ∧ (pattern.accepts (relative file.uri base) = true ∨
        ∃ front rest, relative file.uri base = front ++ "/" ++ rest ∧
          pattern.accepts rest = true)
  everything : store.glob "**/*" target = .ok (files.map (·.uri))

theorem glob_eq_ok (normalized : normalize (target.getD scheme) = .ok base)
    (compiled : compile text = .ok pattern) :
    store.glob text target = .ok (((store.filesBelow base).filter fun file =>
      pattern.accepts (relative file.uri base)).map (·.uri)) := by
  rw [glob, normalized, compiled]
  exact congrArg Except.ok List.filter_map

/-- Every file below a directory is seen from there. -/
theorem seenFrom_of_mem_filesBelow (tree : Tree store.entries) {upper : Trail} {file : Entry}
    (listed : file ∈ store.filesBelow upper.uri) : SeenFrom upper.uri file := by
  obtain ⟨stored, -, isBelow⟩ := (mem_filesBelow_iff tree).1 listed
  obtain ⟨lower, spelled⟩ := tree.exists_trail stored
  rw [spelled] at isBelow
  have below := Trail.isBelow_uri.1 isBelow
  constructor
  · obtain ⟨rest, nonempty, names⟩ := id below
    refine ⟨rest, nonempty, fun name member => ?_, ?_⟩
    · have isName : IsName name := lower.proper name (names ▸ List.mem_append_right _ member)
      exact ⟨isName.nonempty, isName.slashless⟩
    · rw [spelled]
      exact Trail.relative_of_eq_append nonempty names
  · rw [spelled]
    exact placed_relative_self below

/-- What a recursive wildcard in front of a pattern selects. -/
theorem exists_glob_anyDepth (normalized : normalize (target.getD scheme) = .ok base)
    (nonempty : text ≠ "") (compiled : compile text = .ok pattern) :
    ∃ found, store.glob ("**/" ++ text) target = .ok found ∧ ∀ uri, uri ∈ found ↔
      ∃ file ∈ store.filesBelow base, file.uri = uri ∧
        (pattern.accepts (relative file.uri base) = true ∨
          ∃ front rest, relative file.uri base = front ++ "/" ++ rest ∧
            pattern.accepts rest = true) := by
  obtain ⟨deeper, compiledDeeper⟩ := (compile_anyDepth_iff text).2 ⟨pattern, compiled⟩
  refine ⟨_, glob_eq_ok normalized compiledDeeper, fun uri => ?_⟩
  simp only [List.mem_map, List.mem_filter, and_assoc,
    accepts_anyDepth_iff nonempty compiled compiledDeeper]
  exact exists_congr fun file => and_congr_right fun _ => and_comm

/-- A wildcard for a name at any depth selects all files. -/
theorem glob_everything (normalized : normalize (target.getD scheme) = .ok base) :
    store.glob "**/*" target = .ok ((store.filesBelow base).map (·.uri)) := by
  obtain ⟨pattern, compiled, acceptsAll⟩ := exists_accepts_everything
  rw [glob_eq_ok normalized compiled, List.filter_eq_self.2 fun file _ => acceptsAll _]

/-- A pattern selects, of the files below a directory, those whose paths from there it
matches. -/
theorem glob_selects_matching (reachable : Reachable store)
    (normalized : normalize (target.getD scheme) = .ok base) :
    ∃ files, store.listResources target = .ok files ∧ Selects store target base files := by
  have tree := reachable.sound.tree
  refine ⟨store.filesBelow base, by rw [listResources, normalized]; rfl, ?_⟩
  exact {
    ordered := (pairwise_filesBelow tree base).imp bytesOf_lt_iff.2
    seen := by
      obtain ⟨upper, rfl⟩ := exists_trail_of_normalize normalized
      exact fun file listed => seenFrom_of_mem_filesBelow tree listed
    selected := fun text pattern compiled => glob_eq_ok normalized compiled
    accepted := fun text pattern compiled path => accepts_iff compiled
    slashes := by
      intro text pattern compiled
      obtain ⟨outline, outlined⟩ := exists_outline_of_compile compiled
      have isOutline := (outlined outline).2 rfl
      exact ⟨outline, outlined, fun isName => isOutline.keepsNames.mem isName (by decide),
        fun flat _ _ accepted => count_slash_of_accepts compiled isOutline flat accepted⟩
    readable_iff := compile_anyDepth_iff
    anywhere := fun text pattern nonempty compiled =>
      exists_glob_anyDepth normalized nonempty compiled
    everything := glob_everything normalized }

/-- Files in and below a directory, one of them with a name that begins with a dot. -/
def garden : Store :=
  (empty 0).run [(⟨1, ⟨0⟩⟩, .addResource "viking://d/b.md" "b"),
    (⟨2, ⟨0⟩⟩, .addResource "viking://d/a/.b.md" "c"),
    (⟨3, ⟨0⟩⟩, .addResource "viking://d/a/b/c" "d"),
    (⟨4, ⟨0⟩⟩, .addResource "viking://d!" "e")]

theorem garden_is_searched :
    Reachable garden ∧ normalize ((some "viking://d/").getD scheme) = .ok "viking://d" ∧
      garden.glob "[!x]*.md" (some "viking://d/") = .ok ["viking://d/b.md"] ∧
      garden.glob "**/?*.md" (some "viking://d/") =
        .ok ["viking://d/a/.b.md", "viking://d/b.md"] ∧
      ∃ files, garden.listResources (some "viking://d/") = .ok files ∧
        Selects garden (some "viking://d/") "viking://d" files :=
  have reachable : Reachable garden := (Reachable.empty 0).run _
  have normalized : normalize ((some "viking://d/").getD scheme) = .ok "viking://d" := rfl
  ⟨reachable, normalized, by decide +kernel, by decide +kernel,
    glob_selects_matching reachable normalized⟩

end Store

end ContextDb
