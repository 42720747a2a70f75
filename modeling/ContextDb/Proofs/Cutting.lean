import ContextDb.Proofs.Cuts
import ContextDb.Proofs.Reachable
import ContextDb.Proofs.Restoring

/-!
# Operations by cutting

The operations on the store with the cuts and look-ups by position that they make. An operation
that makes one of these amiss has no outcome. On a store that operations lead to, every operation
has one whatever its arguments are, and it is that of `Store.step`.
-/

namespace ContextDb

namespace SortedMap

universe u v

variable {α : Type u} {β : Type u}

/-- Changed values stay with their keys. -/
theorem keys_of_mapM {change : α → Option β} {pairs : List (String × α)}
    {changed : List (String × β)}
    (done : pairs.mapM (fun pair => (change pair.2).map (pair.1, ·)) = some changed) :
    changed.map (·.1) = pairs.map (·.1) := by
  induction pairs generalizing changed with
  | nil =>
    obtain rfl := Option.some.inj done
    rfl
  | cons pair others inductionHypothesis =>
    rw [List.mapM_cons, Option.bind_eq_bind, Option.bind_eq_some_iff] at done
    obtain ⟨first, here, done⟩ := done
    obtain ⟨value, _, rfl⟩ := Option.map_eq_some_iff.1 here
    obtain ⟨rest, there, same⟩ := Option.bind_eq_some_iff.1 done
    obtain rfl := Option.some.inj same
    rw [List.map_cons, List.map_cons, inductionHypothesis there]

/-- The map with a function applied to every value, if that has a result everywhere. -/
def mapValues? (change : α → Option β) (map : SortedMap α) : Option (SortedMap β) :=
  match done : map.toList.mapM fun pair => (change pair.2).map (pair.1, ·) with
  | none => none
  | some changed => some ⟨changed, by
      have keys := map.sorted
      rw [← List.pairwise_map (f := Prod.fst)] at keys ⊢
      rwa [keys_of_mapM done]⟩

theorem mapValues?_eq_some {change : α → Option β} {result : α → β} {map : SortedMap α}
    (given : ∀ value ∈ map.values, change value = some (result value)) :
    map.mapValues? change = some (map.mapValues result) := by
  have changed : map.toList.mapM (fun pair => (change pair.2).map (pair.1, ·)) =
      some (map.toList.map fun pair => (pair.1, result pair.2)) :=
    mapM_eq_some fun pair member => by
      rw [given pair.2 (List.mem_map_of_mem member)]
      rfl
  rw [mapValues?]
  split
  · rename_i missing
    cases changed.symm.trans missing
  · rename_i pairs done
    obtain rfl := Option.some.inj (changed.symm.trans done)
    rfl

end SortedMap

namespace Store.Cutting

open Uri

variable {store : Store} {α β : Type}

/-! ## Files -/

/-- The files whose addresses satisfy a test that may have no result. -/
def filesWhere (store : Store) (test : String → Option Bool) : Option (List Entry) :=
  store.entries.values.filterM fun entry => if entry.isFile then test entry.uri else some false

/-- The files strictly below a directory, in the order of their addresses. -/
def filesBelow (store : Store) (base : String) : Option (List Entry) :=
  filesWhere store (Uri.Cutting.isBelow · base)

/-- The files at or below an address, in the order of their addresses. -/
def filesWithin (store : Store) (base : String) : Option (List Entry) :=
  filesWhere store (Uri.Cutting.isWithin · base)

theorem filesWhere_eq {test : String → Option Bool} {keep : String → Bool}
    (given : ∀ uri, test uri = some (keep uri)) (store : Store) :
    filesWhere store test =
      some (store.entries.values.filter fun entry => entry.isFile && keep entry.uri) := by
  refine filterM_eq_some fun entry _ => ?_
  cases entry.isFile <;> simp [given]

theorem filesBelow_eq (store : Store) (base : String) :
    filesBelow store base = some (store.filesBelow base) :=
  filesWhere_eq (fun uri => Uri.Cutting.isBelow_eq uri base) store

theorem filesWithin_eq (store : Store) (base : String) :
    filesWithin store base = some (store.filesWithin base) :=
  filesWhere_eq (fun uri => Uri.Cutting.isWithin_eq uri base) store

/-- What lies directly in a directory, of things that have addresses. -/
def directlyIn (dir : String) (address : α → String) (listed : List α) : Option (List α) :=
  listed.filterM fun item => do
    let parent ← Uri.Cutting.parent? (address item)
    return parent = some dir

theorem directlyIn_eq {address : α → String} {listed : List α}
    (spelled : ∀ item ∈ listed, ∃ trail : Trail, address item = trail.uri) (dir : String) :
    directlyIn dir address listed =
      some (listed.filter fun item => Uri.parent? (address item) = some dir) := by
  refine filterM_eq_some fun item member => ?_
  obtain ⟨trail, isTrail⟩ := spelled item member
  rw [isTrail, Trail.uri, Uri.Cutting.parent?_ofPath]
  rfl

/-- The entries that lie directly in a directory. -/
def children (store : Store) (dir : String) : Option (List Entry) :=
  directlyIn dir (·.uri) store.entries.values

theorem children_eq (tree : Tree store.entries) (dir : String) :
    children store dir = some (store.children dir) :=
  directlyIn_eq (fun _ member => tree.exists_trail ((mem_values_iff tree).1 member)) dir

/-! ## Reading -/

/-- Steps after a result that may be an error have the outcome of those after that result. -/
theorem run_bind_of_eq {first : Except Error α} {next : α → ExceptT Error Option β}
    {result : α → Except Error β}
    (same : ∀ value, first = .ok value → (next value).run = some (result value)) :
    (liftM first >>= next : ExceptT Error Option β).run = some (first >>= result) := by
  cases first with
  | error error => rfl
  | ok value => exact same value rfl

/-- Steps after a cut have their own outcome if the cut has a result. -/
theorem run_bind_of_some {cut : Option α} {value : α} {next : α → ExceptT Error Option β}
    (given : cut = some value) :
    (liftM cut >>= next : ExceptT Error Option β).run = (next value).run := by
  subst given
  rfl

/-- The files below a directory, by default the root. -/
def listResources (store : Store) (under : Option String) : ExceptT Error Option (List Entry) := do
  let base ← Uri.normalize (under.getD Uri.scheme)
  filesBelow store base

theorem listResources_eq (store : Store) (under : Option String) :
    (listResources store under).run = some (store.listResources under) := by
  refine run_bind_of_eq fun base _ => ?_
  rw [ExceptT.run_liftM, filesBelow_eq]
  rfl

/-- The entries directly in a directory, in the order of their addresses. -/
def ls (store : Store) (uri : String) : ExceptT Error Option (List Entry) := do
  let target ← Uri.normalize uri
  let dir ← store.entryAt target
  if dir.isDir then children store target
  else throw (.invalidArgument (target ++ " is not a directory"))

theorem ls_eq (tree : Tree store.entries) (uri : String) :
    (ls store uri).run = some (store.ls uri) := by
  refine run_bind_of_eq fun target _ => run_bind_of_eq fun dir _ => ?_
  rw [children_eq tree]
  split <;> rfl

/-- A one-line summary: the first line of a file, the number of entries of a directory. -/
def abstractOf (store : Store) (uri : String) : ExceptT Error Option String := do
  let target ← Uri.normalize uri
  let entry ← store.entryAt target
  if entry.isDir then
    let inside ← directlyIn target id store.entries.keys
    return "Directory " ++ target ++ " with " ++ Nat.repr inside.length ++ " entries"
  else return firstLine entry.content

theorem abstractOf_eq (tree : Tree store.entries) (uri : String) :
    (abstractOf store uri).run = some (store.abstractOf uri) := by
  refine run_bind_of_eq fun target _ => run_bind_of_eq fun entry _ => ?_
  have spelled : ∀ key ∈ store.entries.keys, ∃ trail : Trail, id key = trail.uri := by
    intro key isKey
    obtain ⟨entry, found⟩ := SortedMap.mem_keys_iff.1 isKey
    exact tree.exists_trail found
  rw [directlyIn_eq spelled]
  split <;> rfl

/-- The hit of a file, if a word of the query occurs in it, with the text around its first word. -/
def hitOf (terms : List (List Char)) (entry : Entry) : Option (Option Hit) :=
  let content := entry.content.toList
  let lowered := Text.lower content
  let score := scoreOf terms lowered
  if score = 0 then some none
  else do
    let first ← terms[0]?
    return some ⟨entry.uri, Decimal.Binary64.singleRounded score,
      snippetAround content lowered first⟩

/-- The best files for a query at or below an address, by default the root. -/
def find (store : Store) (query : String) (target : Option String) (limit : Nat) :
    ExceptT Error Option (List Hit) := do
  let base ← Uri.normalize (target.getD Uri.scheme)
  let terms := queryTerms query
  if terms.isEmpty then throw (.invalidArgument "query is empty")
  let files ← filesWithin store base
  let hits ← (files.filterMapM (hitOf terms) : Option (List Hit))
  return (hits.mergeSort Hit.precedes).take limit

/-- The first word is looked up only in queries that have one. -/
theorem hitOf_eq {terms : List (List Char)} (nonempty : terms ≠ []) (entry : Entry) :
    hitOf terms entry = some (Store.hitOf terms entry) := by
  obtain ⟨first, others, rfl⟩ := List.exists_cons_of_ne_nil nonempty
  simp only [hitOf, Store.hitOf]
  split <;> rfl

theorem find_eq (store : Store) (query : String) (target : Option String) (limit : Nat) :
    (find store query target limit).run = some (store.find query target limit) := by
  refine run_bind_of_eq fun base _ => ?_
  by_cases empty : queryTerms query = []
  · simp only [empty, List.isEmpty_nil, if_true]
    rfl
  · have hits := filterMapM_eq_some fun entry (_ : entry ∈ store.filesWithin base) =>
      hitOf_eq empty entry
    simp only [List.isEmpty_eq_false_iff.2 empty, Bool.false_eq_true, if_false]
    rw [run_bind_of_some (filesWithin_eq store base), run_bind_of_some hits]
    rfl

/-- The lines that contain a text, in files at or below an address. -/
def grep (store : Store) (target pattern : String) (caseInsensitive : Bool) :
    ExceptT Error Option (List LineMatch) := do
  let base ← Uri.normalize target
  if pattern.isEmpty then throw (.invalidArgument "pattern is empty")
  let wanted := pattern.toList
  let accepts :=
    if caseInsensitive then
      let lowered := Text.lower wanted
      fun line => Text.occursIn lowered (Text.lower line)
    else Text.occursIn wanted
  if !store.entries.contains base then throw (.notFound base)
  let files ← filesWithin store base
  return files.flatMap (matchingLines accepts)

theorem grep_eq (store : Store) (target pattern : String) (caseInsensitive : Bool) :
    (grep store target pattern caseInsensitive).run =
      some (store.grep target pattern caseInsensitive) := by
  refine run_bind_of_eq fun base _ => ?_
  simp only [filesWithin_eq]
  split
  · rfl
  · split <;> rfl

/-- The addresses whose path from a directory matches a pattern. -/
def accepted (pattern : Glob.Pattern) (base : String) (uris : List String) :
    Option (List String) :=
  uris.filterM fun uri => do
    let path ← Uri.Cutting.relative uri base
    return pattern.accepts path

/-- The addresses of files below a directory, by default the root, whose path from there matches a
pattern. -/
def glob (store : Store) (pattern : String) (target : Option String) :
    ExceptT Error Option (List String) := do
  let base ← Uri.normalize (target.getD Uri.scheme)
  match Glob.compile pattern with
  | .error fault => throw (badPattern pattern fault)
  | .ok compiled =>
    let files ← filesBelow store base
    accepted compiled base (files.map (·.uri))

/-- Files with their paths seen from a directory. -/
def packed (base : String) (entries : List Entry) : Option (List PackFile) :=
  entries.mapM fun entry => do
    let path ← Uri.Cutting.relative entry.uri base
    return ⟨path, entry.content⟩

/-- The files at or below an address as a pack. -/
def exportPack (store : Store) (uri : String) : ExceptT Error Option Pack := do
  let base ← Uri.normalize uri
  let top ← store.entryAt base
  if top.isDir then
    let entries ← filesBelow store base
    let files ← packed base entries
    return ⟨base, files⟩
  else return ⟨base, [⟨Uri.name base, top.content⟩]⟩

theorem relative_eq_of_mem_filesBelow (tree : Tree store.entries) {base : String} {entry : Entry}
    (member : entry ∈ store.filesBelow base) :
    Uri.Cutting.relative entry.uri base = some (Uri.relative entry.uri base) := by
  obtain ⟨trail, isTrail⟩ := tree.exists_trail ((mem_filesBelow_iff tree).1 member).1
  rw [isTrail]
  exact Uri.Cutting.relative_ofPath _ base

theorem glob_eq (tree : Tree store.entries) (pattern : String) (target : Option String) :
    (glob store pattern target).run = some (store.glob pattern target) := by
  refine run_bind_of_eq fun base _ => ?_
  cases Glob.compile pattern with
  | error fault => rfl
  | ok compiled =>
    have matching : accepted compiled base ((store.filesBelow base).map (·.uri)) =
        some (((store.filesBelow base).map (·.uri)).filter fun uri =>
          compiled.accepts (Uri.relative uri base)) := by
      refine filterM_eq_some fun uri member => ?_
      obtain ⟨entry, inside, rfl⟩ := List.mem_map.1 member
      rw [relative_eq_of_mem_filesBelow tree inside]
      rfl
    change (liftM (filesBelow store base) >>= fun files =>
      liftM (accepted compiled base (files.map (·.uri))) : ExceptT Error Option _).run = _
    rw [run_bind_of_some (filesBelow_eq store base), matching]
    rfl

theorem exportPack_eq (tree : Tree store.entries) (uri : String) :
    (exportPack store uri).run = some (store.exportPack uri) := by
  refine run_bind_of_eq fun base _ => run_bind_of_eq fun top _ => ?_
  have files : packed base (store.filesBelow base) = some ((store.filesBelow base).map fun entry =>
      ⟨Uri.relative entry.uri base, entry.content⟩) :=
    mapM_eq_some fun entry inside => by
      rw [relative_eq_of_mem_filesBelow tree inside]
      rfl
  split
  · rw [run_bind_of_some (filesBelow_eq store base), run_bind_of_some files]
    rfl
  · rfl

/-! ## Writing -/

/-- Go on with the normal form of an address. -/
def withUri (store : Store) (uri : String) (continue_ : String → Option (Outcome α)) :
    Option (Outcome α) :=
  match Uri.normalize uri with
  | .error error => some (.error error, store)
  | .ok normal => continue_ normal

theorem withUri_eq {uri : String} {continue_ : String → Option (Outcome α)}
    {result : String → Outcome α}
    (same : ∀ trail : Trail, continue_ trail.uri = some (result trail.uri)) :
    withUri store uri continue_ = some (store.withUri uri result) := by
  rw [withUri, Store.withUri]
  cases normalized : Uri.normalize uri with
  | error error => rfl
  | ok normal =>
    obtain ⟨trail, rfl⟩ := exists_trail_of_normalize normalized
    exact same trail

/-- Write a file, whether or not it exists. -/
def addResource (store : Store) (uri content : String) (now : Tick) : Option (Outcome Entry) :=
  withUri store uri fun target =>
    if Uri.isRoot target then some (.error (.invalidArgument "cannot write to the root"), store)
    else (Uri.Cutting.ancestors target).map fun chain =>
      match ensureDirs now chain store.entries with
      | (.error error, entries) => (.error error, { store with entries })
      | (.ok (), entries) =>
        match entries.get? target with
        | some existing =>
          if existing.isDir then
            (.error (.alreadyExists (target ++ " is a directory")), { store with entries })
          else
            let entry := existing.withContent content now
            (.ok entry, { store with entries := entries.insert target entry })
        | none =>
          let entry := Entry.newFile target content now
          (.ok entry, { store with entries := entries.insert target entry })

theorem addResource_eq (store : Store) (uri content : String) (now : Tick) :
    addResource store uri content now = some (store.addResource uri content now) := by
  refine withUri_eq fun trail => ?_
  rw [Uri.Cutting.ancestors_uri]
  split <;> rfl

/-- Create a directory, unless it exists. -/
def mkdir (store : Store) (uri : String) (now : Tick) : Option (Outcome Entry) :=
  withUri store uri fun target =>
    (Uri.Cutting.ancestors target).map fun chain =>
      match ensureDirs now (chain ++ [target]) store.entries with
      | (.error error, entries) => (.error error, { store with entries })
      | (.ok (), entries) =>
        match entries.get? target with
        | some entry => (.ok entry, { store with entries })
        | none => (.error (.internal ("directory vanished: " ++ target)), { store with entries })

theorem mkdir_eq (store : Store) (uri : String) (now : Tick) :
    mkdir store uri now = some (store.mkdir uri now) := by
  refine withUri_eq fun trail => ?_
  rw [Uri.Cutting.ancestors_uri]
  rfl

/-- Write files one after another until one is refused. -/
def writeAll (now : Tick) : List (String × String) → Store → Option (Outcome (List String))
  | [], store => some (.ok [], store)
  | (uri, content) :: others, store => do
    match ← addResource store uri content now with
    | (.error error, store) => return (.error error, store)
    | (.ok entry, store) =>
      match ← writeAll now others store with
      | (.error error, store) => return (.error error, store)
      | (.ok written, store) => return (.ok (entry.uri :: written), store)

theorem writeAll_eq (now : Tick) (planned : List (String × String)) (store : Store) :
    writeAll now planned store = some (Store.writeAll now planned store) := by
  induction planned generalizing store with
  | nil => rfl
  | cons file others inductionHypothesis =>
    obtain ⟨uri, content⟩ := file
    rw [writeAll, Store.writeAll, addResource_eq, Option.bind_eq_bind, Option.bind_some]
    rcases store.addResource uri content now with ⟨error | entry, store⟩
    · rfl
    · simp only [inductionHypothesis]
      rcases Store.writeAll now others store with ⟨error | written, store⟩ <;> rfl

/-- Write the files of a pack below a directory. All addresses are checked before anything is
written. -/
def importPack (store : Store) (uri : String) (files : List PackFile) (now : Tick) :
    Option (Outcome (List String)) :=
  withUri store uri fun base =>
    if files.isEmpty then some (.error (.invalidArgument "pack has no files"), store)
    else
      match files.mapM (packDestination base) with
      | .error error => some (.error error, store)
      | .ok planned => writeAll now planned store

theorem importPack_eq (store : Store) (uri : String) (files : List PackFile) (now : Tick) :
    importPack store uri files now = some (store.importPack uri files now) := by
  refine withUri_eq fun trail => ?_
  split
  · rfl
  · cases files.mapM (packDestination trail.uri) with
    | error error => rfl
    | ok planned => exact writeAll_eq now planned store

/-! ## Removing and moving -/

/-- Remove an entry with all below it, and every link from or to what is removed. -/
def rm (store : Store) (uri : String) (recursive : Bool) : Option (Outcome (List String)) :=
  withUri store uri fun target =>
    if Uri.isRoot target then some (.error (.invalidArgument "cannot remove the root"), store)
    else if !store.entries.contains target then some (.error (.notFound target), store)
    else (store.entries.keys.filterM (Uri.Cutting.isBelow · target)).map fun below =>
      if !below.isEmpty && !recursive then
        (.error (.failedPrecondition (target ++ " is not empty; pass recursive=true")), store)
      else
        let removed := target :: below
        (.ok removed,
          { store with
            entries := removed.foldl SortedMap.erase store.entries
            relations := relationsWithout store.relations removed })

theorem rm_eq (store : Store) (uri : String) (recursive : Bool) :
    rm store uri recursive = some (store.rm uri recursive) := by
  refine withUri_eq fun trail => ?_
  have below : store.entries.keys.filterM (Uri.Cutting.isBelow · trail.uri) =
      some (store.entries.keys.filter (Uri.isBelow · trail.uri)) :=
    filterM_eq_some fun key _ => Uri.Cutting.isBelow_eq key trail.uri
  rw [below]
  split
  · rfl
  · split <;> rfl

/-- The address that an entry gets when an ancestor of it, or it itself, moves: what is cut off
behind the source, behind the destination. -/
def renamed (source destination uri : String) : Option String :=
  (Text.dropBytes? source.utf8ByteSize uri.toList).map fun rest =>
    destination ++ String.ofList rest

/-- What lies within a source that is not the root is cut right behind that. -/
theorem renamed_eq {source destination uri : String} (notRoot : isRoot source = false)
    (within : isWithin uri source = true) :
    renamed source destination uri = some (Store.renamed source destination uri) := by
  have cut : ∃ rest, Text.dropBytes? source.utf8ByteSize uri.toList = some rest := by
    rcases isWithin_eq_true_iff.1 within with rfl | below
    · exact ⟨[], by simpa using Text.dropBytes?_append uri []⟩
    · obtain ⟨rest, shape⟩ := (Trail.isBelow_eq_true_iff notRoot).1 below
      exact ⟨'/' :: rest, by rw [shape, Text.dropBytes?_append]⟩
  obtain ⟨rest, cut⟩ := cut
  rw [renamed, Store.renamed, cut]
  rfl

/-- Put an entry under the address it gets. -/
def moveEntry (source destination : String) (now : Tick) (entries : SortedMap Entry)
    (uri : String) : Option (SortedMap Entry) :=
  match entries.get? uri with
  | some entry => do
    let target ← renamed source destination uri
    let moved := entry.moveTo target now
    return (entries.erase uri).insert moved.uri moved
  | none => some entries

/-- Put the links of an entry under the address it gets. -/
def moveLinks (source destination : String) (relations : SortedMap (List Relation))
    (uri : String) : Option (SortedMap (List Relation)) :=
  match relations.get? uri with
  | some links => do
    let target ← renamed source destination uri
    return (relations.erase uri).insert target links
  | none => some relations

/-- Let links point to where the moved entries are. -/
def redirect (source destination : String) (moved : List String) (links : List Relation) :
    Option (List Relation) :=
  links.mapM fun link =>
    if moved.contains link.uri then do
      let target ← renamed source destination link.uri
      return { link with uri := target }
    else some link

section Moved

variable {source destination : String} {moved : List String}

theorem moveEntry_eq {uri : String} (notRoot : isRoot source = false)
    (within : isWithin uri source = true) (destination : String) (now : Tick)
    (entries : SortedMap Entry) :
    moveEntry source destination now entries uri =
      some (Store.moveEntry source destination now entries uri) := by
  rw [moveEntry, Store.moveEntry, renamed_eq notRoot within]
  cases entries.get? uri <;> rfl

theorem moveLinks_eq {uri : String} (notRoot : isRoot source = false)
    (within : isWithin uri source = true) (destination : String)
    (relations : SortedMap (List Relation)) :
    moveLinks source destination relations uri =
      some (Store.moveLinks source destination relations uri) := by
  rw [moveLinks, Store.moveLinks, renamed_eq notRoot within]
  cases relations.get? uri <;> rfl

theorem redirect_eq (notRoot : isRoot source = false)
    (within : ∀ uri ∈ moved, isWithin uri source = true) (links : List Relation) :
    redirect source destination moved links =
      some (Store.redirect source destination moved links) := by
  refine mapM_eq_some fun link _ => ?_
  split
  · rename_i isMoved
    rw [renamed_eq notRoot (within _ (List.contains_iff_mem.1 isMoved))]
    rfl
  · rfl

/-- Put the entries with some addresses, their links and the links to them where they get. -/
def carry (source destination : String) (now : Tick) (moved : List String) (store : Store) :
    Option Store := do
  let entries ← moved.foldlM (moveEntry source destination now) store.entries
  let carried ← moved.foldlM (moveLinks source destination) store.relations
  let relations ← carried.mapValues? (redirect source destination moved)
  return { store with entries, relations }

/-- Nothing that moves with a source that is not the root is cut amiss, neither addresses of
entries nor sources and targets of links. -/
theorem carry_eq (notRoot : isRoot source = false)
    (within : ∀ uri ∈ moved, isWithin uri source = true) (now : Tick) (store : Store) :
    carry source destination now moved store = some { store with
      entries := moved.foldl (Store.moveEntry source destination now) store.entries
      relations := (moved.foldl (Store.moveLinks source destination) store.relations).mapValues
        (Store.redirect source destination moved) } := by
  have entries := foldlM_eq_some store.entries fun uri member entries =>
    moveEntry_eq notRoot (within uri member) destination now entries
  have carried := foldlM_eq_some store.relations fun uri member relations =>
    moveLinks_eq notRoot (within uri member) destination relations
  rw [carry, entries, carried, Option.bind_eq_bind, Option.bind_some, Option.bind_eq_bind,
    Option.bind_some, SortedMap.mapValues?_eq_some fun links _ => redirect_eq notRoot within links]
  rfl

end Moved

/-- Move an entry with all below it. The destination must be free and must not lie below the
source. -/
def mv (store : Store) (source destination : String) (now : Tick) : Option (Outcome Entry) :=
  withUri store source fun source =>
  withUri store destination fun destination =>
    if Uri.isRoot source || Uri.isRoot destination then
      some (.error (.invalidArgument "cannot move the root"), store)
    else do
      let intoItself ← Uri.Cutting.isBelow destination source
      if intoItself then
        return (.error (.invalidArgument ("cannot move " ++ source ++ " into itself")), store)
      else if !store.entries.contains source then return (.error (.notFound source), store)
      else if store.entries.contains destination then
        return (.error (.alreadyExists destination), store)
      else
        let chain ← Uri.Cutting.ancestors destination
        match ensureDirs now chain store.entries with
        | (.error error, entries) => return (.error error, { store with entries })
        | (.ok (), entries) =>
          let moved ← entries.keys.filterM (Uri.Cutting.isWithin · source)
          (carry source destination now moved { store with entries }).map fun store =>
            match store.entries.get? destination with
            | some entry => (.ok entry, store)
            | none => (.error (.internal ("moved entry vanished: " ++ destination)), store)

theorem mv_eq (store : Store) (source destination : String) (now : Tick) :
    mv store source destination now = some (store.mv source destination now) := by
  refine withUri_eq fun sourceTrail => withUri_eq fun trail => ?_
  split
  · rfl
  · rename_i neitherRoot
    have notRoot : isRoot sourceTrail.uri = false := by simp_all
    simp only [Uri.Cutting.isBelow_eq, Uri.Cutting.ancestors_uri, Option.bind_eq_bind,
      Option.bind_some]
    split
    · rfl
    split
    · rfl
    split
    · rfl
    rcases ensureDirs now (ancestors trail.uri) store.entries with ⟨error | _, entries⟩
    · rfl
    have moved : entries.keys.filterM (Uri.Cutting.isWithin · sourceTrail.uri) =
        some (entries.keys.filter (isWithin · sourceTrail.uri)) :=
      filterM_eq_some fun key _ => Uri.Cutting.isWithin_eq key _
    have within : ∀ key ∈ entries.keys.filter (isWithin · sourceTrail.uri),
        isWithin key sourceTrail.uri = true := fun key member => (List.mem_filter.1 member).2
    simp only [moved, Option.bind_some, carry_eq notRoot within]
    rfl

/-! ## Runs -/

/-- Perform an operation. Those that are not named make no cuts. -/
def step (store : Store) (moment : Moment) : Operation → Option (Outcome Answer)
  | .addResource uri content =>
    (addResource store uri content moment.now).map (answered .entry)
  | .listResources under => (listResources store under).run.map (store.unchanged .entries)
  | .mkdir uri => (mkdir store uri moment.now).map (answered .entry)
  | .ls uri => (ls store uri).run.map (store.unchanged .entries)
  | .abstractOf uri => (abstractOf store uri).run.map (store.unchanged .text)
  | .rm uri recursive => (rm store uri recursive).map (answered .uris)
  | .mv source destination => (mv store source destination moment.now).map (answered .entry)
  | .find query target limit => (find store query target limit).run.map (store.unchanged .hits)
  | .grep target pattern caseInsensitive =>
    (grep store target pattern caseInsensitive).run.map (store.unchanged .lines)
  | .glob pattern target => (glob store pattern target).run.map (store.unchanged .uris)
  | .exportPack uri => (exportPack store uri).run.map (store.unchanged .pack)
  | .importPack uri files => (importPack store uri files moment.now).map (answered .uris)
  | operation => some (store.step moment operation)

/-- Perform operations one after another, whether they succeed or fail. -/
def run (store : Store) (operations : List (Moment × Operation)) : Option Store :=
  operations.foldlM
    (fun store (moment, operation) => (step store moment operation).map (·.2)) store

/-- On a store whose entries form a tree no operation makes a cut amiss. -/
theorem step_eq (tree : Tree store.entries) (moment : Moment) (operation : Operation) :
    step store moment operation = some (store.step moment operation) := by
  cases operation with
  | addResource uri content =>
    rw [step, addResource_eq]
    rfl
  | listResources under =>
    rw [step, listResources_eq]
    rfl
  | mkdir uri =>
    rw [step, mkdir_eq]
    rfl
  | ls uri =>
    rw [step, ls_eq tree]
    rfl
  | abstractOf uri =>
    rw [step, abstractOf_eq tree]
    rfl
  | rm uri recursive =>
    rw [step, rm_eq]
    rfl
  | mv source destination =>
    rw [step, mv_eq]
    rfl
  | find query target limit =>
    rw [step, find_eq]
    rfl
  | grep target pattern caseInsensitive =>
    rw [step, grep_eq]
    rfl
  | glob pattern target =>
    rw [step, glob_eq tree]
    rfl
  | exportPack uri =>
    rw [step, exportPack_eq tree]
    rfl
  | importPack uri files =>
    rw [step, importPack_eq]
    rfl
  | stat | read | link | unlink | relations | createSession | listSessions | getSession
  | deleteSession | addMessage => rfl

-- Without the tree a stored address can be cut inside of a character.
example : (ls ⟨(SortedMap.single scheme (.newDir scheme 0)).insert "viking:/é"
    (.newFile "viking:/é" "" 0), .empty, []⟩ scheme).run = none := by
  rfl

/-- Nor does one of many that follow each other. -/
theorem run_eq (sound : Sound store) (operations : List (Moment × Operation)) :
    run store operations = some (store.run operations) := by
  induction operations generalizing store with
  | nil => rfl
  | cons first others inductionHypothesis =>
    obtain ⟨moment, operation⟩ := first
    have after := inductionHypothesis (sound_step sound moment operation)
    change ((step store moment operation).map (·.2)).bind (run · others) = _
    rw [step_eq sound.tree, Option.map_some, Option.bind_some, after]
    rfl

/-- Whatever operations are performed on a new store, with whatever arguments and success: all
cuts in them fall between two characters of a text and all look-ups by position find something,
and so they do in any operation that follows. -/
theorem cuts_of_run_are_valid (now : Tick) (operations : List (Moment × Operation))
    (moment : Moment) (operation : Operation) :
    run (empty now) operations = some ((empty now).run operations) ∧
      step ((empty now).run operations) moment operation =
        some (((empty now).run operations).step moment operation) :=
  ⟨run_eq (sound_empty now) operations,
    step_eq ((Reachable.empty now).run operations).sound.tree moment operation⟩

end Store.Cutting

end ContextDb
