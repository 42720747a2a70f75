import ContextDb.Proofs.Planting

/-!
# Unpacking stays inside

Whatever the paths in a pack are, unpacking changes nothing outside the directory it unpacks
into, except that this directory and those on the way to it are made. Every single write
keeps to that, so an unpacking that ends half way does as well. What has been unpacked can
be read back, and of several files with one address the last one counts.
-/

namespace ContextDb.Store

open Uri

/-- One store is another one with changes strictly below a directory; the directory itself
and those on the way to it may have been made. -/
structure Contained (base : String) (before after : Store) (now : Tick) : Prop where
  entries : ∀ key, after.entries.get? key ≠ before.entries.get? key →
    isBelow key base = true ∨
      (key = base ∨ IsAncestor key base) ∧ before.entries.get? key = none ∧
        after.entries.get? key = some (.newDir key now)
  relations : after.relations = before.relations
  sessions : after.sessions = before.sessions

/-- A file of a pack that is unpacked in a directory goes to the address that its path has
there. -/
def GoesTo (base : String) (file : PackFile) (uri : String) : Prop :=
  normalize (placed base file.path) = .ok uri

/-- A file is the last of a pack to go to an address. -/
def IsLastAt (base uri : String) (files : List PackFile) (file : PackFile) : Prop :=
  ∃ earlier later, files = earlier ++ file :: later ∧ GoesTo base file uri ∧
    ∀ other ∈ later, ¬ GoesTo base other uri

variable {store before middle after : Store} {base trail : Trail} {uri content : String}
  {planned earlier later : List (String × String)} {uris : List String} {now : Tick}

/-! ## Changes -/

theorem Contained.refl (base : String) (store : Store) (now : Tick) :
    Contained base store store now :=
  ⟨fun _ changed => absurd rfl changed, rfl, rfl⟩

/-- Changes inside a directory that follow each other are inside it. -/
theorem Contained.trans {base : String} (first : Contained base before middle now)
    (second : Contained base middle after now) : Contained base before after now where
  entries := by
    intro key changed
    by_cases later : after.entries.get? key = middle.entries.get? key
    · rw [later] at changed ⊢
      exact first.entries key changed
    · by_cases earlier : middle.entries.get? key = before.entries.get? key
      · rw [← earlier]
        exact second.entries key later
      · -- What the first made is there, so the second cannot have made it.
        rcases first.entries key earlier with below | ⟨_, _, made⟩
        · exact .inl below
        · rcases second.entries key later with below | ⟨_, missing, _⟩
          · exact .inl below
          · cases made.symm.trans missing
  relations := second.relations.trans first.relations
  sessions := second.sessions.trans first.sessions

/-- An entry that is planted below a directory is a change inside it. -/
theorem IsPlanted.contained {entry : Entry} (below : trail.Below base)
    (planted : IsPlanted before after trail.uri entry now) :
    Contained base.uri before after now where
  entries := by
    intro key changed
    by_cases here : key = trail.uri
    · exact .inl (here ▸ Trail.isBelow_uri.2 below)
    · have missing : IsAncestor key trail.uri ∧ before.entries.get? key = none := by
        by_contra present
        refine changed (planted.elsewhere key here fun isAncestor => ?_)
        exact Option.ne_none_iff_exists'.1 fun free => present ⟨isAncestor, free⟩
      obtain ⟨isAncestor, free⟩ := missing
      obtain ⟨upper, rfl⟩ := exists_trail_of_normalize isAncestor.normal
      -- Of two directories above the entry, one is the other or lies below it.
      rcases (Trail.isBelow_uri.1 isAncestor.isBelow).total below with rfl | inside | above
      · exact .inr ⟨.inl rfl, free, planted.above _ isAncestor free⟩
      · exact .inl (Trail.isBelow_uri.2 inside)
      · exact .inr ⟨.inr ⟨isAncestor.normal, Trail.isBelow_uri.2 above⟩, free,
          planted.above _ isAncestor free⟩
  relations := planted.relations
  sessions := planted.sessions

/-- A write fails and changes nothing, or it plants a file. -/
theorem addResource_trail_cases (tree : Tree store.entries) (trail : Trail) (content : String)
    (now : Tick) :
    (∃ error, store.addResource trail.uri content now = (.error error, store)) ∨
      ∃ entry, (store.addResource trail.uri content now).1 = .ok entry ∧
        entry.uri = trail.uri ∧ entry.isDir = false ∧ entry.content = content ∧
        IsPlanted store (store.addResource trail.uri content now).2 trail.uri entry now := by
  cases gave : (store.addResource trail.uri content now).1 with
  | error error =>
    rcases addResource_cases tree trail.uri content now with
      ⟨reason, _, refused⟩ | ⟨_, _, _, _, _, wrote⟩
    · exact .inl ⟨reason, refused⟩
    · rw [wrote] at gave
      cases gave
  | ok entry =>
    obtain ⟨target, normalized, same, planted, _⟩ := isPlanted_of_addResource tree gave
    cases (normalize_uri trail).symm.trans normalized
    exact .inr ⟨entry, rfl, by rw [same], by rw [same]; rfl, by rw [same], planted⟩

/-- A write below a directory changes nothing outside it. -/
theorem contained_addResource (tree : Tree store.entries) (below : trail.Below base)
    (content : String) (now : Tick) :
    Contained base.uri store (store.addResource trail.uri content now).2 now := by
  rcases addResource_trail_cases tree trail content now with
    ⟨_, refused⟩ | ⟨_, _, _, _, _, planted⟩
  · rw [refused]
    exact .refl base.uri store now
  · exact planted.contained below

/-- A sequence of writes below a directory changes nothing outside it, even if it ends
early. -/
theorem contained_writeAll (tree : Tree store.entries)
    (below : ∀ file ∈ planned, ∃ trail : Trail, file.1 = trail.uri ∧ trail.Below base)
    (now : Tick) : Contained base.uri store (writeAll now planned store).2 now := by
  have kept : ∀ file ∈ planned, ∀ middle : Store,
      Tree middle.entries ∧ Contained base.uri store middle now →
      Tree (middle.addResource file.1 file.2 now).2.entries ∧
        Contained base.uri store (middle.addResource file.1 file.2 now).2 now := by
    rintro ⟨uri, content⟩ member middle ⟨treeHere, contained⟩
    obtain ⟨trail, rfl, isBelow⟩ := below _ member
    exact ⟨(grown_addResource treeHere trail.uri content now).tree,
      contained.trans (contained_addResource treeHere isBelow content now)⟩
  exact (writeAll_keeps kept ⟨tree, .refl base.uri store now⟩).2

/-! ## Reading back -/

/-- There is a file with a content at an address. -/
def HasFile (store : Store) (uri content : String) : Prop :=
  ∃ entry, store.entries.get? uri = some entry ∧ entry.isDir = false ∧ entry.content = content

/-- A file stays as it is while others are written. -/
theorem hasFile_addResource (tree : Tree store.entries) (hasFile : HasFile store uri content)
    (elsewhere : trail.uri ≠ uri) (other : String) (now : Tick) :
    HasFile (store.addResource trail.uri other now).2 uri content := by
  obtain ⟨entry, found, notDir, same⟩ := hasFile
  refine ⟨entry, ?_, notDir, same⟩
  rcases addResource_trail_cases tree trail other now with ⟨_, refused⟩ | ⟨_, _, _, _, _, planted⟩
  · rw [refused]
    exact found
  · rw [planted.elsewhere uri (Ne.symm elsewhere) fun _ => ⟨entry, found⟩, found]

/-- A file stays as it is during a sequence of writes to other addresses. -/
theorem hasFile_writeAll (tree : Tree store.entries) (hasFile : HasFile store uri content)
    (spelled : Spelled (planned.map (·.1))) (elsewhere : ∀ file ∈ planned, file.1 ≠ uri)
    (now : Tick) : HasFile (writeAll now planned store).2 uri content := by
  have kept : ∀ file ∈ planned, ∀ middle : Store,
      Tree middle.entries ∧ HasFile middle uri content →
      Tree (middle.addResource file.1 file.2 now).2.entries ∧
        HasFile (middle.addResource file.1 file.2 now).2 uri content := by
    rintro ⟨target, other⟩ member middle ⟨treeHere, hasFileHere⟩
    obtain ⟨trail, rfl, _⟩ := spelled _ (List.mem_map_of_mem (f := Prod.fst) member)
    exact ⟨(grown_addResource treeHere trail.uri other now).tree,
      hasFile_addResource treeHere hasFileHere (elsewhere _ member) other now⟩
  exact (writeAll_keeps kept ⟨tree, hasFile⟩).2

/-- A sequence of writes that succeeds begins with one that does, and goes on from there. -/
theorem writeAll_cons_eq_ok_iff {others : List (String × String)} :
    (writeAll now ((uri, content) :: others) store).1 = .ok uris ↔
      ∃ entry rest, (store.addResource uri content now).1 = .ok entry ∧
        (writeAll now others (store.addResource uri content now).2).1 = .ok rest ∧
        uris = entry.uri :: rest := by
  cases wrote : store.addResource uri content now with
  | mk result after =>
    cases result with
    | error error =>
      rw [writeAll_cons_of_error wrote]
      simp
    | ok entry =>
      rw [writeAll_cons_of_ok wrote]
      cases (writeAll now others after).1 <;> simp [Except.map, eq_comm]

/-- A sequence of writes that succeeds gives the addresses that were written. -/
theorem uris_of_writeAll (tree : Tree store.entries) (spelled : Spelled (planned.map (·.1)))
    (done : (writeAll now planned store).1 = .ok uris) : uris = planned.map (·.1) := by
  induction planned generalizing store uris with
  | nil => exact (Except.ok.inj done).symm
  | cons file others inductionHypothesis =>
    obtain ⟨uri, content⟩ := file
    obtain ⟨trail, rfl, _⟩ := spelled _ List.mem_cons_self
    obtain ⟨entry, rest, gave, later, rfl⟩ := writeAll_cons_eq_ok_iff.1 done
    have grown := grown_addResource tree trail.uri content now
    have spelledOthers : Spelled (others.map (·.1)) := fun uri member =>
      spelled uri (List.mem_cons_of_mem _ member)
    rcases addResource_trail_cases tree trail content now with
      ⟨_, refused⟩ | ⟨_, wrote, keyed, _⟩
    · rw [refused] at gave
      cases gave
    · cases gave.symm.trans wrote
      rw [inductionHypothesis grown.tree spelledOthers later, List.map_cons, keyed]

/-- After a sequence of writes that succeeds, the last one to an address is there. -/
theorem hasFile_of_writeAll (tree : Tree store.entries)
    (spelled : Spelled ((earlier ++ (uri, content) :: later).map (·.1)))
    (last : ∀ file ∈ later, file.1 ≠ uri)
    (done : (writeAll now (earlier ++ (uri, content) :: later) store).1 = .ok uris) :
    HasFile (writeAll now (earlier ++ (uri, content) :: later) store).2 uri content := by
  induction earlier generalizing store uris with
  | nil =>
    obtain ⟨trail, rfl, _⟩ := spelled _ List.mem_cons_self
    have spelledLater : Spelled (later.map (·.1)) := fun uri member =>
      spelled uri (List.mem_cons_of_mem _ member)
    have grown := grown_addResource tree trail.uri content now
    obtain ⟨_, _, gave, _, _⟩ := writeAll_cons_eq_ok_iff.1 done
    rw [List.nil_append, writeAll_cons_of_ok (Prod.ext gave rfl)]
    rcases addResource_trail_cases tree trail content now with
      ⟨_, refused⟩ | ⟨entry, _, _, notDir, same, planted⟩
    · rw [refused] at gave
      cases gave
    · exact hasFile_writeAll grown.tree ⟨entry, planted.here, notDir, same⟩ spelledLater last now
  | cons first others inductionHypothesis =>
    obtain ⟨other, text⟩ := first
    have spelledOthers : Spelled ((others ++ (uri, content) :: later).map (·.1)) :=
      fun uri member => spelled uri (List.mem_cons_of_mem _ member)
    have grown := grown_addResource tree other text now
    rw [List.cons_append] at done ⊢
    obtain ⟨_, _, gave, rest, _⟩ := writeAll_cons_eq_ok_iff.1 done
    rw [writeAll_cons_of_ok (Prod.ext gave rfl)]
    exact inductionHypothesis grown.tree spelledOthers rest

/-! ## Packs -/

/-- A file of a pack is accepted exactly if it goes to an address other than that of the
directory. -/
theorem packDestination_eq_ok_iff {base : String} {file : PackFile} {pair : String × String} :
    packDestination base file = .ok pair ↔
      GoesTo base file pair.1 ∧ pair.1 ≠ base ∧ pair.2 = file.content := by
  obtain ⟨uri, content⟩ := pair
  refine bind_eq_ok_iff.trans ⟨?_, ?_⟩
  · rintro ⟨destination, normalized, rest⟩
    split at rest
    · cases rest
    · rename_i notBase
      cases rest
      exact ⟨normalized, notBase, rfl⟩
  · rintro ⟨normalized, notBase, rfl⟩
    exact ⟨uri, normalized, if_neg notBase⟩

/-- The files of an accepted pack go to the planned addresses, in their order. -/
theorem goesTo_of_accepted {base : String} {files : List PackFile}
    (accepted : files.mapM (packDestination base) = .ok planned) :
    List.Forall₂ (GoesTo base) files (planned.map (·.1)) := by
  refine List.forall₂_map_right_iff.2 ((mapM_eq_ok_iff.1 accepted).imp ?_)
  exact fun file pair here => (packDestination_eq_ok_iff.1 here).1

/-- The planned addresses are those that some file goes to. -/
theorem mem_planned_iff {base : String} {files : List PackFile}
    (accepted : files.mapM (packDestination base) = .ok planned) :
    uri ∈ planned.map (·.1) ↔ ∃ file ∈ files, GoesTo base file uri := by
  induction mapM_eq_ok_iff.1 accepted with
  | nil => simp
  | @cons first pair others rest here there inductionHypothesis =>
    have goes := (packDestination_eq_ok_iff.1 here).1
    have isFirst : uri = pair.1 ↔ GoesTo base first uri :=
      ⟨fun same => same ▸ goes, fun goesHere => Except.ok.inj (goesHere.symm.trans goes)⟩
    rw [List.map_cons, List.mem_cons, List.exists_mem_cons_iff, isFirst,
      inductionHypothesis (mapM_eq_ok_iff.2 there)]

/-- Of the files of an accepted pack that go to an address there is a last one, which is
also the last one that is planned for it. -/
theorem exists_isLastAt {base : String} {files : List PackFile}
    (accepted : files.mapM (packDestination base) = .ok planned)
    (member : uri ∈ planned.map (·.1)) :
    ∃ file earlier later, IsLastAt base uri files file ∧
      planned = earlier ++ (uri, file.content) :: later ∧ ∀ other ∈ later, other.1 ≠ uri := by
  induction mapM_eq_ok_iff.1 accepted with
  | nil => cases member
  | @cons first pair others rest here there inductionHypothesis =>
    obtain ⟨goes, _, same⟩ := packDestination_eq_ok_iff.1 here
    by_cases again : uri ∈ rest.map (·.1)
    · obtain ⟨file, earlier, later, ⟨before, behind, rfl, isLast⟩, rfl, last⟩ :=
        inductionHypothesis (mapM_eq_ok_iff.2 there) again
      exact ⟨file, pair :: earlier, later, ⟨first :: before, behind, rfl, isLast⟩, rfl, last⟩
    · have isHere : uri = pair.1 := by
        rcases List.mem_cons.1 member with isHere | inRest
        · exact isHere
        · exact absurd inRest again
      subst isHere
      have notLater := fun goesLater =>
        again ((mem_planned_iff (mapM_eq_ok_iff.2 there)).2 goesLater)
      refine ⟨first, [], rest, ⟨[], others, rfl, goes, fun other isOther goesThere => ?_⟩, ?_,
        fun other isOther sameUri => again (sameUri ▸ List.mem_map_of_mem isOther)⟩
      · exact notLater ⟨other, isOther, goesThere⟩
      · rw [← same]
        rfl

/-! ## Unpacking -/

/-- Unpacking changes nothing outside its directory, whether it succeeds or fails. -/
theorem contained_importPack (tree : Tree store.entries) {target : String}
    (normalized : normalize target = .ok base.uri) (files : List PackFile) (now : Tick) :
    Contained base.uri store (store.importPack target files now).2 now := by
  rcases importPack_cases store target files now with
    ⟨_, _, refused⟩ | ⟨directory, planned, normal, accepted, same⟩
  · rw [refused]
    exact .refl base.uri store now
  · obtain rfl := Trail.uri_injective (Except.ok.inj (normalized.symm.trans normal))
    rw [same]
    exact contained_writeAll tree (exists_below_of_accepted accepted) now

/-- In a reachable store, unpacking changes nothing outside the directory it unpacks into,
whatever the paths are and whether it succeeds or fails. If it succeeds, it gives the
address of each file in order. All of them are below the directory, and at each the content
of the last file that goes there can be read. -/
theorem importPack_stays_inside (reachable : Reachable store) {target base : String}
    (normalized : normalize target = .ok base) (files : List PackFile) (now : Tick) :
    Contained base store (store.importPack target files now).2 now ∧
      ∀ uris, (store.importPack target files now).1 = .ok uris →
        List.Forall₂ (GoesTo base) files uris ∧
          ∀ uri ∈ uris, isBelow uri base = true ∧ ∃ file, IsLastAt base uri files file ∧
            (store.importPack target files now).2.read uri = .ok file.content := by
  have tree := reachable.sound.tree
  obtain ⟨directory, rfl⟩ := exists_trail_of_normalize normalized
  refine ⟨contained_importPack tree normalized files now, fun uris done => ?_⟩
  rcases importPack_cases store target files now with
    ⟨_, _, refused⟩ | ⟨base, planned, normal, accepted, same⟩
  · rw [refused] at done
    cases done
  · obtain rfl := Trail.uri_injective (Except.ok.inj (normalized.symm.trans normal))
    rw [same] at done ⊢
    have spelled := spelled_of_accepted accepted
    obtain rfl := uris_of_writeAll tree spelled done
    refine ⟨goesTo_of_accepted accepted, fun uri member => ?_⟩
    obtain ⟨⟨_, _⟩, inPlan, rfl⟩ := List.mem_map.1 member
    obtain ⟨trail, rfl, below⟩ := exists_below_of_accepted accepted _ inPlan
    refine ⟨Trail.isBelow_uri.2 below, ?_⟩
    obtain ⟨file, earlier, later, isLast, rfl, last⟩ := exists_isLastAt accepted member
    obtain ⟨entry, found, notDir, content⟩ := hasFile_of_writeAll tree spelled last done
    exact ⟨file, isLast, by rw [read_of_file (normalize_uri trail) found notDir, content]⟩

/-- A store with a file beside a directory. -/
def shelf : Store :=
  (empty 0).run [
    (⟨1, ⟨0⟩⟩, .addResource "viking://d/old" "1"),
    (⟨2, ⟨0⟩⟩, .addResource "viking://do" "2")]

/-- A pack in which one path is spelled in two ways. -/
def parcel : List PackFile :=
  [⟨"/x//y", "a"⟩, ⟨"viking:/z", "b"⟩, ⟨"x/y/", "c"⟩]

/-- The file with two spellings is unpacked twice, and what was unpacked last stays. -/
theorem shelf_takes_parcel :
    (shelf.importPack "viking://d/" parcel 3).1 =
        .ok ["viking://d/x/y", "viking://d/viking:/z", "viking://d/x/y"] ∧
      Contained "viking://d" shelf (shelf.importPack "viking://d/" parcel 3).2 3 ∧
      ∃ file, IsLastAt "viking://d" "viking://d/x/y" parcel file ∧
        (shelf.importPack "viking://d/" parcel 3).2.read "viking://d/x/y" = .ok file.content := by
  have reachable : Reachable shelf := (Reachable.empty 0).run _
  have normalized : normalize "viking://d/" = .ok "viking://d" := by decide +kernel
  have done : (shelf.importPack "viking://d/" parcel 3).1 =
      .ok ["viking://d/x/y", "viking://d/viking:/z", "viking://d/x/y"] := by decide +kernel
  obtain ⟨contained, unpacked⟩ := importPack_stays_inside reachable normalized parcel 3
  exact ⟨done, contained, ((unpacked _ done).2 _ List.mem_cons_self).2⟩

end ContextDb.Store
