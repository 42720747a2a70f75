import ContextDb.Store.Tree

/-!
# Packs

The files of a subtree with their paths seen from its top, taken out of the
store and written back below any directory.
-/

namespace ContextDb.Store

/-- The files at or below an address as a pack. -/
def exportPack (store : Store) (uri : String) : Except Error Pack := do
  let base ← Uri.normalize uri
  let top ← store.entryAt base
  if top.isDir then
    return ⟨base, (store.filesBelow base).map fun entry =>
      ⟨Uri.relative entry.uri base, entry.content⟩⟩
  else return ⟨base, [⟨Uri.name base, top.content⟩]⟩

/-- The address of a file of a pack that is unpacked below a directory. -/
def packDestination (base : String) (file : PackFile) : Except Error (String × String) := do
  let joined := if Uri.isRoot base then base ++ file.path else base ++ "/" ++ file.path
  let destination ← Uri.normalize joined
  if destination = base then throw (.invalidArgument "pack file path is empty")
  return (destination, file.content)

/-- Write files one after another until one is refused. -/
def writeAll (now : Tick) : List (String × String) → Store → Outcome (List String)
  | [], store => (.ok [], store)
  | (uri, content) :: others, store =>
    match store.addResource uri content now with
    | (.error error, store) => (.error error, store)
    | (.ok entry, store) =>
      match writeAll now others store with
      | (.error error, store) => (.error error, store)
      | (.ok written, store) => (.ok (entry.uri :: written), store)

/-- Write the files of a pack below a directory. All addresses are checked before
anything is written. -/
def importPack (store : Store) (uri : String) (files : List PackFile) (now : Tick) :
    Outcome (List String) :=
  store.withUri uri fun base =>
    if files.isEmpty then (.error (.invalidArgument "pack has no files"), store)
    else
      match files.mapM (packDestination base) with
      | .error error => (.error error, store)
      | .ok planned => writeAll now planned store

end ContextDb.Store
