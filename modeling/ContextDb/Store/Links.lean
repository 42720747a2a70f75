import ContextDb.Store.Basic

/-!
# Links

Every entry has a list of links to other entries, at most one to each.
-/

namespace ContextDb.Store

/-- Give the link to a target a reason, adding the link at the end if it is
missing. -/
def setLink (reason : String) (links : List Relation) (target : String) : List Relation :=
  if links.any (·.uri = target) then
    links.map fun link => if link.uri = target then { link with reason } else link
  else links ++ [⟨target, reason⟩]

/-- Link an entry to others. All of them must exist. -/
def link (store : Store) (source : String) (targets : List String) (reason : String) :
    Outcome (List Relation) :=
  store.withUri source fun source =>
    match targets.mapM Uri.normalize with
    | .error error => (.error error, store)
    | .ok targets =>
      if targets.isEmpty then (.error (.invalidArgument "no target URIs given"), store)
      else
        match (source :: targets).find? fun uri => !store.entries.contains uri with
        | some missing => (.error (.notFound missing), store)
        | none =>
          let links := targets.foldl (setLink reason) ((store.relations.get? source).getD [])
          (.ok links, { store with relations := store.relations.insert source links })

/-- Remove the link from one entry to another. -/
def unlink (store : Store) (source target : String) : Outcome Unit :=
  store.withUri source fun source =>
  store.withUri target fun target =>
    match store.relations.get? source with
    | none => (.error (.notFound ("no relations from " ++ source)), store)
    | some links =>
      let kept := links.filter (·.uri ≠ target)
      if kept.length = links.length then
        (.error (.notFound ("no relation " ++ source ++ " -> " ++ target)), store)
      else if kept.isEmpty then
        (.ok (), { store with relations := store.relations.erase source })
      else (.ok (), { store with relations := store.relations.insert source kept })

/-- The links of an entry. -/
def relationsOf (store : Store) (uri : String) : Except Error (List Relation) := do
  let source ← Uri.normalize uri
  return (store.relations.get? source).getD []

end ContextDb.Store
