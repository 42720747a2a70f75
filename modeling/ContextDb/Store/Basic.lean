import ContextDb.Error
import ContextDb.SortedMap
import ContextDb.Store.Entry
import ContextDb.Uri

/-!
# The store

The state of the service: the context tree, the links between its entries and
the sessions. An operation on the store gives its answer, or an error, together
with the store as it is afterwards; operations that only read give the answer
alone.
-/

namespace ContextDb

/-- The state of the service. Entries are kept under their addresses and links
under the address of their source; sessions are in the order of creation. -/
structure Store where
  entries : SortedMap Entry
  relations : SortedMap (List Relation)
  sessions : List Session

/-- What an operation needs from outside: the time, and an identifier that has
not been used. -/
structure Moment where
  now : Tick
  freshId : Uuid

namespace Store

/-- The result of an operation that may change the store. -/
abbrev Outcome (α : Type) := Except Error α × Store

/-- The store in which nothing but the root exists. -/
def empty (now : Tick) : Store where
  entries := .single Uri.scheme (.newDir Uri.scheme now)
  relations := .empty
  sessions := []

/-- The number of entries, of links and of sessions. -/
def counts (store : Store) : Nat × Nat × Nat :=
  let links := store.relations.values.foldr (fun links total => links.length + total) 0
  (store.entries.size, links, store.sessions.length)

/-- The files strictly below a directory, in the order of their addresses. -/
def filesBelow (store : Store) (base : String) : List Entry :=
  store.entries.values.filter fun entry => entry.isFile && Uri.isBelow entry.uri base

/-- The files at or below an address, in the order of their addresses. -/
def filesWithin (store : Store) (base : String) : List Entry :=
  store.entries.values.filter fun entry =>
    entry.isFile && (entry.uri = base || Uri.isBelow entry.uri base)

/-- Go on with the normal form of an address. -/
def withUri {α : Type} (store : Store) (uri : String) (continue_ : String → Outcome α) :
    Outcome α :=
  match Uri.normalize uri with
  | .error error => (.error error, store)
  | .ok normal => continue_ normal

end Store

end ContextDb
