import ContextDb.Store.Links
import ContextDb.Store.Packs
import ContextDb.Store.Search
import ContextDb.Store.Sessions

/-!
# Operations on the store

Everything that can be asked of the store, as data, with the answers. `step`
performs one operation, `run` several from the first to the last.
-/

namespace ContextDb

/-- An operation with its arguments. -/
inductive Operation where
  | addResource (uri content : String)
  | listResources (under : Option String)
  | mkdir (uri : String)
  | stat (uri : String)
  | ls (uri : String)
  | read (uri : String)
  | abstractOf (uri : String)
  | rm (uri : String) (recursive : Bool)
  | mv (source destination : String)
  | find (query : String) (target : Option String) (limit : Nat)
  | grep (target pattern : String) (caseInsensitive : Bool)
  | glob (pattern : String) (target : Option String)
  | exportPack (uri : String)
  | importPack (uri : String) (files : List PackFile)
  | link (source : String) (targets : List String) (reason : String)
  | unlink (source target : String)
  | relations (uri : String)
  | createSession
  | listSessions
  | getSession (id : Uuid)
  | deleteSession (id : Uuid)
  | addMessage (id : Uuid) (role content : String)
  deriving DecidableEq, Repr

/-- The answer to an operation. -/
inductive Answer where
  | entry (entry : Entry)
  | entries (entries : List Entry)
  | text (text : String)
  | uris (uris : List String)
  | hits (hits : List Hit)
  | lines (lines : List LineMatch)
  | pack (pack : Pack)
  | links (links : List Relation)
  | session (session : Session)
  | sessions (sessions : List Session)
  | done
  deriving DecidableEq, Repr

namespace Store

/-- The outcome of an operation that leaves the store as it is. -/
def unchanged {α : Type} (store : Store) (answer : α → Answer) (result : Except Error α) :
    Outcome Answer :=
  (result.map answer, store)

/-- The outcome of an operation that may have changed the store. -/
def answered {α : Type} (answer : α → Answer) (outcome : Outcome α) : Outcome Answer :=
  (outcome.1.map answer, outcome.2)

/-- Perform an operation. -/
def step (store : Store) (moment : Moment) : Operation → Outcome Answer
  | .addResource uri content => answered .entry (store.addResource uri content moment.now)
  | .listResources under => store.unchanged .entries (store.listResources under)
  | .mkdir uri => answered .entry (store.mkdir uri moment.now)
  | .stat uri => store.unchanged .entry (store.stat uri)
  | .ls uri => store.unchanged .entries (store.ls uri)
  | .read uri => store.unchanged .text (store.read uri)
  | .abstractOf uri => store.unchanged .text (store.abstractOf uri)
  | .rm uri recursive => answered .uris (store.rm uri recursive)
  | .mv source destination => answered .entry (store.mv source destination moment.now)
  | .find query target limit => store.unchanged .hits (store.find query target limit)
  | .grep target pattern caseInsensitive =>
    store.unchanged .lines (store.grep target pattern caseInsensitive)
  | .glob pattern target => store.unchanged .uris (store.glob pattern target)
  | .exportPack uri => store.unchanged .pack (store.exportPack uri)
  | .importPack uri files => answered .uris (store.importPack uri files moment.now)
  | .link source targets reason => answered .links (store.link source targets reason)
  | .unlink source target => answered (fun _ => .done) (store.unlink source target)
  | .relations uri => store.unchanged .links (store.relationsOf uri)
  | .createSession =>
    let (session, store) := store.createSession moment
    (.ok (.session session), store)
  | .listSessions => (.ok (.sessions store.listSessions), store)
  | .getSession id => store.unchanged .session (store.getSession id)
  | .deleteSession id => answered (fun _ => .done) (store.deleteSession id)
  | .addMessage id role content =>
    answered .session (store.addMessage id role content moment.now)

/-- Perform operations one after another, whether they succeed or fail. -/
def run (store : Store) (operations : List (Moment × Operation)) : Store :=
  operations.foldl (fun store (moment, operation) => (store.step moment operation).2) store

end Store

end ContextDb
