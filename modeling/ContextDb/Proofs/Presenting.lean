import ContextDb.Proofs.Traversal
import ContextDb.Rest.Call

/-!
# How results are presented

What each operation of the store results in, in JSON: the fields of entries, links, sessions
and answers to queries with their names and in their order. The service presents exactly
this. An operation that fails is told by a status, a code and a message.
-/

namespace ContextDb.Rest

variable {store : Store} {moment : Moment} {operation : Operation} {value : Json}

/-- The form in which an entry is told: all of it but its content. -/
def entryForm (entry : Entry) : Json :=
  .obj [("uri", .str entry.uri),
    ("kind", .str (match entry.kind with | .dir => "dir" | .file => "file")),
    ("size", .num (.int entry.size)), ("created_at", .num (.int entry.createdAt)),
    ("updated_at", .num (.int entry.updatedAt))]

/-- The form in which a link is told to those who know its source. -/
def linkForm (link : Relation) : Json :=
  .obj [("uri", .str link.uri), ("reason", .str link.reason)]

/-- The form in which a session is told with all its messages. -/
def sessionForm (session : Session) : Json :=
  .obj [("id", .str session.id.toString), ("created_at", .num (.int session.createdAt)),
    ("messages", .arr (session.messages.map fun message =>
      .obj [("role", .str message.role), ("content", .str message.content),
        ("created_at", .num (.int message.createdAt))]))]

/-- What an operation on a store results in, if it succeeds. -/
inductive Results (store : Store) (moment : Moment) : Operation → Json → Prop
  | addResource {uri content : String} {entry : Entry}
      (succeeds : (store.addResource uri content moment.now).1 = .ok entry) :
      Results store moment (.addResource uri content) (entryForm entry)
  | listResources {under : Option String} {entries : List Entry}
      (succeeds : store.listResources under = .ok entries) :
      Results store moment (.listResources under) (.arr (entries.map entryForm))
  | mkdir {uri : String} {entry : Entry} (succeeds : (store.mkdir uri moment.now).1 = .ok entry) :
      Results store moment (.mkdir uri) (entryForm entry)
  | stat {uri : String} {entry : Entry} (succeeds : store.stat uri = .ok entry) :
      Results store moment (.stat uri) (entryForm entry)
  | ls {uri : String} {entries : List Entry} (succeeds : store.ls uri = .ok entries) :
      Results store moment (.ls uri) (.arr (entries.map entryForm))
  | read {uri content : String} (succeeds : store.read uri = .ok content) :
      Results store moment (.read uri) (.obj [("uri", .str uri), ("content", .str content)])
  | abstractOf {uri content : String} (succeeds : store.abstractOf uri = .ok content) :
      Results store moment (.abstractOf uri)
        (.obj [("uri", .str uri), ("content", .str content)])
  | rm {uri : String} {recursive : Bool} {removed : List String}
      (succeeds : (store.rm uri recursive).1 = .ok removed) :
      Results store moment (.rm uri recursive) (.obj [("removed", .arr (removed.map .str))])
  | mv {source destination : String} {entry : Entry}
      (succeeds : (store.mv source destination moment.now).1 = .ok entry) :
      Results store moment (.mv source destination) (entryForm entry)
  | find {query : String} {target : Option String} {limit : Nat} {hits : List Hit}
      (succeeds : store.find query target limit = .ok hits) :
      Results store moment (.find query target limit) (.arr (hits.map fun hit =>
        .obj [("uri", .str hit.uri), ("score", .num (.float (.ofNat hit.score))),
          ("snippet", .str hit.snippet)]))
  | grep {target pattern : String} {caseInsensitive : Bool} {lines : List LineMatch}
      (succeeds : store.grep target pattern caseInsensitive = .ok lines) :
      Results store moment (.grep target pattern caseInsensitive) (.arr (lines.map fun found =>
        .obj [("uri", .str found.uri), ("line", .num (.int found.line)),
          ("content", .str found.content)]))
  | glob {pattern : String} {target : Option String} {uris : List String}
      (succeeds : store.glob pattern target = .ok uris) :
      Results store moment (.glob pattern target) (.arr (uris.map .str))
  | exportPack {uri : String} {pack : Pack} (succeeds : store.exportPack uri = .ok pack) :
      Results store moment (.exportPack uri) (.obj [("uri", .str pack.uri),
        ("files", .arr (pack.files.map fun file =>
          .obj [("path", .str file.path), ("content", .str file.content)]))])
  | importPack {uri : String} {files : List PackFile} {uris : List String}
      (succeeds : (store.importPack uri files moment.now).1 = .ok uris) :
      Results store moment (.importPack uri files) (.arr (uris.map .str))
  | link {source reason : String} {targets : List String} {links : List Relation}
      (succeeds : (store.link source targets reason).1 = .ok links) :
      Results store moment (.link source targets reason) (.arr (links.map linkForm))
  | unlink {source target : String} (succeeds : (store.unlink source target).1 = .ok ()) :
      Results store moment (.unlink source target) .null
  | relations {uri : String} {links : List Relation}
      (succeeds : store.relationsOf uri = .ok links) :
      Results store moment (.relations uri) (.arr (links.map linkForm))
  | createSession :
      Results store moment .createSession (sessionForm (store.createSession moment).1)
  | listSessions :
      Results store moment .listSessions (.arr (store.listSessions.map fun session =>
        .obj [("id", .str session.id.toString), ("created_at", .num (.int session.createdAt)),
          ("message_count", .num (.int session.messages.length))]))
  | getSession {id : Uuid} {session : Session} (succeeds : store.getSession id = .ok session) :
      Results store moment (.getSession id) (sessionForm session)
  | deleteSession {id : Uuid} (succeeds : (store.deleteSession id).1 = .ok ()) :
      Results store moment (.deleteSession id) .null
  | addMessage {id : Uuid} {role content : String} {session : Session}
      (succeeds : (store.addMessage id role content moment.now).1 = .ok session) :
      Results store moment (.addMessage id role content) (sessionForm session)

/-- How an error is told: its status, its code and its message. -/
inductive ToldAs : Error → Nat → String → String → Prop
  | notFound {what : String} : ToldAs (.notFound what) 404 "NOT_FOUND" ("Not found: " ++ what)
  | alreadyExists {what : String} :
      ToldAs (.alreadyExists what) 409 "ALREADY_EXISTS" ("Already exists: " ++ what)
  | invalidArgument {reason : String} :
      ToldAs (.invalidArgument reason) 400 "INVALID_ARGUMENT" ("Invalid argument: " ++ reason)
  | invalidUri {reason : String} :
      ToldAs (.invalidUri reason) 400 "INVALID_URI" ("Invalid URI: " ++ reason)
  | failedPrecondition {reason : String} :
      ToldAs (.failedPrecondition reason) 412 "FAILED_PRECONDITION"
        ("Failed precondition: " ++ reason)
  | unauthenticated {reason : String} :
      ToldAs (.unauthenticated reason) 401 "UNAUTHENTICATED" reason
  | config {reason : String} : ToldAs (.config reason) 500 "INTERNAL" ("Config error: " ++ reason)
  | io {reason : String} : ToldAs (.io reason) 500 "INTERNAL" ("IO error: " ++ reason)
  | json {reason : String} : ToldAs (.json reason) 500 "INTERNAL" ("JSON error: " ++ reason)
  | toml {reason : String} : ToldAs (.toml reason) 500 "INTERNAL" ("TOML error: " ++ reason)
  | internal {reason : String} : ToldAs (.internal reason) 500 "INTERNAL" reason

/-! ## What is presented -/

/-- The service tells every error in this way. -/
theorem toldAs (error : Error) :
    ToldAs error (Error.statusOf error.code.name) error.code.name error.message := by
  cases error <;> constructor

/-- What is presented of the answer to an operation is what it results in. -/
theorem results_of_answer {answer : Answer}
    (succeeds : (store.step moment operation).1 = .ok answer) :
    Results store moment operation (present operation answer) := by
  cases operation with
  | createSession | listSessions =>
    cases succeeds
    constructor
  | addResource | listResources | mkdir | stat | ls | read | abstractOf | rm | mv | find | grep
  | glob | exportPack | importPack | link | unlink | relations | getSession | deleteSession
  | addMessage =>
    obtain ⟨_, done, rfl⟩ := map_eq_ok_iff.1 succeeds
    constructor
    exact done

end ContextDb.Rest
