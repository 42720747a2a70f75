import ContextDb.Store.Basic

/-!
# Sessions

Conversations are logs of messages, each by one of three roles.
-/

namespace ContextDb.Store

/-- The roles that a message may have. -/
def roles : List String := ["user", "assistant", "system"]

/-- Open a session without messages. -/
def createSession (store : Store) (moment : Moment) : Session × Store :=
  let session : Session := ⟨moment.freshId, moment.now, []⟩
  (session,
    { store with sessions := store.sessions.filter (·.id ≠ moment.freshId) ++ [session] })

/-- All sessions, the oldest first. -/
def listSessions (store : Store) : List Session :=
  store.sessions.mergeSort Session.precedes

/-- The error for a session that does not exist. -/
def noSession (id : Uuid) : Error :=
  .notFound ("session " ++ id.toString)

/-- A session with its messages. -/
def getSession (store : Store) (id : Uuid) : Except Error Session :=
  match store.sessions.find? (·.id = id) with
  | some session => .ok session
  | none => .error (noSession id)

/-- Remove a session. -/
def deleteSession (store : Store) (id : Uuid) : Outcome Unit :=
  if store.sessions.any (·.id = id) then
    (.ok (), { store with sessions := store.sessions.filter (·.id ≠ id) })
  else (.error (noSession id), store)

/-- A session with one more message. -/
def appendMessage (message : Message) (session : Session) : Session :=
  { session with messages := session.messages ++ [message] }

/-- Append a message to a session. -/
def addMessage (store : Store) (id : Uuid) (role content : String) (now : Tick) :
    Outcome Session :=
  if !roles.contains role then
    (.error (.invalidArgument ("role must be one of " ++ ", ".intercalate roles)), store)
  else
    match store.sessions.find? (·.id = id) with
    | none => (.error (noSession id), store)
    | some session =>
      let longer := appendMessage ⟨role, content, now⟩ session
      (.ok longer,
        { store with
          sessions := store.sessions.map fun held => if held.id = id then longer else held })

end ContextDb.Store
