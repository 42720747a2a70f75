import ContextDb.Proofs.Failing
import ContextDb.Proofs.Transcript

/-!
# What operations do to sessions

What an operation does to the sessions is told by its exchange: nothing happens to them, or
one is opened, one is closed, or something is said in one. The other sessions stay as they
are, and so do entries and links.
-/

namespace ContextDb

/-- Whether an operation is about sessions. -/
def Operation.isConversation : Operation → Bool
  | .createSession | .listSessions | .getSession .. | .deleteSession .. | .addMessage .. => true
  | .addResource .. | .listResources .. | .mkdir .. | .stat .. | .ls .. | .read ..
  | .abstractOf .. | .rm .. | .mv .. | .find .. | .grep .. | .glob .. | .exportPack ..
  | .importPack .. | .link .. | .unlink .. | .relations .. => false

/-- Whether an operation is to change the session of an identifier, or to open it. -/
def Operation.concerns (moment : Moment) (id : Uuid) : Operation → Bool
  | .createSession => moment.freshId = id
  | .deleteSession addressed | .addMessage addressed .. => addressed = id
  | _ => false

namespace Store

variable {store : Store} {before sessions : List Session} {now : Tick} {turn : Option Turn}

/-- What a turn does to the sessions. -/
inductive Converses (now : Tick) (before : List Session) : Option Turn → List Session → Prop where
  | silent : Converses now before none before
  | opened (id : Uuid) :
      Converses now before (some (.opened id)) (before.filter (·.id ≠ id) ++ [⟨id, now, []⟩])
  | closed (id : Uuid) :
      Converses now before (some (.closed id)) (before.filter (·.id ≠ id))
  | said {id : Uuid} {role : String} {session : Session} (content : String)
      (found : before.find? (·.id = id) = some session) (known : role ∈ roles) :
      Converses now before (some (.said id role content))
        (before.map fun held =>
          if held.id = id then appendMessage ⟨role, content, now⟩ session else held)

/-- An operation that is refused leaves the sessions alone. -/
theorem converses_of_refused {moment : Moment} {operation : Operation}
    (refused : Refused store (store.step moment operation)) :
    Converses moment.now store.sessions (store.exchange moment operation).turn?
      (store.step moment operation).2.sessions := by
  obtain ⟨error, _, failed⟩ := refused
  have silent : (store.exchange moment operation).turn? = none := by
    rw [exchange, failed]
    cases operation <;> rfl
  rw [silent, failed]
  exact .silent

/-- An operation on the tree or the links leaves the sessions alone. -/
theorem sessions_step (sound : Sound store) (moment : Moment) {operation : Operation}
    (other : operation.isConversation = false) :
    (store.step moment operation).2.sessions = store.sessions := by
  cases operation with
  | addResource uri content => exact (grown_addResource sound.tree uri content moment.now).sessions
  | mkdir uri => exact (grown_mkdir sound.tree uri moment.now).sessions
  | importPack uri files => exact (grown_importPack sound.tree uri files moment.now).sessions
  | rm uri recursive =>
    rcases rm_cases store uri recursive with ⟨_, _, done⟩ | ⟨_, _, _, done⟩ <;>
      simp [step, answered, done]
  | mv source destination =>
    rcases mv_cases sound.tree source destination moment.now with
      ⟨_, _, done⟩ | ⟨_, _, _, _, _, _, _, done⟩ <;> simp [step, answered, done]
  | link source targets reason =>
    rcases link_cases store source targets reason with ⟨_, _, done⟩ | ⟨_, _, _, _, _, _, done⟩ <;>
      simp [step, answered, done]
  | unlink source target =>
    rcases unlink_cases store source target with ⟨_, _, done⟩ | ⟨_, _, _, _, _, _, _, done⟩ <;>
      simp [step, answered, done]
  | listResources | stat | ls | read | abstractOf | find | grep | glob | exportPack
  | relations => rfl
  | createSession | listSessions | getSession | deleteSession | addMessage => cases other

/-- Every operation does to the sessions what its exchange tells. -/
theorem converses_step (sound : Sound store) (moment : Moment) (operation : Operation) :
    Converses moment.now store.sessions (store.exchange moment operation).turn?
      (store.step moment operation).2.sessions := by
  cases operation with
  | createSession => exact .opened moment.freshId
  | deleteSession id =>
    rcases deleteSession_cases store id with refused | ⟨_, done⟩
    · exact converses_of_refused (refused.answered _)
    · simp only [exchange, step, answered, done]
      exact .closed id
  | addMessage id role content =>
    rcases addMessage_cases store id role content moment.now with
      refused | ⟨known, session, found, done⟩
    · exact converses_of_refused (refused.answered _)
    · simp only [exchange, step, answered, done]
      exact .said content found known
  | listSessions | getSession => exact .silent
  | addResource | mkdir | importPack | rm | mv | link | unlink | listResources | stat | ls | read
  | abstractOf | find | grep | glob | exportPack | relations =>
    rw [sessions_step sound moment rfl]
    exact .silent

/-- An operation on sessions leaves entries and links alone. -/
theorem tree_step (store : Store) (moment : Moment) {operation : Operation}
    (conversation : operation.isConversation = true) :
    (store.step moment operation).2.entries = store.entries ∧
      (store.step moment operation).2.relations = store.relations := by
  cases operation with
  | createSession | listSessions | getSession => exact ⟨rfl, rfl⟩
  | deleteSession id =>
    rcases deleteSession_cases store id with ⟨_, _, done⟩ | ⟨_, done⟩ <;>
      simp [step, answered, done]
  | addMessage id role content =>
    rcases addMessage_cases store id role content moment.now with
      ⟨_, _, done⟩ | ⟨_, _, _, done⟩ <;> simp [step, answered, done]
  | addResource | mkdir | importPack | rm | mv | link | unlink | listResources | stat | ls | read
  | abstractOf | find | grep | glob | exportPack | relations => cases conversation

/-! ## The other sessions -/

/-- The session that a turn is about. -/
def Turn.about : Turn → Uuid
  | .opened id | .closed id | .said id .. => id

/-- Removing a session keeps the others in their places. -/
theorem find?_without {closed id : Uuid} (different : closed ≠ id) :
    (before.filter (·.id ≠ closed)).find? (·.id = id) = before.find? (·.id = id) := by
  rw [List.find?_filter]
  congr 1
  funext held
  by_cases same : held.id = id <;> simp [same, different.symm]

/-- Replacing a session by one of the same identifier keeps the others in their places. -/
theorem find?_replaced {replaced id : Uuid} (different : replaced ≠ id) {session : Session}
    (sameId : session.id = replaced) :
    (before.map fun held => if held.id = replaced then session else held).find? (·.id = id) =
      before.find? (·.id = id) := by
  have sameTest : ((fun held : Session => decide (held.id = id)) ∘ fun held =>
      if held.id = replaced then session else held) = fun held => decide (held.id = id) := by
    funext held
    by_cases isReplaced : held.id = replaced <;> simp [isReplaced, sameId]
  rw [List.find?_map, sameTest]
  cases found : before.find? (·.id = id) with
  | none => rfl
  | some held =>
    have isOther : held.id = id := by simpa using List.find?_some found
    simp [isOther, different.symm]

/-- A turn leaves the sessions that it is not about. -/
theorem Converses.find?_eq (converses : Converses now before turn sessions) (id : Uuid)
    (elsewhere : ∀ told ∈ turn, told.about ≠ id) :
    sessions.find? (·.id = id) = before.find? (·.id = id) := by
  cases converses with
  | silent => rfl
  | opened opened =>
    have different : opened ≠ id := elsewhere _ rfl
    rw [List.find?_append, find?_without different]
    simp [different]
  | closed closed => exact find?_without (elsewhere _ rfl)
  | said content found known =>
    refine find?_replaced (elsewhere _ rfl) ?_
    simpa [appendMessage, Turn.about] using List.find?_some found

/-- An exchange tells of the session that its operation concerns. -/
theorem concerns_of_turn? {moment : Moment} {operation : Operation} {told : Turn}
    (isTold : (store.exchange moment operation).turn? = some told) :
    operation.concerns moment told.about = true := by
  rw [exchange] at isTold
  cases operation with
  | createSession =>
    cases isTold
    exact decide_eq_true rfl
  | deleteSession | addMessage =>
    generalize (store.step moment _).1 = answer at isTold
    cases answer <;> cases isTold
    exact decide_eq_true rfl
  | listSessions | getSession => cases isTold
  | addResource | mkdir | importPack | rm | mv | link | unlink | listResources | stat | ls | read
  | abstractOf | find | grep | glob | exportPack | relations => cases isTold

/-- An operation leaves the sessions that it does not concern. -/
theorem getSession_step (sound : Sound store) (moment : Moment) {operation : Operation}
    {id : Uuid} (elsewhere : operation.concerns moment id = false) :
    (store.step moment operation).2.getSession id = store.getSession id := by
  have notAbout : ∀ told ∈ (store.exchange moment operation).turn?, told.about ≠ id := by
    rintro told isTold rfl
    rw [concerns_of_turn? isTold] at elsewhere
    cases elsewhere
  rw [getSession, getSession, (converses_step sound moment operation).find?_eq id notAbout]

end Store

end ContextDb
