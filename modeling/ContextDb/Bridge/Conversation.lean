import ContextDb.Bridge.Rpc

/-!
# Conversations with agents

A conversation opens when the agent introduces itself and, once it has the
answer, confirms. The first introduction settles the version of the protocol.
-/

namespace ContextDb.Bridge

open Rpc

/-- How far a conversation has come. -/
inductive Stage where
  /-- the agent has not introduced itself -/
  | opening
  /-- the agent has been answered and has to confirm -/
  | introduced
  | confirmed
  /-- the agent has sent another notification than the one that was due -/
  | broken
  deriving DecidableEq, Repr

namespace Stage

/-- The version of the protocol that the bridge speaks. -/
def ownVersion : String := "2025-03-26"

/-- The version that is named in the answer to an introduction: in the opening
the older one of the two, later the own one. -/
def answeredVersion (stage : Stage) (offered : String) : String :=
  if stage = .opening && offered < ownVersion then offered else ownVersion

/-- The stage after a notification. -/
def afterNotification (stage : Stage) (method : String) : Stage :=
  match stage with
  | .opening | .broken => .broken
  | .introduced => if method = "notifications/initialized" then .confirmed else .broken
  | .confirmed => .confirmed

/-- The stage after a request that can be answered. -/
def afterQuery (stage : Stage) : Query → Stage
  | .introduce _ => if stage = .opening then .introduced else stage
  | _ => stage

end Stage

/-- A conversation and the store it is about. -/
structure Conversation where
  stage : Stage
  store : Store

namespace Conversation

/-- A conversation that begins about a store. -/
def begin (store : Store) : Conversation :=
  ⟨.opening, store⟩

/-- A request as it is performed at a stage. -/
def atStage (stage : Stage) : Query → Query
  | .introduce offered => .introduce (stage.answeredVersion offered)
  | query => query

/-- Answer a request. -/
def answerRequest (conversation : Conversation) (bridge : Bridge) (id : Identifier)
    (method : String) (parameters : Option Json) : Json × Conversation :=
  match Query.ofMethod? parameters method with
  | none => (reply id (.error (methodNotFound method)), conversation)
  | some query =>
    let (result, store) :=
      perform bridge conversation.store (atStage conversation.stage query)
    (reply id result, ⟨conversation.stage.afterQuery query, store⟩)

/-- Answer a message. A notification changes nothing in the store and gets no
reply, and neither does what is no message. -/
def answer (conversation : Conversation) (bridge : Bridge) (message : Json) :
    Option Json × Conversation :=
  match Message.ofJson? message with
  | none => (none, conversation)
  | some (.notification method) =>
    (none, { conversation with stage := conversation.stage.afterNotification method })
  | some (.request id method parameters) =>
    let (reply, conversation) := conversation.answerRequest bridge id method parameters
    (some reply, conversation)

/-- Answer a message in a line of text. -/
def answerLine (conversation : Conversation) (bridge : Bridge) (line : String) :
    Option String × Conversation :=
  match Json.ofText? line with
  | none => (none, conversation)
  | some message =>
    let (reply, conversation) := conversation.answer bridge message
    (reply.map Json.render, conversation)

end Conversation

end ContextDb.Bridge
