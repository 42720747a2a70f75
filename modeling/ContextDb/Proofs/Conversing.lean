import ContextDb.Proofs.Writing
import ContextDb.Store.Sessions

/-!
# Changing sessions

Removing a session and adding to one is refused and changes nothing, or the session
is there and nothing but the sessions changes.
-/

namespace ContextDb.Store

/-- Removing a session is refused, or the session is there and goes. -/
theorem deleteSession_cases (store : Store) (id : Uuid) :
    Refused store (store.deleteSession id) ∨
      (∃ session ∈ store.sessions, session.id = id) ∧
        store.deleteSession id =
          (.ok (), { store with sessions := store.sessions.filter (·.id ≠ id) }) := by
  unfold deleteSession
  split
  · rename_i known
    exact .inr ⟨by simpa using known, rfl⟩
  · exact .inl ⟨noSession id, by simp [noSession, Error.code], rfl⟩

/-- A message is refused, or its role is one of the three, the session is there, and
the message comes to stand at its end. -/
theorem addMessage_cases (store : Store) (id : Uuid) (role content : String) (now : Tick) :
    Refused store (store.addMessage id role content now) ∨
      role ∈ roles ∧ ∃ session, store.sessions.find? (·.id = id) = some session ∧
        store.addMessage id role content now =
          (.ok (appendMessage ⟨role, content, now⟩ session),
            { store with
              sessions := store.sessions.map fun held =>
                if held.id = id then appendMessage ⟨role, content, now⟩ session else held }) := by
  unfold addMessage
  split
  · exact .inl ⟨_, by simp [Error.code], rfl⟩
  · rename_i roleKnown
    cases found : store.sessions.find? (·.id = id) with
    | none => exact .inl ⟨noSession id, by simp [noSession, Error.code], rfl⟩
    | some session => exact .inr ⟨by simpa using roleKnown, session, rfl, rfl⟩

end ContextDb.Store
