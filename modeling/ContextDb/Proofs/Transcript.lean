import ContextDb.Proofs.Conversing
import ContextDb.Store.Operation
import Mathlib.Data.List.Basic

/-!
# What was asked and answered

The transcript of a run lists its operations with their answers. From it alone one can
tell which sessions were opened, which of them have been closed since, and what was said
in them.
-/

namespace ContextDb.Store

/-- An operation with its moment and its answer. -/
structure Exchange where
  moment : Moment
  operation : Operation
  answer : Except Error Answer

/-- The exchange about an operation on a store. -/
def exchange (store : Store) (moment : Moment) (operation : Operation) : Exchange :=
  ⟨moment, operation, (store.step moment operation).1⟩

/-- The exchanges of a run, from the first to the last. -/
def transcript (store : Store) : List (Moment × Operation) → List Exchange
  | [] => []
  | (moment, operation) :: others =>
    store.exchange moment operation :: transcript (store.step moment operation).2 others

/-- What can happen to sessions: one is opened or closed, or somebody says something in
one. -/
inductive Turn where
  | opened (id : Uuid)
  | closed (id : Uuid)
  | said (id : Uuid) (role content : String)

/-- What happened to a session in an exchange, if the operation succeeded and was one that
changes sessions. -/
def Exchange.turn? (exchange : Exchange) : Option Turn :=
  match exchange.operation, exchange.answer with
  | .createSession, .ok (.session session) => some (.opened session.id)
  | .deleteSession id, .ok _ => some (.closed id)
  | .addMessage id role content, .ok _ => some (.said id role content)
  | _, _ => none

/-- The session that a turn opened. -/
def Turn.opened? : Turn → Option Uuid
  | .opened id => some id
  | _ => none

/-- What a turn says in a session, and by whom. -/
def Turn.said? (id : Uuid) : Turn → Option (String × String)
  | .said addressed role content => if addressed = id then some (role, content) else none
  | _ => none

/-- Who says a message, and what. -/
def said (message : Message) : String × String :=
  (message.role, message.content)

/-- The turns of a transcript. -/
def turns (log : List Exchange) : List Turn :=
  log.filterMap Exchange.turn?

/-- The sessions that were opened, from the first to the last. -/
def openedIn (log : List Exchange) : List Uuid :=
  (turns log).filterMap Turn.opened?

/-- What was said in a session, from the first message to the last. -/
def saidIn (id : Uuid) (log : List Exchange) : List (String × String) :=
  (turns log).filterMap (Turn.said? id)

/-- A session was opened in an exchange and has not been closed in those since. -/
structure OpenSince (log : List Exchange) (id : Uuid) (opening : Exchange)
    (since : List Exchange) : Prop where
  suffix : opening :: since <:+ log
  opened : opening.turn? = some (.opened id)
  kept : ∀ later ∈ since, later.turn? ≠ some (.closed id)

/-- A session has been opened and not been closed since. -/
def IsOpen (log : List Exchange) (id : Uuid) : Prop :=
  ∃ opening since, OpenSince log id opening since

variable {log since : List Exchange} {opening last : Exchange} {id : Uuid}

theorem run_concat (store : Store) (operations : List (Moment × Operation)) (moment : Moment)
    (operation : Operation) :
    store.run (operations ++ [(moment, operation)]) =
      ((store.run operations).step moment operation).2 := by
  simp [run]

/-- The last operation of a run is performed on the store that the others lead to. -/
theorem transcript_concat (store : Store) (operations : List (Moment × Operation))
    (moment : Moment) (operation : Operation) :
    transcript store (operations ++ [(moment, operation)]) =
      transcript store operations ++ [(store.run operations).exchange moment operation] := by
  induction operations generalizing store with
  | nil => rfl
  | cons first others inductionHypothesis =>
    simp only [List.cons_append, transcript, inductionHypothesis]
    rfl

theorem openedIn_concat :
    openedIn (log ++ [last]) = openedIn log ++ (last.turn?.bind Turn.opened?).toList := by
  cases turn : last.turn? with
  | none => simp [openedIn, turns, turn]
  | some turn' => cases opened : turn'.opened? <;> simp [openedIn, turns, turn, opened]

theorem saidIn_concat :
    saidIn id (log ++ [last]) = saidIn id log ++ (last.turn?.bind (Turn.said? id)).toList := by
  cases turn : last.turn? with
  | none => simp [saidIn, turns, turn]
  | some turn' => cases said : turn'.said? id <;> simp [saidIn, turns, turn, said]

/-- A session that is open after an exchange was opened in it, or before and not closed
in it. -/
theorem openSince_concat_iff :
    OpenSince (log ++ [last]) id opening since ↔
      (opening = last ∧ since = [] ∧ last.turn? = some (.opened id)) ∨
      ∃ earlier, since = earlier ++ [last] ∧ OpenSince log id opening earlier ∧
        last.turn? ≠ some (.closed id) := by
  constructor
  · rintro ⟨suffix, opened, kept⟩
    rcases List.suffix_concat_iff.1 suffix with none | ⟨before, whole, earlierSuffix⟩
    · cases none
    · cases before with
      | nil =>
        cases whole
        exact .inl ⟨rfl, rfl, opened⟩
      | cons first earlier =>
        cases whole
        refine .inr ⟨earlier, rfl, ⟨earlierSuffix, opened, fun later member => ?_⟩, ?_⟩
        · exact kept later (List.mem_append_left _ member)
        · exact kept last (List.mem_append_right _ List.mem_cons_self)
  · rintro (⟨rfl, rfl, opened⟩ | ⟨earlier, rfl, ⟨suffix, opened, kept⟩, notClosed⟩)
    · exact ⟨List.suffix_append log _, opened, by simp⟩
    · refine ⟨List.suffix_concat_iff.2 (.inr ⟨opening :: earlier, rfl, suffix⟩), opened, ?_⟩
      intro later member
      rcases List.mem_append.1 member with before | here
      · exact kept later before
      · rw [List.mem_singleton.1 here]
        exact notClosed

/-- A session is open after an exchange if it was opened in it, or was open before and is
not closed in it. -/
theorem isOpen_concat_iff :
    IsOpen (log ++ [last]) id ↔
      last.turn? = some (.opened id) ∨ IsOpen log id ∧ last.turn? ≠ some (.closed id) := by
  simp only [IsOpen, openSince_concat_iff]
  constructor
  · rintro ⟨opening, since, ⟨_, _, opened⟩ | ⟨earlier, _, open_, notClosed⟩⟩
    · exact .inl opened
    · exact .inr ⟨⟨opening, earlier, open_⟩, notClosed⟩
  · rintro (opened | ⟨⟨opening, earlier, open_⟩, notClosed⟩)
    · exact ⟨last, [], .inl ⟨rfl, rfl, opened⟩⟩
    · exact ⟨opening, _, .inr ⟨earlier, rfl, open_, notClosed⟩⟩

/-- An open session is among those that were opened. -/
theorem OpenSince.mem_openedIn (isOpen : OpenSince log id opening since) : id ∈ openedIn log :=
  List.mem_filterMap.2 ⟨.opened id, List.mem_filterMap.2
    ⟨opening, isOpen.suffix.subset List.mem_cons_self, isOpen.opened⟩, rfl⟩

end ContextDb.Store
