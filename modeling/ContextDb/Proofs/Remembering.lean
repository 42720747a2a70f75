import ContextDb.Proofs.Turns
import Mathlib.Data.List.Induction
import Mathlib.Data.List.Nodup

/-!
# Sessions and transcripts

Every operation does to the sessions what its exchange tells. So the sessions of a store
follow from the transcript of the run that led to it.
-/

namespace ContextDb.Store

variable {log since : List Exchange} {last opening : Exchange}
  {before sessions : List Session} {id : Uuid} {now : Tick} {turn : Option Turn}

/-- A session has what was said since it was opened, and nobody but the three roles has
said anything in it. -/
structure Tells (log : List Exchange) (session : Session) : Prop where
  since : ∀ opening since, OpenSince log session.id opening since →
    session.createdAt = opening.moment.now ∧
      session.messages.map said = saidIn session.id since
  byRoles : ∀ message ∈ session.messages, message.role ∈ roles

/-- The sessions are those that are open, in the order in which they were opened, and each
has what was said since. -/
structure Recorded (log : List Exchange) (sessions : List Session) : Prop where
  ordered : (sessions.map (·.id)).Sublist (openedIn log)
  open_iff : ∀ id, (∃ session ∈ sessions, session.id = id) ↔ IsOpen log id
  tells : ∀ session ∈ sessions, Tells log session

/-- A session still has what was said since it was opened if it takes up what an exchange
adds. -/
theorem Tells.extend {session longer : Session} (tells : Tells log session)
    (notOpened : last.turn? ≠ some (.opened session.id)) (sameId : longer.id = session.id)
    (sameTime : longer.createdAt = session.createdAt)
    (added : longer.messages.map said =
      session.messages.map said ++ (last.turn?.bind (Turn.said? session.id)).toList)
    (byRoles : ∀ message ∈ longer.messages, message.role ∈ roles) :
    Tells (log ++ [last]) longer where
  since := by
    intro opening since isOpen
    rw [sameId] at isOpen ⊢
    rcases openSince_concat_iff.1 isOpen with ⟨_, _, opened⟩ | ⟨earlier, rfl, wasOpen, _⟩
    · exact absurd opened notOpened
    · obtain ⟨time, messages⟩ := tells.since opening earlier wasOpen
      exact ⟨sameTime.trans time, by rw [added, messages, saidIn_concat]⟩
  byRoles := byRoles

/-- An exchange that is not about a session leaves what it tells. -/
theorem Tells.keep {session : Session} (tells : Tells log session)
    (notOpened : last.turn? ≠ some (.opened session.id))
    (silent : last.turn?.bind (Turn.said? session.id) = none) : Tells (log ++ [last]) session :=
  tells.extend notOpened rfl rfl (by simp [silent]) tells.byRoles

/-- A session that has just been opened for the first time has no messages. -/
theorem tells_opened (opened : last.turn? = some (.opened id)) (fresh : id ∉ openedIn log) :
    Tells (log ++ [last]) ⟨id, last.moment.now, []⟩ where
  since := by
    intro opening since isOpen
    rcases openSince_concat_iff.1 isOpen with ⟨rfl, rfl, _⟩ | ⟨_, _, wasOpen, _⟩
    · exact ⟨rfl, rfl⟩
    · exact absurd wasOpen.mem_openedIn fresh
  byRoles := by simp

namespace Recorded

/-- Nothing happens to the sessions. -/
theorem silent (recorded : Recorded log before) (turn : last.turn? = none) :
    Recorded (log ++ [last]) before where
  ordered := by simpa [openedIn_concat, turn] using recorded.ordered
  open_iff id := by simp [isOpen_concat_iff, turn, recorded.open_iff]
  tells session member :=
    (recorded.tells session member).keep (by simp [turn]) (by simp [turn])

/-- A session is opened for the first time. -/
theorem opened (recorded : Recorded log before) (turn : last.turn? = some (.opened id))
    (fresh : id ∉ openedIn log) :
    Recorded (log ++ [last]) (before.filter (·.id ≠ id) ++ [⟨id, last.moment.now, []⟩]) where
  ordered := by
    rw [openedIn_concat, turn, List.map_append]
    exact ((List.filter_sublist.map _).trans recorded.ordered).append (.refl _)
  open_iff other := by
    rw [isOpen_concat_iff, ← recorded.open_iff, turn]
    by_cases same : id = other
    · simp [same]
    · simp only [List.mem_append, List.mem_filter, List.mem_singleton, Option.some.injEq,
        Turn.opened.injEq, same, false_or, ne_eq, reduceCtorEq, not_false_eq_true, and_true,
        decide_eq_true_eq]
      constructor
      · rintro ⟨session, ⟨member, _⟩ | rfl, isOther⟩
        · exact ⟨session, member, isOther⟩
        · exact absurd isOther same
      · rintro ⟨session, member, isOther⟩
        exact ⟨session, .inl ⟨member, fun isId => same (isId.symm.trans isOther)⟩, isOther⟩
  tells session member := by
    rcases List.mem_append.1 member with old | new
    · obtain ⟨old, different⟩ := List.mem_filter.1 old
      have different : session.id ≠ id := by simpa using different
      refine (recorded.tells session old).keep ?_ (by simp [turn, Turn.said?])
      simpa [turn] using different.symm
    · rw [List.mem_singleton.1 new]
      exact tells_opened turn fresh

/-- A session is closed. -/
theorem closed (recorded : Recorded log before) (turn : last.turn? = some (.closed id)) :
    Recorded (log ++ [last]) (before.filter (·.id ≠ id)) where
  ordered := by
    simpa [openedIn_concat, turn, Turn.opened?] using
      (List.filter_sublist.map _).trans recorded.ordered
  open_iff other := by
    rw [isOpen_concat_iff, ← recorded.open_iff, turn]
    simp only [List.mem_filter, ne_eq, decide_eq_true_eq, Option.some.injEq, reduceCtorEq,
      false_or, Turn.closed.injEq]
    constructor
    · rintro ⟨session, ⟨member, different⟩, isOther⟩
      exact ⟨⟨session, member, isOther⟩, fun same => different (isOther.trans same.symm)⟩
    · rintro ⟨⟨session, member, isOther⟩, different⟩
      exact ⟨session, ⟨member, fun isId => different (isId.symm.trans isOther)⟩, isOther⟩
  tells session member :=
    (recorded.tells session (List.mem_of_mem_filter member)).keep (by simp [turn])
      (by simp [turn, Turn.said?])

/-- Something is said in a session. -/
theorem said (recorded : Recorded log before) {role content : String} {session : Session}
    (turn : last.turn? = some (.said id role content))
    (found : before.find? (·.id = id) = some session) (known : role ∈ roles) :
    Recorded (log ++ [last]) (before.map fun held =>
      if held.id = id then appendMessage ⟨role, content, now⟩ session else held) := by
  have isId : session.id = id := by simpa using List.find?_some found
  have sameIds : (before.map fun held =>
      if held.id = id then appendMessage ⟨role, content, now⟩ session else held).map (·.id) =
        before.map (·.id) := by
    rw [List.map_map]
    refine List.map_congr_left fun held _ => ?_
    by_cases same : held.id = id <;> simp [same, appendMessage, isId]
  refine ⟨?_, fun other => ?_, fun longer member => ?_⟩
  · rw [sameIds]
    simpa [openedIn_concat, turn, Turn.opened?] using recorded.ordered
  · rw [isOpen_concat_iff, ← recorded.open_iff, turn, ← List.mem_map, sameIds]
    simp
  · obtain ⟨held, heldMember, rfl⟩ := List.mem_map.1 member
    by_cases same : held.id = id
    · have tells : Tells log session :=
        recorded.tells session (List.mem_of_find?_eq_some found)
      rw [if_pos same]
      refine tells.extend (by simp [turn]) rfl rfl ?_ fun message inMessages => ?_
      · simp [turn, appendMessage, Turn.said?, isId, Store.said]
      · rcases List.mem_append.1 inMessages with old | new
        · exact tells.byRoles message old
        · rw [List.mem_singleton.1 new]
          exact known
    · rw [if_neg same]
      exact (recorded.tells held heldMember).keep (by simp [turn])
        (by simp [turn, Turn.said?, Ne.symm same])

/-- Where no session was opened twice, an exchange keeps the record. -/
theorem step (recorded : Recorded log before) (distinct : (openedIn (log ++ [last])).Nodup)
    (isTurn : last.turn? = turn) (converses : Converses last.moment.now before turn sessions) :
    Recorded (log ++ [last]) sessions := by
  cases converses with
  | silent => exact recorded.silent isTurn
  | opened id =>
    have distinct' : (openedIn log ++ [id]).Nodup := by
      simpa [openedIn_concat, isTurn, Turn.opened?] using distinct
    have fresh : id ∉ openedIn log := fun old =>
      (List.nodup_append.1 distinct').2.2 id old id List.mem_cons_self rfl
    exact recorded.opened isTurn fresh
  | closed id => exact recorded.closed isTurn
  | said content found known => exact recorded.said isTurn found known

end Recorded

/-- The sessions that a run leads to are recorded by its transcript. -/
theorem recorded_run (start : Tick) (operations : List (Moment × Operation))
    (distinct : (openedIn (transcript (empty start) operations)).Nodup) :
    Recorded (transcript (empty start) operations) ((empty start).run operations).sessions := by
  induction operations using List.reverseRecOn with
  | nil =>
    refine ⟨List.nil_sublist _, fun id => ⟨?_, ?_⟩, ?_⟩
    · rintro ⟨_, none, _⟩
      cases none
    · rintro ⟨_, _, isOpen⟩
      cases List.suffix_nil.1 isOpen.suffix
    · rintro _ none
      cases none
  | append_singleton earlier last inductionHypothesis =>
    obtain ⟨moment, operation⟩ := last
    rw [transcript_concat] at distinct ⊢
    rw [run_concat]
    have distinctEarlier : (openedIn (transcript (empty start) earlier)).Nodup := by
      rw [openedIn_concat] at distinct
      exact (List.nodup_append.1 distinct).1
    have sound : Sound ((empty start).run earlier) := ((Reachable.empty start).run earlier).sound
    exact (inductionHypothesis distinctEarlier).step distinct rfl
      (converses_step sound moment operation)

end ContextDb.Store
