import ContextDb.Proofs.Remembering
import ContextDb.Rest.Call
import Mathlib.Data.Prod.Lex

/-!
# Reading and listing sessions

A session can be read while it is open, and the listing has the open sessions in the order
in which they were opened. What is said elsewhere, and what is done to entries and links,
stays apart from it.
-/

namespace ContextDb.Store

variable {store : Store} {log since others : List Exchange} {opening other : Exchange}
  {id first second : Uuid}

/-! ## Reading a session -/

/-- The session that is read is the one of the name. -/
theorem getSession_eq_ok_iff (distinct : (store.sessions.map (·.id)).Nodup) {session : Session} :
    store.getSession id = .ok session ↔ session ∈ store.sessions ∧ session.id = id := by
  have isFound : store.getSession id = .ok session ↔
      store.sessions.find? (·.id = id) = some session := by
    rw [getSession]
    cases store.sessions.find? (·.id = id) <;> simp
  rw [isFound]
  constructor
  · intro found
    exact ⟨List.mem_of_find?_eq_some found, by simpa using List.find?_some found⟩
  · rintro ⟨member, rfl⟩
    exact SortedMap.find?_eq_some_of_unique member fun other isOther same =>
      List.inj_on_of_nodup_map distinct isOther member same

/-- Removing a session succeeds where it is there. -/
theorem deleteSession_succeeds_iff (moment : Moment) :
    (store.step moment (.deleteSession id)).1 = .ok .done ↔
      ∃ session ∈ store.sessions, session.id = id := by
  simp only [step, answered, deleteSession]
  split <;> simp_all [Except.map]

/-- Adding a message succeeds where the role is one of the three and the session can be
read. -/
theorem addMessage_succeeds_iff (moment : Moment) (role content : String) :
    (∃ session, (store.step moment (.addMessage id role content)).1 = .ok (.session session)) ↔
      role ∈ roles ∧ ∃ session, store.getSession id = .ok session := by
  simp only [step, answered, addMessage, getSession, Bool.not_eq_true', List.contains_eq_mem,
    decide_eq_false_iff_not]
  by_cases known : role ∈ roles
  · cases found : store.sessions.find? (·.id = id) <;> simp [known, Except.map]
  · simp [known, Except.map]

/-! ## The order of a listing -/

/-- A session was opened before another one. -/
def OpenedBefore (log : List Exchange) (first second : Uuid) : Prop :=
  [first, second].Sublist (openedIn log)

/-- A session is older than another one, or of the same time and of the smaller
identifier. -/
def ListedBefore (first second : Session) : Prop :=
  first.createdAt < second.createdAt ∨
    first.createdAt = second.createdAt ∧ first.id.bits < second.id.bits

/-- What sessions are listed by: their time, then their identifier. -/
def rank (session : Session) : Nat ×ₗ Nat :=
  toLex (session.createdAt, session.id.bits.toNat)

theorem precedes_iff (first second : Session) :
    first.precedes second = true ↔ rank first ≤ rank second := by
  simp [Session.precedes, rank, Prod.Lex.toLex_le_toLex]

theorem listedBefore_iff (first second : Session) :
    ListedBefore first second ↔ rank first < rank second := by
  rw [ListedBefore, BitVec.lt_def, rank, rank, Prod.Lex.toLex_lt_toLex]

@[simp] theorem mem_listSessions {session : Session} :
    session ∈ store.listSessions ↔ session ∈ store.sessions :=
  List.mem_mergeSort

/-- No session is listed twice. -/
theorem nodup_listSessions (distinct : (store.sessions.map (·.id)).Nodup) :
    (store.listSessions.map (·.id)).Nodup :=
  ((List.mergeSort_perm store.sessions Session.precedes).map _).nodup_iff.2 distinct

/-- Sessions are listed by their age, those of one time by their identifiers. -/
theorem pairwise_listSessions (distinct : (store.sessions.map (·.id)).Nodup) :
    store.listSessions.Pairwise ListedBefore := by
  have sorted : store.listSessions.Pairwise fun first second => first.precedes second = true := by
    refine List.pairwise_mergeSort (fun first second third => ?_) (fun first second => ?_) _
    · simpa only [precedes_iff] using le_trans (a := rank first)
    · simpa only [Bool.or_eq_true, precedes_iff] using le_total (rank first) (rank second)
  have different : store.listSessions.Pairwise fun first second => first.id ≠ second.id :=
    List.pairwise_map.1 (nodup_listSessions distinct)
  refine sorted.imp₂ (fun first second precedes different => ?_) different
  rw [precedes_iff] at precedes
  rw [listedBefore_iff]
  refine lt_of_le_of_ne precedes fun same => different ?_
  have sameBits : first.id.bits.toNat = second.id.bits.toNat :=
    congrArg (fun rank => (ofLex rank).2) same
  exact congrArg Uuid.mk (BitVec.toNat_inj.1 sameBits)

/-- Where time does not run backwards, the session of the earlier time was opened before
the other one. -/
theorem openedBefore_of_lt
    (chronological : log.Pairwise fun earlier later => earlier.moment.now ≤ later.moment.now)
    (isOpen : OpenSince log first opening since) (otherOpen : OpenSince log second other others)
    (earlier : opening.moment.now < other.moment.now) : OpenedBefore log first second := by
  rcases List.suffix_or_suffix_of_suffix isOpen.suffix otherOpen.suffix with within | within
  · rcases List.suffix_cons_iff.1 within with same | behind
    · cases same
      exact absurd earlier (Nat.lt_irrefl _)
    · have inOrder := List.pairwise_cons.1 (chronological.sublist otherOpen.suffix.sublist)
      have notEarlier := inOrder.1 opening (behind.subset List.mem_cons_self)
      exact absurd earlier (Nat.not_lt.2 notEarlier)
  · rcases List.suffix_cons_iff.1 within with same | behind
    · cases same
      exact absurd earlier (Nat.lt_irrefl _)
    · have inLog : [opening, other].Sublist log :=
        ((List.singleton_sublist.2 (behind.subset List.mem_cons_self)).cons_cons opening).trans
          isOpen.suffix.sublist
      have inTurns := (inLog.filterMap Exchange.turn?).filterMap Turn.opened?
      simpa [OpenedBefore, openedIn, turns, isOpen.opened, otherOpen.opened, Turn.opened?]
        using inTurns

/-! ## What a run leaves -/

/-- What a store knows of its sessions is what a transcript tells. -/
structure Remembers (log : List Exchange) (store : Store) : Prop where
  /-- The sessions that can be read are the open ones. -/
  readable_iff : ∀ id, (∃ session, store.getSession id = .ok session) ↔ IsOpen log id
  /-- A session is read by its own identifier, and nobody but the three roles says anything
  in it. -/
  byRoles : ∀ id session, store.getSession id = .ok session → session.id = id ∧
    ∀ message ∈ session.messages, message.role ∈ ["user", "assistant", "system"]
  /-- A session has what was said in it since it was opened. -/
  content : ∀ id session, store.getSession id = .ok session →
    ∀ opening since, OpenSince log id opening since →
      session.createdAt = opening.moment.now ∧ session.messages.map said = saidIn id since
  /-- The sessions that can be closed are the open ones. -/
  closable_iff : ∀ moment id, (store.step moment (.deleteSession id)).1 = .ok .done ↔ IsOpen log id
  /-- A message is added where its role is one of the three and the session is open. -/
  addable_iff : ∀ moment id role content,
    (∃ session, (store.step moment (.addMessage id role content)).1 = .ok (.session session)) ↔
      role ∈ ["user", "assistant", "system"] ∧ IsOpen log id
  /-- A message that is refused changes nothing. -/
  refused : ∀ moment id role content error,
    (store.step moment (.addMessage id role content)).1 = .error error →
      (store.step moment (.addMessage id role content)).2 = store

/-- The listing has the open sessions in the order in which they were opened. -/
structure Lists (log : List Exchange) (store : Store) : Prop where
  /-- The sessions that are listed are those that can be read. -/
  mem_iff : ∀ session,
    session ∈ store.listSessions ↔ store.getSession session.id = .ok session
  /-- No session is listed twice. -/
  once : (store.listSessions.map (·.id)).Nodup
  /-- The listing goes by age and, for one time, by identifier. -/
  ordered : store.listSessions.Pairwise ListedBefore
  /-- Where time does not run backwards, it goes by the order of opening. -/
  chronological : (log.Pairwise fun earlier later => earlier.moment.now ≤ later.moment.now) →
    store.listSessions.Pairwise fun first second => OpenedBefore log first.id second.id ∨
      first.createdAt = second.createdAt ∧ first.id.bits < second.id.bits
  /-- Each row of the listing counts the messages of its session. -/
  rows : ∃ rows, Rest.present .listSessions (.sessions store.listSessions) = .arr rows ∧
    List.Forall₂ (fun session row => row.get? "id" = some (.str session.id.toString) ∧
      row.get? "message_count" = some (.ofNat session.messages.length)) store.listSessions rows

/-- Sessions are changed by nothing but what is about them, and change nothing else. -/
structure KeepsApart (store : Store) : Prop where
  /-- Operations on sessions leave entries and links. -/
  tree : ∀ moment operation, operation.isConversation = true →
    (store.step moment operation).2.entries = store.entries ∧
      (store.step moment operation).2.relations = store.relations
  /-- Other operations leave the sessions. -/
  sessions : ∀ moment operation, operation.isConversation = false →
    (store.step moment operation).2.sessions = store.sessions
  /-- Operations on other sessions leave a session. -/
  others : ∀ moment operation id, operation.concerns moment id = false →
    (store.step moment operation).2.getSession id = store.getSession id

variable (recorded : Recorded log store.sessions) (distinct : (openedIn log).Nodup)
include recorded distinct

theorem Recorded.distinctIds : (store.sessions.map (·.id)).Nodup :=
  recorded.ordered.nodup distinct

theorem Recorded.readable_iff (id : Uuid) :
    (∃ session, store.getSession id = .ok session) ↔ IsOpen log id := by
  simp only [getSession_eq_ok_iff (recorded.distinctIds distinct), recorded.open_iff]

/-- A store whose sessions are recorded remembers what was said. -/
theorem Recorded.remembers : Remembers log store where
  readable_iff := recorded.readable_iff distinct
  byRoles id session read := by
    obtain ⟨member, isId⟩ := (getSession_eq_ok_iff (recorded.distinctIds distinct)).1 read
    exact ⟨isId, (recorded.tells session member).byRoles⟩
  content id session read opening since isOpen := by
    obtain ⟨member, rfl⟩ := (getSession_eq_ok_iff (recorded.distinctIds distinct)).1 read
    exact (recorded.tells session member).since opening since isOpen
  closable_iff moment id := by
    rw [deleteSession_succeeds_iff, recorded.open_iff]
  addable_iff moment id role content := by
    rw [addMessage_succeeds_iff, recorded.readable_iff distinct]
    rfl
  refused moment id role content error failed := by
    rcases addMessage_cases store id role content moment.now with
      refused | ⟨_, _, _, done⟩
    · obtain ⟨_, _, unchanged⟩ := refused.answered Answer.session
      exact congrArg Prod.snd unchanged
    · simp [Store.step, answered, done, Except.map] at failed

/-- A store whose sessions are recorded lists them in the order of their opening. -/
theorem Recorded.lists : Lists log store where
  mem_iff session := by
    rw [mem_listSessions, getSession_eq_ok_iff (recorded.distinctIds distinct)]
    exact ⟨fun member => ⟨member, rfl⟩, And.left⟩
  once := nodup_listSessions (recorded.distinctIds distinct)
  ordered := pairwise_listSessions (recorded.distinctIds distinct)
  chronological clock := by
    refine (pairwise_listSessions (recorded.distinctIds distinct)).imp_of_mem ?_
    rintro first second inListing alsoInListing (older | sameTime)
    · rw [mem_listSessions] at inListing alsoInListing
      obtain ⟨opening, since, isOpen⟩ := (recorded.open_iff _).1 ⟨first, inListing, rfl⟩
      obtain ⟨other, others, otherOpen⟩ := (recorded.open_iff _).1 ⟨second, alsoInListing, rfl⟩
      rw [((recorded.tells first inListing).since _ _ isOpen).1,
        ((recorded.tells second alsoInListing).since _ _ otherOpen).1] at older
      exact .inl (openedBefore_of_lt clock isOpen otherOpen older)
    · exact .inr sameTime
  rows := by
    refine ⟨_, rfl, ?_⟩
    rw [List.forall₂_map_right_iff, List.forall₂_same]
    exact fun session _ => ⟨rfl, rfl⟩

omit recorded distinct

/-- After every run in which no identifier is generated twice, the sessions of the store
are those of the transcript. -/
theorem sessions_follow_transcript (start : Tick) (operations : List (Moment × Operation))
    (distinct : (openedIn (transcript (empty start) operations)).Nodup) :
    Remembers (transcript (empty start) operations) ((empty start).run operations) ∧
      Lists (transcript (empty start) operations) ((empty start).run operations) ∧
      KeepsApart ((empty start).run operations) := by
  have recorded := recorded_run start operations distinct
  have sound : Sound ((empty start).run operations) :=
    ((Reachable.empty start).run operations).sound
  exact ⟨recorded.remembers distinct, recorded.lists distinct, {
    tree := fun moment operation => tree_step _ moment
    sessions := fun moment operation => sessions_step sound moment
    others := fun moment operation id => getSession_step sound moment }⟩

/-- Two sessions are opened; in the first one a question is answered, in the second one
nobody known says anything before it is closed. -/
def conversation : List (Moment × Operation) :=
  [(⟨1, ⟨7⟩⟩, .createSession), (⟨2, ⟨3⟩⟩, .createSession),
    (⟨2, ⟨0⟩⟩, .addMessage ⟨7⟩ "user" "Where is it?"), (⟨3, ⟨0⟩⟩, .addMessage ⟨3⟩ "robot" "Here."),
    (⟨3, ⟨0⟩⟩, .deleteSession ⟨3⟩), (⟨4, ⟨0⟩⟩, .addMessage ⟨7⟩ "assistant" "There."),
    (⟨5, ⟨0⟩⟩, .addMessage ⟨3⟩ "user" "Hello?")]

theorem conversation_is_remembered :
    (openedIn (transcript (empty 0) conversation)).Nodup ∧
      ((empty 0).run conversation).sessions.map (·.messages.map said) =
        [[("user", "Where is it?"), ("assistant", "There.")]] ∧
      Remembers (transcript (empty 0) conversation) ((empty 0).run conversation) ∧
      Lists (transcript (empty 0) conversation) ((empty 0).run conversation) ∧
      KeepsApart ((empty 0).run conversation) :=
  have distinct : (openedIn (transcript (empty 0) conversation)).Nodup := by decide
  ⟨distinct, by decide, sessions_follow_transcript 0 conversation distinct⟩

end ContextDb.Store
