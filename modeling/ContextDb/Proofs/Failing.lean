import ContextDb.Proofs.Reachable
import ContextDb.Proofs.Reading

/-!
# Operations that fail

An operation on a reachable store either gives an answer or is refused, that is:
it fails for what it was asked and changes nothing. Only unpacking can stop half
way, and only because something is in the way of a file.
-/

namespace ContextDb.Store

variable {α : Type} {store : Store}

/-- An operation gives an answer or is refused. -/
def Settled (store : Store) (outcome : Outcome α) : Prop :=
  (∃ answer, outcome.1 = .ok answer) ∨ Refused store outcome

theorem Refused.answered {outcome : Outcome α} (refused : Refused store outcome)
    (answer : α → Answer) : Refused store (answered answer outcome) := by
  obtain ⟨error, known, rfl⟩ := refused
  exact ⟨error, known, rfl⟩

namespace Settled

theorem of_ok {outcome : Outcome α} {answer : α} {after : Store}
    (done : outcome = (.ok answer, after)) : Settled store outcome :=
  .inl ⟨answer, by rw [done]⟩

theorem answered {outcome : Outcome α} (settled : Settled store outcome) (answer : α → Answer) :
    Settled store (answered answer outcome) := by
  rcases settled with ⟨value, gave⟩ | refused
  · exact .inl ⟨answer value, by simp [Store.answered, gave, Except.map]⟩
  · exact .inr (refused.answered answer)

/-- What leaves the store as it is is settled if it never fails for an internal reason. -/
theorem of_unchanged {result : Except Error α} (never : NeverInternal result)
    (answer : α → Answer) : Settled store (store.unchanged answer result) := by
  cases result with
  | ok value => exact .inl ⟨answer value, rfl⟩
  | error error => exact .inr ⟨error, never error rfl, rfl⟩

end Settled

/-- Every operation but unpacking is settled. -/
theorem settled_step (tree : Tree store.entries) (moment : Moment) (operation : Operation)
    (notUnpacking : ∀ uri files, operation ≠ .importPack uri files) :
    Settled store (store.step moment operation) := by
  cases operation with
  | addResource uri content =>
    refine .answered ?_ _
    rcases addResource_cases tree uri content moment.now with refused | ⟨_, _, _, _, _, done⟩
    · exact .inr refused
    · exact .of_ok done
  | mkdir uri =>
    refine .answered ?_ _
    rcases mkdir_cases tree uri moment.now with refused | ⟨_, _, _, _, _, done⟩
    · exact .inr refused
    · exact .of_ok done
  | rm uri recursive =>
    refine .answered ?_ _
    rcases rm_cases store uri recursive with refused | ⟨_, _, _, done⟩
    · exact .inr refused
    · exact .of_ok done
  | mv source destination =>
    refine .answered ?_ _
    rcases mv_cases tree source destination moment.now with
      refused | ⟨_, _, _, _, _, _, _, done⟩
    · exact .inr refused
    · exact .of_ok done
  | link source targets reason =>
    refine .answered ?_ _
    rcases link_cases store source targets reason with refused | ⟨_, _, _, _, _, _, done⟩
    · exact .inr refused
    · exact .of_ok done
  | unlink source target =>
    refine .answered ?_ _
    rcases unlink_cases store source target with refused | ⟨_, _, _, _, _, _, _, done⟩
    · exact .inr refused
    · exact .of_ok done
  | deleteSession id =>
    refine .answered ?_ _
    rcases deleteSession_cases store id with refused | ⟨_, done⟩
    · exact .inr refused
    · exact .of_ok done
  | addMessage id role content =>
    refine .answered ?_ _
    rcases addMessage_cases store id role content moment.now with refused | ⟨_, _, _, done⟩
    · exact .inr refused
    · exact .of_ok done
  | importPack uri files => exact absurd rfl (notUnpacking uri files)
  | createSession => exact .inl ⟨_, rfl⟩
  | listSessions => exact .inl ⟨_, rfl⟩
  | listResources under => exact .of_unchanged (neverInternal_listResources under) _
  | stat uri => exact .of_unchanged (neverInternal_stat uri) _
  | ls uri => exact .of_unchanged (neverInternal_ls uri) _
  | read uri => exact .of_unchanged (neverInternal_read uri) _
  | abstractOf uri => exact .of_unchanged (neverInternal_abstractOf uri) _
  | find query target limit => exact .of_unchanged (neverInternal_find query target limit) _
  | grep target pattern caseInsensitive =>
    exact .of_unchanged (neverInternal_grep target pattern caseInsensitive) _
  | glob pattern target => exact .of_unchanged (neverInternal_glob pattern target) _
  | exportPack uri => exact .of_unchanged (neverInternal_exportPack uri) _
  | relations uri => exact .of_unchanged (neverInternal_relationsOf uri) _
  | getSession id => exact .of_unchanged (neverInternal_getSession id) _

/-- An operation that fails is refused, or it unpacks files and something is in the
way of one. -/
theorem refused_of_step (tree : Tree store.entries) {moment : Moment} {operation : Operation}
    {error : Error} (failed : (store.step moment operation).1 = .error error) :
    Refused store (store.step moment operation) ∨
      (∃ uri files, operation = .importPack uri files) ∧ ∃ what, error = .alreadyExists what := by
  by_cases unpacking : ∃ uri files, operation = .importPack uri files
  · obtain ⟨uri, files, rfl⟩ := unpacking
    have importFailed : (store.importPack uri files moment.now).1 = .error error := by
      cases result : (store.importPack uri files moment.now).1 with
      | ok written => simp [step, answered, result, Except.map] at failed
      | error reason => simpa [step, answered, result, Except.map] using failed
    rcases refused_of_importPack tree importFailed with refused | inTheWay
    · exact .inl (refused.answered _)
    · exact .inr ⟨⟨uri, files, rfl⟩, inTheWay⟩
  · have notUnpacking : ∀ uri files, operation ≠ .importPack uri files :=
      fun uri files same => unpacking ⟨uri, files, same⟩
    rcases settled_step tree moment operation notUnpacking with ⟨answer, gave⟩ | refused
    · rw [gave] at failed
      cases failed
    · exact .inl refused

/-- An operation on a reachable store that fails does not fail for an internal
reason, and it leaves the store as it is; where it unpacks files, provided that the
error is about an address or an argument. -/
theorem unchanged_of_failed_step (reachable : Reachable store) (moment : Moment)
    (operation : Operation) {error : Error}
    (failed : (store.step moment operation).1 = .error error) :
    error.code ≠ .internal ∧
      ((∀ uri files, operation = .importPack uri files →
          error.code = .invalidUri ∨ error.code = .invalidArgument) →
        (store.step moment operation).2 = store) := by
  rcases refused_of_step reachable.sound.tree failed with
    ⟨reason, known, same⟩ | ⟨⟨uri, files, rfl⟩, what, rfl⟩
  · rw [same] at failed ⊢
    cases failed
    exact ⟨known, fun _ => rfl⟩
  · refine ⟨by simp [Error.code], fun aboutRequest => ?_⟩
    rcases aboutRequest uri files rfl with code | code
    · simp [Error.code] at code
    · simp [Error.code] at code

/-- With a file in the way, no directory below it is left behind. -/
theorem unchanged_of_file_in_the_way :
    (((empty 0).run [(⟨1, ⟨0⟩⟩, .addResource "viking://a/b" "text")]).step ⟨2, ⟨0⟩⟩
      (.addResource "viking://a/b/c/d" "more")).1 =
        .error (.alreadyExists "viking://a/b is a file") ∧
    (((empty 0).run [(⟨1, ⟨0⟩⟩, .addResource "viking://a/b" "text")]).step ⟨2, ⟨0⟩⟩
      (.addResource "viking://a/b/c/d" "more")).2 =
        (empty 0).run [(⟨1, ⟨0⟩⟩, .addResource "viking://a/b" "text")] := by
  have failed : (((empty 0).run [(⟨1, ⟨0⟩⟩, .addResource "viking://a/b" "text")]).step ⟨2, ⟨0⟩⟩
      (.addResource "viking://a/b/c/d" "more")).1 =
        .error (.alreadyExists "viking://a/b is a file") := rfl
  have reachable := (Reachable.empty 0).run [(⟨1, ⟨0⟩⟩, .addResource "viking://a/b" "text")]
  exact ⟨failed, (unchanged_of_failed_step reachable _ _ failed).2 nofun⟩

end ContextDb.Store
