import ContextDb.Proofs.Asking
import ContextDb.Proofs.Conveying
import ContextDb.Proofs.Presenting

/-!
# What agents are answered

Agents read resources under addresses and call tools by name. Whatever characters their
arguments have, they are answered what the operation answers to these arguments. The
only answers that they do not get are the ones that are too long.
-/

namespace ContextDb

variable {operation : Operation} {endpoint : Rest.Endpoint} {pairs given : List (String × String)}
  {arguments : Bridge.Arguments}

namespace Json

/-- A written text has more bytes than the text has characters. -/
theorem length_lt_writeText (written text : String) :
    text.toList.length < (writeText written text).utf8ByteSize := by
  have positive : ∀ c, 0 < (escapeChar c).utf8ByteSize := by
    intro c
    have nonempty : escapeChar c ≠ "" := by
      rw [escapeChar]
      split_ifs <;> simp [Char.toString]
    rwa [Nat.pos_iff_ne_zero, ne_eq, String.utf8ByteSize_eq_zero_iff]
  -- Whatever is written already stays, and each character adds a byte or more.
  have grown : ∀ (characters : List Char) (written : String),
      characters.length + written.utf8ByteSize ≤
        (characters.foldl (fun soFar c => soFar ++ escapeChar c) written).utf8ByteSize := by
    intro characters
    induction characters with
    | nil => simp
    | cons c characters inductionHypothesis =>
      intro written
      have one := positive c
      have rest := inductionHypothesis (written ++ escapeChar c)
      rw [String.utf8ByteSize_append] at rest
      rw [List.length_cons, List.foldl_cons]
      omega
  have all := grown text.toList (written.push '"')
  rw [writeText, String.utf8ByteSize_push]
  have quote := '"'.utf8Size_pos
  omega

end Json

namespace Bridge

open Rest Capability Http

/-! ## Operations that are asked for -/

/-- What is asked for by a query is read if it is got, and otherwise a tool. -/
theorem exposed_of_queried (asked : operation.queried? = some (endpoint, pairs)) :
    classify defaultRules endpoint.method.name [endpoint.tag] =
      if endpoint.method = .get then .resource else .tool := by
  cases operation <;> cases asked <;> rfl

/-- What is got only looks. -/
theorem looks_of_queried (asked : operation.queried? = some (endpoint, pairs))
    (isGet : endpoint.method = .get) : operation.looks = true := by
  cases operation with
  | listResources | ls | stat | read | abstractOf | relations | glob => rfl
  | rm | unlink =>
    cases asked
    cases isGet
  | addResource | mkdir | mv | find | grep | exportPack | importPack | link | createSession
  | listSessions | getSession | deleteSession | addMessage => cases asked

/-- The name of an endpoint is one word. -/
theorem isWord_id (endpoint : Endpoint) :
    endpoint.profile.id ≠ "" ∧ ∀ c ∈ endpoint.profile.id.toList, isWord c = true := by
  have words : ∀ endpoint : Endpoint,
      endpoint.profile.id ≠ "" ∧ endpoint.profile.id.toList.all isWord = true := by
    decide +kernel
  exact (words endpoint).imp_right List.all_eq_true.1

/-- No name stands twice in the query that asks for an operation. -/
theorem nodup_of_queried (asked : operation.queried? = some (endpoint, pairs)) :
    (pairs.map (·.1)).Nodup := by
  cases operation with
  | listResources under =>
    cases asked
    cases under <;> simp
  | glob pattern target =>
    cases asked
    cases target <;> simp
  | ls | stat | read | abstractOf | relations | rm | unlink =>
    cases asked
    simp
  | addResource | mkdir | mv | find | grep | exportPack | importPack | link | createSession
  | listSessions | getSession | deleteSession | addMessage => cases asked

/-- Where no name stands twice, a pair is the only one of its name. -/
theorem filter_of_mem {name value : String} (distinct : (pairs.map (·.1)).Nodup)
    (member : (name, value) ∈ pairs) : pairs.filter (·.1 = name) = [(name, value)] := by
  have isOnly : ∀ pair ∈ pairs, decide (pair.1 = name) = decide (pair = (name, value)) := by
    intro pair inPairs
    refine decide_eq_decide.2 ⟨fun same => ?_, congrArg Prod.fst⟩
    exact List.inj_on_of_nodup_map distinct inPairs member same
  have once : pairs.count (name, value) = 1 :=
    List.count_eq_one_of_mem distinct.of_map member
  rw [List.filter_congr isOnly, List.filter_eq, once]
  rfl

/-- Pairs give a query to an endpoint: no name stands twice among them, and on the names of
the parameters of the endpoint they agree with the query. -/
structure Gives (given : List (String × String)) (endpoint : Endpoint)
    (pairs : List (String × String)) : Prop where
  distinct : (given.map (·.1)).Nodup
  agreeing : ∀ name ∈ parameterNames endpoint, ∀ value,
    (name.1, value) ∈ given ↔ (name.1, value) ∈ pairs

/-- The arguments that are read from an address carry the query that they give. -/
theorem carries_of_gives (asked : operation.queried? = some (endpoint, pairs))
    (gives : Gives given endpoint pairs) :
    Carries ((SortedMap.ofList given).mapValues .str) endpoint pairs := by
  intro name member
  rw [SortedMap.get?_mapValues]
  cases found : (SortedMap.ofList given).get? name.1 with
  | some value =>
    have inPairs : (name.1, value) ∈ pairs :=
      (gives.agreeing name member value).1 ((SortedMap.get?_ofList_iff gives.distinct).1 found)
    rw [filter_of_mem (nodup_of_queried asked) inPairs]
    rfl
  | none =>
    -- A pair of that name in the query would have been given.
    refine (List.filter_eq_nil_iff.2 fun pair inPairs => ?_).symm
    rw [decide_eq_true_eq]
    intro same
    have isGiven : (name.1, pair.2) ∈ given :=
      (gives.agreeing name member pair.2).2 (same ▸ inPairs)
    rw [(SortedMap.get?_ofList_iff gives.distinct).2 isGiven] at found
    cases found

/-! ## Reading -/

/-- The address with the name of an endpoint leads to that endpoint. -/
theorem readingAt?_addressOf (context : Rest.Context)
    (exposed : classify defaultRules endpoint.method.name [endpoint.tag] = .resource) :
    (live context).readingAt? (addressOf endpoint.profile.id given) =
      some (endpoint.action, (SortedMap.ofList given).mapValues .str) := by
  obtain ⟨nonempty, words⟩ := isWord_id endpoint
  simp only [readingAt?, ofAddress?_addressOf nonempty words, live, resource?_of_classify exposed,
    Option.bind_eq_bind, Option.bind_some]
  rfl

/-- A reply is accepted if its status is one of success, and refused otherwise. -/
theorem acceptReply_eq (status : Nat) (text : String) :
    acceptReply status text =
      if 200 ≤ status ∧ status < 300 then .ok text else .error (.refused status text) := by
  simp only [acceptReply, isSuccess, Bool.and_eq_true, decide_eq_true_eq]

/-- What is read at an address is the text that the operation is answered with, if it
succeeds and the text is not too long. -/
theorem readResource_of_gives (asked : operation.queried? = some (endpoint, pairs))
    (isGet : endpoint.method = .get) (gives : Gives given endpoint pairs)
    (fits : Fits endpoint pairs) (context : Rest.Context) (store : Store) {text : String}
    (body : (perform context store (.operation operation)).1.body = text.toUTF8) :
    (live context).readResource (addressOf endpoint.profile.id given) store =
      (if maxReplyBytes < text.utf8ByteSize then .error .replyTooLong
        else if 200 ≤ (perform context store (.operation operation)).1.status ∧
            (perform context store (.operation operation)).1.status < 300 then .ok text
        else .error (.refused (perform context store (.operation operation)).1.status text),
      store) := by
  have exposed : classify defaultRules endpoint.method.name [endpoint.tag] = .resource := by
    rw [exposed_of_queried asked, if_pos isGet]
  have same : (perform context store (.operation operation)).2 = store := by
    rw [perform_operation_snd, Store.step_snd_of_looks (looks_of_queried asked isGet)]
  rw [readResource, readingAt?_addressOf context exposed, ← acceptReply_eq]
  simp only [dispatch_of_carries asked (carries_of_gives asked gives) fits, same,
    replyText_of_text body]
  split <;> rfl

/-! ## Telling -/

/-- No error is reported under a status of success. -/
theorem isSuccess_statusOf_code (error : Error) :
    isSuccess (Error.statusOf error.code.name) = false := by
  cases error.code <;> decide

/-- What a tool tells of what has come out: the result or the error in an envelope. -/
inductive Envelops {α : Type} (encode : α → Json) : Except Error α → ToolResult → Prop
  | result {value : α} {text : String} (delivers : Json.Delivers text.toUTF8 (encode value)) :
      Envelops encode (.ok value) ⟨false, text⟩
  | failure {error : Error} {status : Nat} {code message text : String}
      (told : ToldAs error status code message) (reports : Json.Reports text.toUTF8 code message) :
      Envelops encode (.error error) ⟨true, text⟩

/-- The answer of a tool tells an outcome, unless that is too long. The store is the one of the
outcome in any case. -/
def Tells {α : Type} (encode : α → Json) (outcome : Store.Outcome α)
    (answer : Except Failure ToolResult × Store) : Prop :=
  ∃ result, Envelops encode outcome.1 result ∧
    answer = (if maxReplyBytes < result.text.utf8ByteSize then .error .replyTooLong
      else .ok result, outcome.2)

/-- What a tool is answered is the text that the operation is answered with, unless that is
too long. -/
theorem callTool_of_carries (asked : operation.queried? = some (endpoint, pairs))
    (isTool : endpoint.method ≠ .get) (carries : Carries arguments endpoint pairs)
    (fits : Fits endpoint pairs) (context : Rest.Context) (store : Store) {text : String}
    (body : (perform context store (.operation operation)).1.body = text.toUTF8) :
    (live context).callTool endpoint.profile.id arguments store =
      (if maxReplyBytes < text.utf8ByteSize then .error .replyTooLong
        else .ok ⟨!isSuccess (perform context store (.operation operation)).1.status, text⟩,
      (perform context store (.operation operation)).2) := by
  have exposed : classify defaultRules endpoint.method.name [endpoint.tag] = .tool := by
    rw [exposed_of_queried asked, if_neg isTool]
  have found : (live context).catalog.tool? endpoint.profile.id = some endpoint.action :=
    tool?_of_classify exposed
  rw [callTool, found]
  simp only [dispatch_of_carries asked carries fits, replyText_of_text body]
  split <;> rfl

/-- A tool that is called with arguments that carry the query for an operation tells the
outcome of that operation. -/
theorem tells_callTool {α : Type} {encode : α → Json} {wrap : α → Answer}
    {outcome : Store.Outcome α} (asked : operation.queried? = some (endpoint, pairs))
    (isTool : endpoint.method ≠ .get) (carries : Carries arguments endpoint pairs)
    (fits : Fits endpoint pairs) {context : Rest.Context} {store : Store}
    (stepped : store.step context.moment operation = Store.answered wrap outcome)
    (presented : ∀ answer, present operation (wrap answer) = encode answer)
    (status : successStatus operation = 200) :
    Tells encode outcome ((live context).callTool endpoint.profile.id arguments store) := by
  obtain ⟨result, after⟩ := outcome
  cases result with
  | ok answer =>
    have performed : perform context store (.operation operation) =
        (.ofJson 200 (okBody (encode answer)), after) := by
      simp only [perform, stepped, Store.answered, Except.map, presented, status]
    have body : (perform context store (.operation operation)).1.body =
        (okBody (encode answer)).render.toUTF8 := by rw [performed]; rfl
    refine ⟨⟨false, _⟩, .result (Json.delivers_render _), ?_⟩
    rw [callTool_of_carries asked isTool carries fits context store body, performed]
    rfl
  | error error =>
    have performed : perform context store (.operation operation) = (.ofError error, after) := by
      simp only [perform, stepped, Store.answered, Except.map]
    have body : (perform context store (.operation operation)).1.body =
        (errorBody error.code.name error.message).render.toUTF8 := by rw [performed]; rfl
    have refused : isSuccess (Response.ofError error).status = false :=
      isSuccess_statusOf_code error
    refine ⟨⟨true, _⟩, .failure (toldAs error) (Json.reports_render _ _), ?_⟩
    rw [callTool_of_carries asked isTool carries fits context store body, performed, refused]
    rfl

/-- A tool removes what the store removes. -/
theorem tells_rm {uri : String} {recursive : Bool}
    (fits : Fits .rm [("uri", uri), ("recursive", if recursive then "true" else "false")])
    (context : Rest.Context) (store : Store) :
    Tells (fun removed => .obj [("removed", .arr (removed.map .str))]) (store.rm uri recursive)
      ((live context).callTool "fs_rm"
        (.ofList [("uri", .str uri), ("recursive", .bool recursive)]) store) := by
  have asked : Operation.queried? (.rm uri recursive) =
      some (.rm, [("uri", uri), ("recursive", if recursive then "true" else "false")]) := rfl
  have carries : Carries (.ofList [("uri", .str uri), ("recursive", .bool recursive)]) .rm
      [("uri", uri), ("recursive", if recursive then "true" else "false")] := by
    have names : parameterNames .rm = [("uri", true), ("recursive", false)] := rfl
    rw [Carries, names, List.forall_mem_cons, List.forall_mem_singleton]
    constructor
    · simp [SortedMap.get?_ofList, pairsOf, argumentText]
    · cases recursive <;>
        simp [SortedMap.get?_ofList, pairsOf, argumentText, Json.render, Json.write]
  exact tells_callTool asked (by decide) carries fits rfl (fun _ => rfl) rfl

/-- A tool removes the link that the store removes. -/
theorem tells_unlink {source target : String}
    (fits : Fits .unlink [("from_uri", source), ("to_uri", target)])
    (context : Rest.Context) (store : Store) :
    Tells (fun _ => .null) (store.unlink source target)
      ((live context).callTool "unlink"
        (.ofList [("from_uri", .str source), ("to_uri", .str target)]) store) := by
  have asked : Operation.queried? (.unlink source target) =
      some (.unlink, [("from_uri", source), ("to_uri", target)]) := rfl
  have carries : Carries (.ofList [("from_uri", .str source), ("to_uri", .str target)]) .unlink
      [("from_uri", source), ("to_uri", target)] := by
    have names : parameterNames .unlink = [("from_uri", true), ("to_uri", true)] := rfl
    rw [Carries, names, List.forall_mem_cons, List.forall_mem_singleton]
    constructor <;> simp [SortedMap.get?_ofList, pairsOf, argumentText]
  exact tells_callTool asked (by decide) carries fits rfl (fun _ => rfl) rfl

/-! ## Long answers -/

/-- The answer with a content has more bytes than the content has characters. -/
theorem length_lt_okBody (uri content : String) :
    content.toList.length < (okBody (contentJson uri content)).render.utf8ByteSize := by
  have ends : ∃ written, (okBody (contentJson uri content)).render =
      ((Json.writeText written content).push '\x7d').push '\x7d' := ⟨_, rfl⟩
  obtain ⟨written, same⟩ := ends
  have shorter := Json.length_lt_writeText written content
  rw [same, String.utf8ByteSize_push, String.utf8ByteSize_push]
  omega

/-- A long content is answered to those who ask for it with success, but agents are not
told. -/
theorem readResource_of_long {uri content : String} {store : Store}
    (holds : store.read uri = .ok content) (long : maxReplyBytes ≤ content.toList.length)
    (fits : Fits .readContent [("uri", uri)]) (context : Rest.Context) :
    (perform context store (.operation (.read uri))).1.status = 200 ∧
      (live context).readResource (addressOf "read_content" [("uri", uri)]) store =
        (.error .replyTooLong, store) := by
  have asked : Operation.queried? (.read uri) = some (.readContent, [("uri", uri)]) := rfl
  have performed : perform context store (.operation (.read uri)) =
      (.ofJson 200 (okBody (contentJson uri content)), store) := by
    simp only [perform, Store.step, Store.unchanged, holds]
    rfl
  have body : (perform context store (.operation (.read uri))).1.body =
      (okBody (contentJson uri content)).render.toUTF8 := by rw [performed]; rfl
  have tooLong := long.trans_lt (length_lt_okBody uri content)
  refine ⟨by rw [performed]; rfl, ?_⟩
  have read := readResource_of_gives asked rfl ⟨by simp, fun _ _ _ => Iff.rfl⟩ fits context store
    body
  rwa [if_pos tooLong] at read

/-- A file that is written to a new store is there. -/
theorem read_of_written (content : String) :
    ((Store.empty 0).run [(⟨1, ⟨0⟩⟩, .addResource "viking://a" content)]).read "viking://a" =
      .ok content := by
  rfl

/-! ## All characters arrive -/

/-- Arguments arrive whatever characters they have. An address of one word is read as it was
written; what is read under the name of an endpoint is what the operation is answered; and
the tools that are told by a query what to remove do what the store does. -/
theorem queries_survive_encoding (context : Rest.Context) (store : Store) :
    (∀ id pairs, id ≠ "" → (∀ c ∈ id.toList, isWord c = true) → (pairs.map (·.1)).Nodup →
      ∃ reading, Reading.ofAddress? (addressOf id pairs) = some reading ∧ reading.name = id ∧
        ∀ key value, reading.arguments.get? key = some value ↔ (key, value) ∈ pairs) ∧
    (∀ (operation : Operation) endpoint pairs given,
      operation.queried? = some (endpoint, pairs) → endpoint.method = .get →
      Gives given endpoint pairs → Fits endpoint pairs →
      let answer := (perform context store (.operation operation)).1
      ∃ text : String, answer.body = text.toUTF8 ∧
        (live context).readResource (addressOf endpoint.profile.id given) store =
          (if maxReplyBytes < text.utf8ByteSize then .error .replyTooLong
            else if 200 ≤ answer.status ∧ answer.status < 300 then .ok text
            else .error (.refused answer.status text), store)) ∧
    (∀ uri recursive,
      Fits .rm [("uri", uri), ("recursive", if recursive then "true" else "false")] →
      Tells (fun removed => .obj [("removed", .arr (removed.map .str))]) (store.rm uri recursive)
        ((live context).callTool "fs_rm"
          (.ofList [("uri", .str uri), ("recursive", .bool recursive)]) store)) ∧
    ∀ source target, Fits .unlink [("from_uri", source), ("to_uri", target)] →
      Tells (fun _ => .null) (store.unlink source target)
        ((live context).callTool "unlink"
          (.ofList [("from_uri", .str source), ("to_uri", .str target)]) store) := by
  refine ⟨fun id pairs nonempty words distinct => ?_,
    fun operation endpoint pairs given asked isGet gives fits => ?_,
    fun uri recursive fits => tells_rm fits context store,
    fun source target fits => tells_unlink fits context store⟩
  · exact ⟨_, ofAddress?_addressOf nonempty words pairs, rfl, fun key value =>
      SortedMap.get?_ofList_iff distinct⟩
  · obtain ⟨text, body⟩ := exists_text_of_perform context store operation
    exact ⟨text, body, readResource_of_gives asked isGet gives fits context store body⟩

/-- Arguments with separators, escapes, blanks and other characters on a new store. -/
theorem separators_survive_encoding :
    (∃ reading, Reading.ofAddress? (addressOf "fs_ls" [("a&b", "c=+%25"), ("é#", "\n ")]) =
        some reading ∧ reading.name = "fs_ls" ∧ reading.arguments.get? "é#" = some "\n ") ∧
    (∃ text : String,
      (perform ⟨.default, ⟨1, ⟨0⟩⟩, 0⟩ (.empty 0) (.operation (.ls "viking://a&b=é#"))).1.body =
          text.toUTF8 ∧
        (live ⟨.default, ⟨1, ⟨0⟩⟩, 0⟩).readResource
            (addressOf "fs_ls" [("x", "y"), ("uri", "viking://a&b=é#")]) (.empty 0) =
          (if maxReplyBytes < text.utf8ByteSize then .error .replyTooLong
            else .error (.refused 404 text), .empty 0)) ∧
    Tells (fun removed => .obj [("removed", .arr (removed.map .str))])
      ((Store.empty 0).rm "viking://a+%2F" true)
      ((live ⟨.default, ⟨1, ⟨0⟩⟩, 0⟩).callTool "fs_rm"
        (.ofList [("uri", .str "viking://a+%2F"), ("recursive", .bool true)]) (.empty 0)) ∧
    Tells (fun _ => .null) ((Store.empty 0).unlink "a b" "\t")
      ((live ⟨.default, ⟨1, ⟨0⟩⟩, 0⟩).callTool "unlink"
        (.ofList [("from_uri", .str "a b"), ("to_uri", .str "\t")]) (.empty 0)) := by
  obtain ⟨addresses, readings, removals, unlinkings⟩ :=
    queries_survive_encoding ⟨.default, ⟨1, ⟨0⟩⟩, 0⟩ (.empty 0)
  refine ⟨?_, ?_, removals _ _ (by decide), unlinkings _ _ (by decide)⟩
  · obtain ⟨reading, isRead, named, same⟩ :=
      addresses "fs_ls" [("a&b", "c=+%25"), ("é#", "\n ")] (by decide)
        (List.all_eq_true.1 (by decide)) (by decide)
    exact ⟨reading, isRead, named, (same _ _).2 (by decide)⟩
  · have names : parameterNames .ls = [("uri", true)] := rfl
    have gives : Gives [("x", "y"), ("uri", "viking://a&b=é#")] .ls
        [("uri", "viking://a&b=é#")] := ⟨by decide, by simp [names]⟩
    have status : (perform ⟨.default, ⟨1, ⟨0⟩⟩, 0⟩ (.empty 0)
        (.operation (.ls "viking://a&b=é#"))).1.status = 404 := by rfl
    have refused : ¬ (200 ≤ 404 ∧ 404 < 300) := by decide
    obtain ⟨text, body, read⟩ :=
      readings (.ls "viking://a&b=é#") .ls _ _ rfl rfl gives (by decide)
    rw [status, if_neg refused] at read
    exact ⟨text, body, read⟩

/-- A name with a letter that is not an ASCII one is read with escapes, and a file that fills
a whole reply is not told to agents although the service has it. -/
theorem some_answers_do_not_arrive :
    (Reading.ofAddress? (addressOf "café" [("k", "v")])).map (·.name) = some "caf%C3%A9" ∧
    ∃ store, store = (Store.empty 0).run [(⟨1, ⟨0⟩⟩,
        .addResource "viking://a" (String.ofList (List.replicate maxReplyBytes 'a')))] ∧
      (perform ⟨.default, ⟨2, ⟨0⟩⟩, 0⟩ store (.operation (.read "viking://a"))).1.status = 200 ∧
      (live ⟨.default, ⟨2, ⟨0⟩⟩, 0⟩).readResource
          (addressOf "read_content" [("uri", "viking://a")]) store =
        (.error .replyTooLong, store) := by
  have long : ∀ count, count ≤ (String.ofList (List.replicate count 'a')).toList.length := by
    simp
  refine ⟨by decide, _, rfl, ?_⟩
  exact readResource_of_long (read_of_written _) (long maxReplyBytes) (by decide) _

end Bridge

end ContextDb
