import ContextDb.Proofs.Addresses
import ContextDb.Proofs.Filling
import ContextDb.Proofs.Observing

/-!
# Operations asked for by queries

An operation that is asked for by the query of a request arrives with the arguments that
an agent has given, whatever characters they have, and its answer comes back as it is.
Only an answer that is too long does not.
-/

namespace ContextDb

open Text Url

/-- The endpoint at which an operation is asked for by a query, and that query. -/
def Operation.queried? : Operation → Option (Rest.Endpoint × List (String × String))
  | .listResources under => some (.listResources, under.toList.map ("under", ·))
  | .ls uri => some (.ls, [("uri", uri)])
  | .stat uri => some (.stat, [("uri", uri)])
  | .read uri => some (.readContent, [("uri", uri)])
  | .abstractOf uri => some (.abstract, [("uri", uri)])
  | .relations uri => some (.listRelations, [("uri", uri)])
  | .glob pattern target => some (.glob, ("pattern", pattern) :: target.toList.map ("uri", ·))
  | .rm uri recursive =>
    some (.rm, [("uri", uri), ("recursive", if recursive then "true" else "false")])
  | .unlink source target => some (.unlink, [("from_uri", source), ("to_uri", target)])
  | _ => none

variable {operation : Operation} {endpoint : Rest.Endpoint} {pairs : List (String × String)}
  {arguments : Bridge.Arguments} {context : Rest.Context} {store : Store}

namespace Rest

open Http

/-- The endpoint reads the operation from a query with the pairs. -/
theorem call_of_queried (asked : operation.queried? = some (endpoint, pairs)) {request : Request}
    (query : formDecode (request.query.getD "") = pairs) (captured : String) :
    endpoint.call captured request = .ok (.operation operation) := by
  cases operation with
  | listResources under =>
    cases asked
    cases under <;> simp only [Endpoint.call, readQuery, query] <;> rfl
  | glob pattern target =>
    cases asked
    cases target <;> simp only [Endpoint.call, readQuery, query] <;> rfl
  | rm uri recursive =>
    cases asked
    cases recursive <;> simp only [Endpoint.call, readQuery, query] <;> rfl
  | ls | stat | read | abstractOf | relations | unlink =>
    cases asked
    simp only [Endpoint.call, readQuery, query]
    rfl
  | addResource | mkdir | mv | find | grep | exportPack | importPack | link | createSession
  | listSessions | getSession | deleteSession | addMessage => cases asked

/-- The path of the endpoint is fixed. -/
theorem fixed_of_queried (asked : operation.queried? = some (endpoint, pairs)) :
    ∃ first others, endpoint.segments = (first :: others).map .literal := by
  cases operation <;> cases asked <;> exact ⟨_, _, rfl⟩

end Rest

namespace Bridge

open Rest Capability Http

/-! ## Filling queries -/

/-- An argument that gives pairs is not missing. -/
theorem isMissing_eq_false {parameter : Parameter} {value : Option Json}
    (given : parameter.required = true → pairsOf parameter.name value ≠ []) :
    isMissing parameter value = false := by
  rw [isMissing]
  cases required : parameter.required with
  | false => rfl
  | true =>
    have nonempty := given required
    cases value with
    | none => exact absurd rfl nonempty
    | some json =>
      cases json with
      | null => exact absurd rfl nonempty
      | bool | num | str | arr | obj => rfl

/-- The names of the parameters of an endpoint in the query, and whether they are
required. -/
def parameterNames (endpoint : Endpoint) : List (String × Bool) :=
  (queryParameters endpoint.action).map fun parameter => (parameter.name, parameter.required)

/-- No endpoint has two parameters of one name. -/
theorem nodup_parameterNames (endpoint : Endpoint) :
    ((queryParameters endpoint.action).map (·.name)).Nodup := by
  have distinct : ∀ endpoint : Endpoint,
      ((queryParameters endpoint.action).map (·.name)).Nodup := by
    decide +kernel
  exact distinct endpoint

/-- The query that asks for an operation has the required parameters of its endpoint, and
nothing but parameters in their order. -/
theorem pairs_of_queried (asked : operation.queried? = some (endpoint, pairs)) :
    (parameterNames endpoint).flatMap (fun name => pairs.filter (·.1 = name.1)) = pairs ∧
      ∀ name ∈ parameterNames endpoint, name.2 = true → pairs.filter (·.1 = name.1) ≠ [] := by
  have names : ∀ endpoint ∈ [Endpoint.ls, .stat, .readContent, .abstract, .listRelations],
      parameterNames endpoint = [("uri", true)] := by decide +kernel
  cases operation with
  | ls | stat | read | abstractOf | relations =>
    cases asked
    simp [names]
  | listResources under =>
    cases asked
    have names : parameterNames .listResources = [("under", false)] := rfl
    cases under <;> simp [names]
  | glob pattern target =>
    cases asked
    have names : parameterNames .glob = [("pattern", true), ("uri", false)] := rfl
    cases target <;> simp [names]
  | rm uri recursive =>
    cases asked
    have names : parameterNames .rm = [("uri", true), ("recursive", false)] := rfl
    simp [names]
  | unlink source target =>
    cases asked
    have names : parameterNames .unlink = [("from_uri", true), ("to_uri", true)] := rfl
    simp [names]
  | addResource | mkdir | mv | find | grep | exportPack | importPack | link | createSession
  | listSessions | getSession | deleteSession | addMessage => cases asked

/-- Arguments carry the pairs of a query to an endpoint: each of its parameters has there
what it has in the query. -/
def Carries (arguments : Arguments) (endpoint : Endpoint) (pairs : List (String × String)) : Prop :=
  ∀ name ∈ parameterNames endpoint,
    pairsOf name.1 (arguments.get? name.1) = pairs.filter (·.1 = name.1)

/-- The query that is made of arguments that carry a query is that query. -/
theorem fillQuery_of_carries (asked : operation.queried? = some (endpoint, pairs))
    (carries : Carries arguments endpoint pairs) :
    ∃ left, fillQuery arguments (queryParameters endpoint.action) = .ok (pairs, left) := by
  obtain ⟨whole, required⟩ := pairs_of_queried asked
  have given : ∀ parameter ∈ queryParameters endpoint.action,
      isMissing parameter (arguments.get? parameter.name) = false := by
    intro parameter member
    refine isMissing_eq_false fun isRequired => ?_
    rw [carries _ (List.mem_map_of_mem member)]
    exact required _ (List.mem_map_of_mem member) isRequired
  have filled := fillQuery_eq_ok (nodup_parameterNames endpoint) given
  have carried : ((queryParameters endpoint.action).flatMap fun parameter =>
      pairsOf parameter.name (arguments.get? parameter.name)) = pairs := by
    have each : (parameterNames endpoint).flatMap
        (fun name => pairsOf name.1 (arguments.get? name.1)) = pairs := by
      rw [List.flatMap_def, List.map_congr_left carries, ← List.flatMap_def]
      exact whole
    rwa [parameterNames, List.flatMap_map] at each
  rw [filledPairs_eq, carried] at filled
  exact ⟨_, filled⟩

/-! ## The request and its answer -/

/-- A request for an endpoint with a query can be sent. -/
def Fits (endpoint : Endpoint) (pairs : List (String × String)) : Prop :=
  Target.size ⟨endpoint.template, queryOf pairs⟩ ≤ maxTargetBytes

instance : Decidable (Fits endpoint pairs) :=
  inferInstanceAs (Decidable (_ ≤ _))

/-- The path of an endpoint without a capture is spelled by its texts. -/
theorem template_of_fixed {first : String} {others : List String}
    (fixed : endpoint.segments = (first :: others).map .literal) :
    endpoint.template = String.ofList (spell ((first :: others).map String.toList)) := by
  apply String.toList_injective
  rw [String.toList_ofList, toList_template, fixed, List.map_map]
  rfl

/-- Of arguments that carry a query, the request with that query is made. -/
theorem buildRequest_of_carries (asked : operation.queried? = some (endpoint, pairs))
    (carries : Carries arguments endpoint pairs) (fits : Fits endpoint pairs) :
    buildRequest endpoint.action arguments =
      .ok (requestFor endpoint.method.name ⟨endpoint.template, queryOf pairs⟩ none) := by
  obtain ⟨first, others, fixed⟩ := fixed_of_queried asked
  obtain ⟨left, filled⟩ := fillQuery_of_carries asked carries
  have noBody : endpoint.action.bodySchema = none := by
    cases operation <;> cases asked <;> rfl
  refine bind_eq_ok_iff.2 ⟨_, fillPath_of_fixed fixed, bind_eq_ok_iff.2 ⟨_, filled, ?_⟩⟩
  simp only [← template_of_fixed fixed]
  rw [← queryOf, if_neg (Nat.not_lt.2 fits), bodyOf, noBody]
  rfl

/-- An endpoint without a capture lies at the path that it is described with. -/
theorem liesAt_template {first : String} {others : List String}
    (fixed : endpoint.segments = (first :: others).map .literal) :
    endpoint.LiesAt endpoint.template [] := by
  have absent : ∀ name ∈ (first :: others).map String.toList, '/' ∉ name := by
    intro name member
    obtain ⟨text, inTexts, rfl⟩ := List.mem_map.1 member
    have inPath : .literal text ∈ endpoint.segments := fixed ▸ List.mem_map_of_mem inTexts
    exact (Endpoint.segment_is_name inPath).1
  have parts : pathParts? endpoint.template = some (first :: others) := by
    rw [template_of_fixed fixed, pathParts?_spell (by simp) absent, map_ofList_map_toList]
  have matching : captures? endpoint.segments (first :: others) = some [] := by
    rw [fixed, captures?_literals]
  exact ⟨_, parts, matching⟩

/-- A request with the query that asks for an operation is answered by performing it. -/
theorem serve_of_queried (asked : operation.queried? = some (endpoint, pairs)) {request : Request}
    (method : request.method = endpoint.method.name) (path : request.path = endpoint.template)
    (query : request.query = queryOf pairs) (context : Rest.Context) (store : Store) :
    serve context request store = perform context store (.operation operation) := by
  obtain ⟨first, others, fixed⟩ := fixed_of_queried asked
  have decoded : formDecode (request.query.getD "") = pairs := by
    rw [query, formDecode_queryOf]
  have notHead : request.method ≠ "HEAD" := by
    rw [method]
    cases endpoint.method <;> decide
  have serves : endpoint.Serves "" request :=
    ⟨method.symm, [], path ▸ liesAt_template fixed, rfl⟩
  exact serve_of_asks notHead ⟨endpoint, "", serves, call_of_queried asked decoded ""⟩

/-- What a body says is its text, unless it is too long. -/
theorem replyText_of_text {response : Response} {text : String}
    (body : response.body = text.toUTF8) :
    replyText response =
      if maxReplyBytes < text.utf8ByteSize then .error .replyTooLong else .ok text := by
  rw [replyText, body, decodeLossy_toUTF8]
  rfl

/-- An operation is answered with a text. -/
theorem exists_text_of_perform (context : Rest.Context) (store : Store) (operation : Operation) :
    ∃ text : String,
      (perform context store (.operation operation)).1.body = text.toUTF8 := by
  rw [perform]
  split
  · exact ⟨_, rfl⟩
  · exact ⟨_, rfl⟩

/-- Arguments that carry a query get the answer of the operation that it asks for. -/
theorem dispatch_of_carries (asked : operation.queried? = some (endpoint, pairs))
    (carries : Carries arguments endpoint pairs) (fits : Fits endpoint pairs)
    (context : Rest.Context) (store : Store) :
    (live context).dispatch endpoint.action arguments store =
      ((replyText (perform context store (.operation operation)).1).map
          ((perform context store (.operation operation)).1.status, ·),
        (perform context store (.operation operation)).2) := by
  have answered : (live context).backend (requestFor endpoint.method.name
      ⟨endpoint.template, queryOf pairs⟩ none) store =
        perform context store (.operation operation) :=
    serve_of_queried asked rfl rfl rfl context store
  rw [dispatch, buildRequest_of_carries asked carries fits]
  simp only [answered]

end Bridge

end ContextDb
