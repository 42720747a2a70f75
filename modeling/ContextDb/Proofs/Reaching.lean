import ContextDb.Proofs.Dispatching

/-!
# Which endpoints calls of agents reach

No call of an agent reaches an endpoint that is reserved for the service and those who
run it, whatever the arguments are. But a call does not always reach the endpoint that
it names: it does exactly if the session identifier is pushed as it is.
-/

namespace ContextDb

open Text Url

namespace Rest

/-! ## Reserved endpoints -/

/-- The tags of endpoints that are no concern of agents. -/
def reservedTags : List String := ["system", "debug", "pack", "observer"]

/-- The reserved endpoints. -/
theorem Endpoint.reserved_iff {endpoint : Endpoint} :
    endpoint.tag ∈ reservedTags ↔ endpoint ∈
      [health, systemStatus, debugHealth, exportPack, importPack, observer] := by
  cases endpoint <;> decide

/-- Every endpoint is reserved or offered, and none is both. -/
theorem Endpoint.reserved_iff_not_offered {endpoint : Endpoint} :
    endpoint.tag ∈ reservedTags ↔ endpoint.tag ∉ Capability.offeredTags := by
  cases endpoint <;> decide

/-- Below the versioned root, no reserved endpoint is at the sessions or in an empty
part. -/
theorem Endpoint.not_reserved_of_third {endpoint : Endpoint} {third : String}
    {rest captured : List String} (place : third = "sessions" ∨ third = "")
    (matching : captures? endpoint.segments ("api" :: "v1" :: third :: rest) = some captured) :
    endpoint.tag ∉ reservedTags := by
  rw [reserved_iff]
  intro reserved
  simp only [List.mem_cons, List.not_mem_nil, or_false] at reserved
  rcases reserved with rfl | rfl | rfl | rfl | rfl | rfl <;> rcases place with rfl | rfl <;>
    simp [segments, profile, versioned, captures?] at matching

/-- Whether a request is served by a reserved endpoint. -/
def IsReserved (request : Http.Request) : Prop :=
  ∃ endpoint captured, endpointFor? request.method request.path = some (endpoint, captured) ∧
    endpoint.tag ∈ reservedTags

theorem servedAs_name (method : Method) : servedAs method.name = method.name := by
  cases method <;> decide

end Rest

namespace Bridge

open Rest Capability

variable {endpoint : Endpoint} {arguments : Arguments} {request : Http.Request}

/-- A request for an offered endpoint is not served by a reserved one. -/
theorem not_isReserved_of_buildRequest (offered : endpoint.tag ∈ offeredTags)
    (built : buildRequest endpoint.action arguments = .ok request) : ¬ IsReserved request := by
  rintro ⟨found, captured, routed, reserved⟩
  obtain ⟨hasMethod, parts, areParts, matching⟩ := endpointFor?_eq_some_iff.1 routed
  obtain ⟨_, _, _, _, requestMethod⟩ := exists_fillPath_of_buildRequest built
  rcases parts_of_buildRequest built with
    ⟨texts, fixed, itsParts⟩ | ⟨after, value, session, _, itsParts⟩
  · cases areParts.symm.trans itsParts
    have itself : captures? endpoint.segments parts = some [] := by
      rw [fixed, captures?_literals]
    have sameMethod : found.method = endpoint.method := by
      rw [requestMethod, Endpoint.action_method, servedAs_name] at hasMethod
      exact Method.name_injective hasMethod
    have same := Endpoint.eq_of_meet sameMethod (meet_of_captures? matching itself)
    subst same
    exact Endpoint.reserved_iff_not_offered.1 reserved offered
  · cases areParts.symm.trans itsParts
    obtain ⟨third, rest, same, place⟩ := pushed_sessionNames (argumentText value).toList
    rw [same] at matching
    have placed : String.ofList third = "sessions" ∨ String.ofList third = "" := by
      rcases place with rfl | rfl
      · exact .inl (String.ofList_toList)
      · exact .inr rfl
    exact Endpoint.not_reserved_of_third placed matching reserved

/-! ## What a bridge sends -/

/-- The requests that the calls of agents make a bridge send. -/
inductive Sends (bridge : Bridge) : Http.Request → Prop
  /-- the request of a tool that is called -/
  | tool {name : String} {action : Action} {arguments : Arguments} {request : Http.Request}
      (named : bridge.catalog.tool? name = some action)
      (built : buildRequest action arguments = .ok request) : Sends bridge request
  /-- the request of a resource that is read -/
  | resource {address : String} {action : Action} {arguments : Arguments} {request : Http.Request}
      (named : bridge.readingAt? address = some (action, arguments))
      (built : buildRequest action arguments = .ok request) : Sends bridge request

/-- A bridge asks nothing but what it sends: another backend that answers that alike
cannot be told from its own. -/
theorem calls_eq_of_agree {catalog : Catalog} {own other : Rest.Handler}
    (agree : ∀ request, Sends ⟨catalog, own⟩ request → other request = own request) :
    (∀ name arguments store,
      callTool ⟨catalog, other⟩ name arguments store =
        callTool ⟨catalog, own⟩ name arguments store) ∧
    ∀ address store,
      readResource ⟨catalog, other⟩ address store = readResource ⟨catalog, own⟩ address store := by
  have dispatched : ∀ action arguments store,
      (∀ request, buildRequest action arguments = .ok request → Sends ⟨catalog, own⟩ request) →
        dispatch ⟨catalog, other⟩ action arguments store =
          dispatch ⟨catalog, own⟩ action arguments store := by
    intro action arguments store sends
    cases built : buildRequest action arguments with
    | error failure => simp only [dispatch, built]
    | ok request => simp only [dispatch, built, agree request (sends request built)]
  constructor
  · intro name arguments store
    cases named : catalog.tool? name with
    | none => simp only [callTool, named]
    | some action =>
      simp only [callTool, named,
        dispatched action arguments store fun _ built => .tool named built]
  · intro address store
    have sameReading :
        readingAt? ⟨catalog, other⟩ address = readingAt? ⟨catalog, own⟩ address := rfl
    cases named : readingAt? ⟨catalog, own⟩ address with
    | none => simp only [readResource, sameReading, named]
    | some reading =>
      simp only [readResource, sameReading, named,
        dispatched reading.1 reading.2 store fun _ built => .resource named built]

/-- What an address names is among what the catalog offers for reading. -/
theorem mem_resources_of_readingAt? {bridge : Bridge} {address : String} {action : Action}
    (named : bridge.readingAt? address = some (action, arguments)) :
    action ∈ bridge.catalog.resources := by
  obtain ⟨reading, _, named⟩ := Option.bind_eq_some_iff.1 named
  obtain ⟨action, found, same⟩ := Option.bind_eq_some_iff.1 named
  cases same
  exact List.mem_of_find?_eq_some found

/-- An action that is found by its name is offered. -/
theorem offered_of_sends {context : Rest.Context} (sent : (live context).Sends request) :
    ∃ (endpoint : Endpoint) (arguments : Arguments), endpoint.tag ∈ offeredTags ∧
      buildRequest endpoint.action arguments = .ok request := by
  have offered : ∃ action arguments, (action ∈ ownCatalog.tools ∨ action ∈ ownCatalog.resources) ∧
      buildRequest action arguments = .ok request := by
    cases sent with
    | tool named built => exact ⟨_, _, .inl (List.mem_of_find?_eq_some named), built⟩
    | resource named built => exact ⟨_, _, .inr (mem_resources_of_readingAt? named), built⟩
  obtain ⟨action, arguments, isOffered, built⟩ := offered
  obtain ⟨endpoint, rfl, hasTag⟩ := exists_endpoint_of_offered isOffered
  exact ⟨endpoint, arguments, hasTag, built⟩

/-- No call of an agent reaches a reserved endpoint: nothing that is sent is served by
one, and what reserved endpoints answer cannot be seen in any answer to a call. -/
theorem live_never_reaches_reserved (context : Rest.Context) :
    (∀ request, (live context).Sends request → ∀ endpoint captured,
      endpointFor? request.method request.path = some (endpoint, captured) →
        endpoint.tag ∉ reservedTags) ∧
    ∀ other : Rest.Handler,
      (∀ request, ¬ IsReserved request → other request = serve context request) →
        (∀ name arguments store,
          callTool ⟨ownCatalog, other⟩ name arguments store =
            (live context).callTool name arguments store) ∧
        ∀ address store,
          readResource ⟨ownCatalog, other⟩ address store =
            (live context).readResource address store := by
  have spared : ∀ request, (live context).Sends request → ¬ IsReserved request := by
    intro request sent
    obtain ⟨endpoint, arguments, offered, built⟩ := offered_of_sends sent
    exact not_isReserved_of_buildRequest offered built
  constructor
  · intro request sent endpoint captured routed reserved
    exact spared request sent ⟨endpoint, captured, routed, reserved⟩
  · intro other agree
    exact calls_eq_of_agree fun request sent => agree request (spared request sent)

/-! ## Reaching the own endpoint -/

/-- A session is found where one more part stands between the fixed ones, which may be
empty if others follow. -/
theorem captures?_sessionPath {after : List String} (part : String) :
    captures? (sessionPath after) (sessionTexts ++ part :: after) =
      if part.isEmpty && after.isEmpty then none else some [part] := by
  rw [sessionPath, captures?_literals_append, captures?, captures?_literals]
  rfl

/-- The parts of a path with one more name behind the sessions. -/
theorem map_sessionNames_append (name : List Char) (after : List String) :
    (sessionNames ++ [name]).map String.ofList ++ after =
      sessionTexts ++ String.ofList name :: after := by
  rw [List.map_append, sessionNames, map_ofList_map_toList, List.append_assoc]
  rfl

/-- Nothing is dropped from a text without the characters that no URL has. -/
theorem kept_eq_self_iff {text : List Char} :
    kept text = text ↔ ∀ c ∈ text, isDropped c = false := by
  simp [kept]

/-- The segment of a text is empty only if nothing is kept of the text. -/
theorem segmentOf_eq_nil {text : List Char} (empty : segmentOf text = []) : kept text = [] := by
  refine kept_of_unescape_segmentOf ?_
  rw [empty]
  rfl

/-- Where a text is pushed as it is, it is captured and reads back as what is kept of
it. -/
theorem exists_captured_iff {after : List String} {text : List Char} {value : String}
    (notDot : kept text ≠ ['.']) (notDots : kept text ≠ ['.', '.'])
    (pushable : ¬ (text = ['.'] ∨ text = ['.', '.'])) :
    (∃ captured,
      captures? (sessionPath after)
        ((pushed sessionNames text).map String.ofList ++ after) = some [captured] ∧
      decode? (unescape (bytesOf captured)) = some value) ↔
    String.ofList (kept text) = value ∧ (segmentOf text = [] → after ≠ []) := by
  rw [pushed, if_neg pushable, if_neg notDots, if_neg notDot, map_sessionNames_append,
    captures?_sessionPath]
  constructor
  · rintro ⟨captured, matching, decoded⟩
    split at matching
    · cases matching
    · rename_i fits
      cases matching
      rw [bytesOf_ofList, decode?_unescape_segmentOf] at decoded
      refine ⟨Option.some.inj decoded, fun empty none => fits ?_⟩
      simp [empty, none]
  · rintro ⟨rfl, fits⟩
    refine ⟨String.ofList (segmentOf text), if_neg ?_, ?_⟩
    · simpa using fits
    · rw [bytesOf_ofList, decode?_unescape_segmentOf]

/-- Where dots are kept of a text, it is not captured. -/
theorem not_dots_of_captured {after : List String} {text : List Char} {captured : String}
    (matching : captures? (sessionPath after)
      ((pushed sessionNames text).map String.ofList ++ after) = some [captured])
    (decoded : decode? (unescape (bytesOf captured)) = some (String.ofList text)) :
    ¬ (text = ['.'] ∨ text = ['.', '.']) ∧ kept text ≠ ['.', '.'] ∧ kept text ≠ ['.'] := by
  have pushable : ¬ (text = ['.'] ∨ text = ['.', '.']) := by
    -- No name is added, so a part is missing.
    intro dots
    rw [pushed, if_pos dots, sessionNames, map_ofList_map_toList] at matching
    have tooShort := length_of_captures? matching
    simp [sessionPath] at tooShort
  have notDots : kept text ≠ ['.', '.'] := by
    -- The name of the sessions is taken away.
    intro twoDots
    rw [pushed, if_neg pushable, if_pos twoDots] at matching
    obtain ⟨rest, same, _⟩ := eq_append_of_captures?_literals matching
    have third := congrArg (·[2]?) same
    simp [sessionNames, sessionTexts] at third
  have notDot : kept text ≠ ['.'] := by
    -- An empty part is captured.
    intro oneDot
    rw [pushed, if_neg pushable, if_neg notDots, if_pos oneDot, map_sessionNames_append,
      captures?_sessionPath] at matching
    split at matching
    · cases matching
    · cases matching
      have readsEmpty : decode? (unescape (bytesOf (String.ofList []))) =
          some (String.ofList []) := rfl
      have isEmpty : [] = text :=
        String.ofList_injective (Option.some.inj (readsEmpty.symm.trans decoded))
      rw [← isEmpty] at oneDot
      cases oneDot
  exact ⟨pushable, notDots, notDot⟩

/-- The path in which a text was pushed for a session identifier leads back to the path
of the session with that very text exactly if nothing of the text is dropped, it is not
made of dots, and it is not empty at the end of the path. -/
theorem captured_iff {after : List String} {value : String} :
    (∃ captured,
      captures? (sessionPath after)
        ((pushed sessionNames value.toList).map String.ofList ++ after) = some [captured] ∧
      decode? (unescape (bytesOf captured)) = some value) ↔
    (∀ c ∈ value.toList, isDropped c = false) ∧ value ≠ "." ∧ value ≠ ".." ∧
      (value = "" → after ≠ []) := by
  obtain ⟨text, rfl⟩ : ∃ text, value = String.ofList text :=
    ⟨value.toList, String.ofList_toList.symm⟩
  have isDot : String.ofList text = "." ↔ text = ['.'] := String.ofList_inj
  have isDots : String.ofList text = ".." ↔ text = ['.', '.'] := String.ofList_inj
  have isEmpty : String.ofList text = "" ↔ text = [] := String.ofList_inj
  rw [← kept_eq_self_iff]
  simp only [String.toList_ofList, ne_eq, isDot, isDots, isEmpty]
  constructor
  · rintro ⟨captured, matching, decoded⟩
    obtain ⟨pushable, notDots, notDot⟩ := not_dots_of_captured matching decoded
    obtain ⟨same, fits⟩ :=
      (exists_captured_iff notDot notDots pushable).1 ⟨captured, matching, decoded⟩
    have whole : kept text = text := String.ofList_injective same
    refine ⟨whole, fun dot => pushable (.inl dot), fun dots => pushable (.inr dots), ?_⟩
    rintro rfl
    exact fits rfl
  · rintro ⟨whole, notDot, notDots, fits⟩
    refine (exists_captured_iff ?_ ?_ ?_).2 ⟨by rw [whole], fun empty => fits ?_⟩
    · rwa [whole]
    · rwa [whole]
    · rintro (dot | dots)
      · exact notDot dot
      · exact notDots dots
    · rw [← whole, segmentOf_eq_nil empty]

/-- Of the endpoints of a session, only the one for messages has a path that goes on. -/
theorem ne_nil_iff_addMessage {after : List String}
    (session : endpoint.segments = sessionPath after) :
    after ≠ [] ↔ endpoint.action.id = "add_message" := by
  have lengths : ∀ endpoint : Endpoint, .capture sessionCapture ∈ endpoint.segments →
      (endpoint.segments.length = 4 ↔ endpoint.profile.id ≠ "add_message") := by decide +kernel
  have captures : .capture sessionCapture ∈ endpoint.segments := by
    rw [session]
    exact List.mem_append_right _ List.mem_cons_self
  have length : endpoint.segments.length = 4 ↔ after = [] := by
    rw [session, ← List.length_eq_zero_iff]
    simp [sessionPath, sessionTexts]
  have decided := lengths endpoint captures
  rw [length] at decided
  rw [Endpoint.action_id, ne_eq, decided, ne_eq, not_not]

theorem capture_not_mem_literals {texts : List String} {name : String} :
    .capture name ∉ texts.map Segment.literal := by
  simp

theorem eq_of_capture_mem_sessionPath {after : List String} {name : String}
    (member : .capture name ∈ sessionPath after) : name = sessionCapture := by
  simpa [sessionPath] using member

/-- A call with a session identifier is served by the endpoint that it names, with that
identifier, exactly if nothing of the identifier is dropped, it is not made of dots, and
it is not empty at the end of the path. -/
theorem served_by_own_endpoint_iff {action : Action}
    (offered : action ∈ ownCatalog.tools ∨ action ∈ ownCatalog.resources)
    {parameter : Parameter} (member : parameter ∈ action.parameters)
    (inPath : parameter.location = .path) {value : String}
    (given : arguments.get? parameter.name = some (.str value))
    (built : buildRequest action arguments = .ok request) :
    (∃ endpoint captured, endpoint.action = action ∧
      endpointFor? request.method request.path = some (endpoint, [captured]) ∧
      decode? (unescape (bytesOf captured)) = some value) ↔
    (∀ c ∈ value.toList, isDropped c = false) ∧ value ≠ "." ∧ value ≠ ".." ∧
      (value = "" → action.id = "add_message") := by
  obtain ⟨endpoint, rfl, _⟩ := exists_endpoint_of_offered offered
  have captures := endpoint.capture_mem_of_path_parameter member inPath
  rcases parts_of_buildRequest built with
    ⟨texts, fixed, _⟩ | ⟨after, pushedValue, session, found, parts⟩
  · rw [fixed] at captures
    exact absurd captures capture_not_mem_literals
  · obtain ⟨_, _, _, _, requestMethod⟩ := exists_fillPath_of_buildRequest built
    rw [session] at captures
    rw [eq_of_capture_mem_sessionPath captures] at given
    cases given.symm.trans found
    rw [← ne_nil_iff_addMessage session, ← captured_iff, ← session]
    rw [requestMethod, Endpoint.action_method]
    constructor
    · rintro ⟨other, captured, sameAction, routed, decoded⟩
      have same : other = endpoint := Endpoint.eq_of_id (congrArg Action.id sameAction)
      subst same
      obtain ⟨_, _, areParts, matching⟩ := endpointFor?_eq_some_iff.1 routed
      cases areParts.symm.trans parts
      exact ⟨captured, matching, decoded⟩
    · rintro ⟨captured, matching, decoded⟩
      exact ⟨endpoint, captured, rfl,
        endpointFor?_eq_some_iff.2 ⟨(servedAs_name _).symm, _, parts, matching⟩, decoded⟩

/-- The parameter that is captured from the path of a session. -/
def sessionParameter : Parameter where
  name := sessionCapture
  location := .path
  required := true
  schema := withDescription (.str "Session UUID") SchemaType.text.schema

theorem parameters_getSession :
    Endpoint.getSession.action.parameters = [sessionParameter] := by
  rw [Endpoint.action_parameters]
  rfl

/-- The request that asks for one session. -/
theorem buildRequest_getSession (value : String)
    (short : (String.ofList (spell (pushed sessionNames value.toList))).utf8ByteSize ≤
      Http.maxTargetBytes) :
    buildRequest Endpoint.getSession.action (.single sessionCapture (.str value)) =
      .ok (requestFor "GET" ⟨String.ofList (spell (pushed sessionNames value.toList)), none⟩
        none) := by
  have filled : fillPath ['/'] (.single sessionCapture (.str value))
      (pathSegments Endpoint.getSession.action) = .ok (spell (pushed sessionNames value.toList),
        (SortedMap.single sessionCapture (.str value)).erase sessionCapture) := by
    have session : Endpoint.getSession.segments = sessionPath [] := rfl
    rw [fillPath_of_session session, SortedMap.get?_single, if_pos rfl]
    simp only [argumentText, List.map_nil, List.append_nil]
  have noQuery : queryParameters Endpoint.getSession.action = [] := by
    rw [queryParameters, parameters_getSession]
    rfl
  have noBody : Endpoint.getSession.action.bodySchema = none := rfl
  have size : ¬ Http.maxTargetBytes <
      Http.Target.size ⟨String.ofList (spell (pushed sessionNames value.toList)), none⟩ := by
    simpa [Http.Target.size] using short
  rw [buildRequest, filled]
  simp [noQuery, fillQuery, bodyOf, noBody, size, bind, Except.bind, pure, Except.pure]
  rfl

/-- Asked for the session under a dot, the service lists all sessions. -/
theorem get_session_reaches_list_sessions :
    Endpoint.getSession.action ∈ ownCatalog.resources ∧
    (∃ parameter ∈ Endpoint.getSession.action.parameters,
      parameter.location = .path ∧ parameter.name = "session_id") ∧
    ∃ request,
      buildRequest Endpoint.getSession.action (.single "session_id" (.str ".")) = .ok request ∧
      endpointFor? request.method request.path = some (.listSessions, []) := by
  refine ⟨mem_resources_iff.2 ⟨.getSession, by decide, rfl⟩, ?_,
    _, buildRequest_getSession "." (by decide), ?_⟩
  · rw [parameters_getSession]
    exact ⟨sessionParameter, List.mem_cons_self, rfl, rfl⟩
  · exact endpointFor?_eq_some_iff.2 ⟨rfl, sessionTexts, rfl, rfl⟩

/-- A session identifier with a slash and a percent sign arrives as it is. -/
theorem get_session_reaches_itself :
    Endpoint.getSession.action ∈ ownCatalog.resources ∧
    sessionParameter ∈ Endpoint.getSession.action.parameters ∧
    ∃ request,
      buildRequest Endpoint.getSession.action (.single "session_id" (.str "a/%2e")) =
        .ok request ∧
      request.path = "/api/v1/sessions/a%2F%252e" ∧
      ∃ endpoint captured, endpoint.action = Endpoint.getSession.action ∧
        endpointFor? request.method request.path = some (endpoint, [captured]) ∧
        decode? (unescape (bytesOf captured)) = some "a/%2e" := by
  have offered : Endpoint.getSession.action ∈ ownCatalog.resources :=
    mem_resources_iff.2 ⟨.getSession, by decide, rfl⟩
  have member : sessionParameter ∈ Endpoint.getSession.action.parameters := by
    rw [parameters_getSession]
    exact List.mem_cons_self
  have built := buildRequest_getSession "a/%2e" (by decide)
  have whole : ∀ c ∈ "a/%2e".toList, isDropped c = false := by simp [isDropped]
  exact ⟨offered, member, _, built, by decide,
    (served_by_own_endpoint_iff (.inr offered) member rfl rfl built).2
      ⟨whole, by decide, by decide, by decide⟩⟩

end Bridge

end ContextDb
