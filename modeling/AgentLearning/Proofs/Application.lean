import AgentLearning.Proofs.ContractFiles
import AgentLearning.Proofs.RequestPlanning
import AgentLearning.Proofs.SessionStart
import AgentLearning.Proofs.Termination

/-!
# From a request to its response

A payload that passes the contract of requests decodes, and the failures of the application's tools
have texts. What a run of the executor
returns then passes the contract of responses.
-/

namespace AgentLearning

open ContractValidator AgentApplication Gateway InMemoryStateStore Executor Planner

/-! ## The response -/

section Tools

variable {f : TextBuiltins} {payload : List (String × Json)} {counters : BehaviorCounters}

theorem intOfText_error_str {s : String} {error : PyError}
    (h : f.intOfText s = .error error) : error.str ≠ "" := by
  have hinvalid : (PyError.valueError ("invalid literal for int() with base 10: "
      ++ String.ofList ((f.repr s).toList.take 200))).str ≠ "" := append_ne_empty (by decide)
  unfold TextBuiltins.intOfText at h
  simp only at h
  split at h
  · cases h
    exact hinvalid
  · split_ifs at h
    · cases h
      exact append_ne_empty (append_ne_empty (append_ne_empty (append_ne_empty (by decide))))
    · cases h
      exact hinvalid

theorem pyInt_error_str {value : Json} {error : PyError} (h : pyInt f value = .error error) :
    error.str ≠ "" := by
  unfold pyInt at h
  cases value <;> simp only [reduceCtorEq] at h
  case str s => exact intOfText_error_str h
  all_goals
    cases h
    simp [PyError.str]

theorem toolSearch_named : (toolSearch f payload counters).1.Named := by
  unfold toolSearch
  simp only
  split_ifs
  case neg =>
    split
    · exact pyInt_error_str ‹_›
    · trivial
  all_goals exact ⟨by simp, by simp⟩

theorem toolQueryDb_named : (toolQueryDb f payload counters).1.Named := by
  unfold toolQueryDb
  simp only
  split_ifs
  case neg => trivial
  all_goals exact ⟨by simp, by simp⟩

theorem toolNotify_named : (toolNotify f payload).Named := by
  unfold toolNotify
  simp only
  split_ifs
  case neg => trivial
  all_goals exact ⟨by simp, by simp⟩

theorem handle_named {toolId : String} {reply : ToolReply} {counters' : BehaviorCounters}
    (h : handle f toolId payload counters = some (reply, counters')) : reply.Named := by
  unfold handle at h
  split_ifs at h
  · rw [← show (toolSearch f payload counters).1 = reply by rw [Option.some.inj h]]
    exact toolSearch_named
  · rw [← show (toolQueryDb f payload counters).1 = reply by rw [Option.some.inj h]]
    exact toolQueryDb_named
  · cases h
    exact toolNotify_named

/-- What comes from outside to a thread of the application: what a tool answers, or that it takes
too long, and an audit log that says why it fails, if it fails. -/
structure FromTools (f : TextBuiltins) (answer : Answer) : Prop where
  reply : answer.reply = .timeout ∨ ∃ toolId payload counters counters',
    handle f toolId payload counters = some (answer.reply, counters')
  audit : answer.auditError ≠ some ""

theorem FromTools.named {answer : Answer} (h : FromTools f answer) : answer.Named := by
  refine ⟨?_, h.audit⟩
  rcases h.reply with htimeout | ⟨toolId, payload, counters, counters', hreply⟩
  · rw [htimeout]
    trivial
  · exact handle_named hreply

end Tools

/-! ## The request -/

section Request

variable {f : TextBuiltins} {pyStr pyRepr : Json → String} {payload : Json}

theorem strings_map (names : List String) : strings (names.map .str) = some names := by
  induction names with
  | nil => rfl
  | cons name names ih =>
    rw [List.map_cons, strings, ih]
    rfl

theorem getEntry_of_hasField {fields : List (String × Json)} {name : String}
    (h : HasField fields name) : ∃ value, getEntry name fields = some value :=
  Option.isSome_iff_exists.mp ((mem_keys_iff_isSome_getEntry name fields).mp h)

theorem conforms_allowedTools {value : Json} (h : Conforms allowedToolsSchema value) :
    ∃ names, value = .arr (names.map .str) ∧ names ≠ [] ∧ ∀ name ∈ names, name ∈ toolIds := by
  obtain ⟨items, rfl, hlength, hitems⟩ := (conforms_array_iff rfl rfl
    (show _ = (some 1).map Json.int from rfl) rfl rfl).mp h
  have hnames : ∀ item ∈ items, ∃ name, name ∈ toolIds ∧ Json.str name = item := by
    intro item hitem
    obtain ⟨name, hname, rfl⟩ := conforms_enum_iff.mp (hitems item hitem)
    exact ⟨name, hname, rfl⟩
  choose! name hname using hnames
  refine ⟨items.map name, ?_, ?_, ?_⟩
  · have hmap : items.map (Json.str ∘ name) = items.map id :=
      List.map_congr_left fun item hitem => (hname item hitem).2
    rw [List.map_map, hmap, List.map_id]
  · have := hlength 1 rfl
    rintro hnil
    rw [List.map_eq_nil_iff.mp hnil] at this
    simp at this
  · rw [List.forall_mem_map]
    exact fun item hitem => (hname item hitem).1

/-- A text that may be missing is found by its name. -/
theorem optionalText_isSome {key : String} {fields : List (String × Json)}
    (h : ∀ value, getEntry key fields = some value → Conforms textSchema value) :
    ∃ text, optionalText key fields = some text := by
  unfold optionalText
  rcases hget : getEntry key fields with _ | value
  · exact ⟨_, rfl⟩
  · obtain ⟨s, rfl, -⟩ := conforms_text_iff.mp (h value hget)
    exact ⟨_, rfl⟩

theorem decodeSystem_isSome {fields : List (String × Json)}
    (h : ∀ context, getEntry "context" fields = some context → Conforms contextSchema context) :
    ∃ system, decodeSystem fields = some system := by
  have hempty : Conforms systemSchema (.obj []) := by
    refine system_isObject.conforms_iff.mpr ⟨[], rfl, by simp, by simp [HasField], ?_⟩
    simp [getEntry]
  have hcontext : Conforms contextSchema ((getEntry "context" fields).getD (.obj [])) := by
    rcases hget : getEntry "context" fields with _ | context
    · refine context_isObject.conforms_iff.mpr ⟨[], rfl, by simp, by simp [HasField], ?_⟩
      simp [getEntry]
    · exact h context hget
  obtain ⟨context, hobj, -, -, hfield⟩ := context_isObject.conforms_iff.mp hcontext
  have hsystem : Conforms systemSchema ((getEntry "system" context).getD (.obj [])) := by
    rcases hget : getEntry "system" context with _ | system
    · exact hempty
    · exact hfield "system" systemSchema system (by simp) hget
  obtain ⟨system, hobj', -, -, htext⟩ := system_isObject.conforms_iff.mp hsystem
  obtain ⟨tenantId, htenant⟩ := optionalText_isSome fun value hget =>
    htext "tenant_id" textSchema value (by simp) hget
  obtain ⟨environment, henvironment⟩ := optionalText_isSome fun value hget =>
    htext "environment" textSchema value (by simp) hget
  obtain ⟨policyVersion, hpolicy⟩ := optionalText_isSome fun value hget =>
    htext "policy_version" textSchema value (by simp) hget
  unfold decodeSystem
  simp only [hobj, hobj', htenant, henvironment, hpolicy]
  exact ⟨_, rfl⟩

/-- What a payload of the contract decodes to. -/
structure Decoded (payload : Json) (request : AgentRequest) (system : SystemOptions)
    (metadata : List (String × Json)) : Prop where
  decode : decode payload = some (request, system)
  requestId : request.requestId ≠ ""
  sessionId : request.sessionId ≠ ""
  userInput : request.userInput ≠ ""
  allowedTools : request.allowedTools ≠ []
  tools : ∀ tool ∈ request.allowedTools, tool ∈ toolIds
  metadata : request.metadata = .obj metadata

theorem decode_of_conforms (h : Conforms agentRequestSchema payload) :
    ∃ request system metadata, Decoded payload request system metadata := by
  obtain ⟨fields, rfl, hrequired, -, hfield⟩ := request_isObject.conforms_iff.mp h
  have htext (name : String) (hname : name ∈ ["request_id", "session_id", "user_input"]) :
      ∃ s, getEntry name fields = some (.str s) ∧ s ≠ "" := by
    obtain ⟨value, hget⟩ := getEntry_of_hasField (hrequired name (by revert hname; simp; tauto))
    have hmem : (name, textSchema) ∈ agentRequestProperties := by
      simp only [List.mem_cons, List.not_mem_nil, or_false] at hname
      rcases hname with rfl | rfl | rfl <;> simp [agentRequestProperties]
    obtain ⟨s, rfl, hs⟩ := conforms_text_iff.mp (hfield name textSchema value hmem hget)
    exact ⟨s, hget, hs⟩
  obtain ⟨requestId, hrequest, hrequestId⟩ := htext "request_id" (by simp)
  obtain ⟨sessionId, hsession, hsessionId⟩ := htext "session_id" (by simp)
  obtain ⟨userInput, hinput, huserInput⟩ := htext "user_input" (by simp)
  obtain ⟨value, hget⟩ := getEntry_of_hasField (hrequired "allowed_tools" (by simp))
  obtain ⟨names, rfl, hnames, htools⟩ := conforms_allowedTools
    (hfield "allowed_tools" allowedToolsSchema value (by simp [agentRequestProperties]) hget)
  obtain ⟨system, hsystem⟩ := decodeSystem_isSome fun context hcontext =>
    hfield "context" contextSchema context (by simp [agentRequestProperties]) hcontext
  obtain ⟨metadata, hmetadata⟩ : ∃ metadata,
      (getEntry "metadata" fields).getD (.obj []) = .obj metadata := by
    rcases hentry : getEntry "metadata" fields with _ | value
    · exact ⟨[], rfl⟩
    · obtain ⟨metadata, rfl, -⟩ := metadata_isObject.conforms_iff.mp
        (hfield "metadata" metadataSchema value (by simp [agentRequestProperties]) hentry)
      exact ⟨metadata, rfl⟩
  refine ⟨{ requestId, sessionId, userInput, allowedTools := names, metadata := .obj metadata },
    system, metadata, ?_, hrequestId, hsessionId, huserInput, hnames, htools, rfl⟩
  unfold AgentApplication.decode
  simp only [hrequest, hsession, hinput, hget, strings_map, hsystem, hmetadata]
  rfl

/-- The numbers of the execution control convert. -/
def ControlConverts (f : TextBuiltins) (metadata : List (String × Json)) : Prop :=
  ∃ options, ExecutionControl.controlOptions (.obj metadata) = .ok options
    ∧ ∀ p ∈ [("max_concurrency", 2), ("default_step_timeout_seconds", 8),
      ("session_timeout_seconds", 60)],
      ∃ n, pyInt f ((getEntry p.1 options).getD (.int p.2)) = .ok n

/-- The numbers of the metadata convert, and leave room for the route of the request. -/
structure Admissible (f : TextBuiltins) (request : AgentRequest)
    (metadata : List (String × Json)) : Prop where
  timeout : TimeoutOk f metadata
  maxDepth : Converts f ((getEntry "max_depth" metadata).getD (.int 6))
    (KeywordPlanningStrategy.route f request).levels
  maxParallel : Converts f ((getEntry "max_parallel" metadata).getD (.int 4))
    (KeywordPlanningStrategy.route f request).levels
  planVersion : Converts f ((getEntry "plan_version" metadata).getD (.int 1)) 1
  control : ControlConverts f metadata

theorem fromRequest_isOk_iff {request : AgentRequest} {metadata : List (String × Json)}
    (hmetadata : request.metadata = .obj metadata) (startedAt : ℚ) :
    (∃ control, ExecutionControl.fromRequest f request startedAt = .ok control)
      ↔ ControlConverts f metadata := by
  unfold ExecutionControl.fromRequest ControlConverts
  rw [hmetadata]
  simp only [bind_eq_ok_iff, List.forall_mem_cons, List.not_mem_nil, false_implies, implies_true,
    and_true]
  constructor
  · rintro ⟨control, options, hoptions, m, hm, s, hs, t, ht, -⟩
    exact ⟨options, hoptions, ⟨m, hm⟩, ⟨s, hs⟩, t, ht⟩
  · rintro ⟨options, hoptions, ⟨m, hm⟩, ⟨s, hs⟩, t, ht⟩
    exact ⟨_, options, hoptions, m, hm, s, hs, t, ht, rfl⟩

theorem build_isOk {request : AgentRequest} (system : SystemOptions)
    (hrequest : request.requestId ≠ "") (hsession : request.sessionId ≠ "")
    (hinput : request.userInput ≠ "") :
    ∃ context, ContextManager.build request system = .ok context := by
  unfold ContextManager.build ContextManager.validateRequestFields
  simp only [raiseIf_eq_ok.mpr hrequest, raiseIf_eq_ok.mpr hsession, raiseIf_eq_ok.mpr hinput, bind,
    Except.bind]
  exact ⟨_, rfl⟩

theorem plannable_iff {request : AgentRequest} {metadata : List (String × Json)}
    (htools : request.allowedTools ≠ []) (hknown : ∀ tool ∈ request.allowedTools, tool ∈ toolIds) :
    Plannable f request metadata ∧ ControlConverts f metadata ↔ Admissible f request metadata := by
  have hnamed : NamedTool f request := by
    intro _ hempty
    exact absurd (hknown "" (mem_of_searchTool hempty)) (by simp [toolIds])
  constructor
  · rintro ⟨h, hcontrol⟩
    exact ⟨h.timeout, h.maxDepth, h.maxParallel, h.planVersion, hcontrol⟩
  · intro h
    exact ⟨⟨htools, hnamed, h.timeout, h.maxDepth, h.maxParallel, h.planVersion⟩, h.control⟩

/-- A payload of the contract is prepared exactly if the numbers of its metadata allow it, and any
other is rejected with a message. -/
theorem prepare_admits (f : TextBuiltins) (pyStr pyRepr : Json → String) (payload : Json)
    (startedAt : ℚ) :
    (Conforms agentRequestSchema payload →
      ∃ request system metadata, Decoded payload request system metadata
        ∧ ((∃ call, prepare f pyStr pyRepr payload startedAt = .ok call)
          ↔ Admissible f request metadata))
    ∧ (¬ Conforms agentRequestSchema payload →
      ∃ message, message ≠ "" ∧ prepare f pyStr pyRepr payload startedAt
        = .error (.contract message)) := by
  constructor
  · intro h
    obtain ⟨request, system, metadata, hdecoded⟩ := decode_of_conforms h
    refine ⟨request, system, metadata, hdecoded, ?_⟩
    have hprepare : prepare f pyStr pyRepr payload startedAt
        = (AgentApplication.plan f request system startedAt).mapError .other := by
      unfold prepare
      rcases hplan : AgentApplication.plan f request system startedAt <;>
        simp [validateContract_request_iff.mpr h, hdecoded.decode, hplan, Except.mapError]
    obtain ⟨context, hcontext⟩ := build_isOk system hdecoded.requestId hdecoded.sessionId
      hdecoded.userInput
    rw [← plannable_iff hdecoded.allowedTools hdecoded.tools,
      ← fromRequest_isOk_iff hdecoded.metadata startedAt]
    have hplan : (∃ plan, createPlan f request = .ok plan) ↔ Plannable f request metadata := by
      rw [createPlan_isOk_iff]
      simp [hdecoded.metadata]
    rw [← hplan, hprepare]
    unfold AgentApplication.plan
    simp only [hcontext, bind, Except.bind]
    rcases createPlan f request with error | plan
    · simp [Except.mapError]
    · rcases ExecutionControl.fromRequest f request startedAt with error | control <;>
        simp [pure, Except.pure, Except.mapError]
  · intro h
    rcases hvalidate : validateContract pyStr pyRepr "agent-request.schema.json" payload with
      _ | rejection
    · exact absurd (validateContract_request_iff.mp hvalidate) h
    · obtain ⟨message, rfl, hmessage⟩ := validateContract_rejects
        (show _ = some agentRequestSchema from rfl) hvalidate
      refine ⟨message, hmessage, ?_⟩
      unfold prepare
      rw [hvalidate]

end Request

/-! ## The whole of a request -/

/-- The answers an action takes come from the tools of the application. -/
def Action.FromTools (f : TextBuiltins) : Action → Prop
  | .thread _ answer => AgentLearning.FromTools f answer
  | _ => True

end AgentLearning
