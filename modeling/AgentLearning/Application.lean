import AgentLearning.ContractValidator
import AgentLearning.Execute
import AgentLearning.RequestPlanning

/-!
# The application

`agent-system/src/api/app.py` with the contract files it reads and its three tools: a request is
checked, planned and executed, and what the execution gives is checked again as a response. Between
the plan and the response the executor runs as a `Config`, so a request has one response for each
interleaving of its threads.
-/

namespace AgentLearning

open Gateway

/-! ## The contracts -/

def textSchema : Json := .obj [("type", .str "string"), ("minLength", .int 1)]

def anyObjectSchema : Json :=
  .obj [("type", .str "object"), ("additionalProperties", .bool true)]

def toolIds : List String := ["tool.search", "tool.query_db", "tool.notify"]

def systemSchema : Json := .obj [
  ("type", .str "object"),
  ("additionalProperties", .bool false),
  ("properties", .obj [
    ("tenant_id", textSchema),
    ("environment", textSchema),
    ("policy_version", textSchema)])]

def allowedToolsSchema : Json := .obj [
  ("type", .str "array"),
  ("minItems", .int 1),
  ("items", .obj [("type", .str "string"), ("enum", .arr (toolIds.map .str))])]

def contextSchema : Json := .obj [
  ("type", .str "object"),
  ("additionalProperties", .bool false),
  ("properties", .obj [("system", systemSchema)])]

def metadataSchema : Json := .obj [
  ("type", .str "object"),
  ("additionalProperties", .bool true),
  ("properties", .obj [("approval_token", textSchema), ("recipient", textSchema)])]

def agentRequestProperties : List (String × Json) := [
  ("request_id", textSchema),
  ("session_id", textSchema),
  ("user_input", textSchema),
  ("allowed_tools", allowedToolsSchema),
  ("context", contextSchema),
  ("metadata", metadataSchema)]

/-- `contracts/agent-request.schema.json`. -/
def agentRequestSchema : Json := .obj [
  ("$schema", .str "https://json-schema.org/draft/2020-12/schema"),
  ("title", .str "AgentRequest"),
  ("type", .str "object"),
  ("additionalProperties", .bool false),
  ("required", .arr [.str "request_id", .str "session_id", .str "user_input",
    .str "allowed_tools"]),
  ("properties", .obj agentRequestProperties)]

def dataSchema : Json := .obj [
  ("type", .arr [.str "object", .str "null"]),
  ("additionalProperties", .bool true)]

def errorSchema : Json := .obj [
  ("type", .arr [.str "object", .str "null"]),
  ("additionalProperties", .bool true),
  ("properties", .obj [("code", textSchema), ("message", textSchema)])]

def agentResponseProperties : List (String × Json) := [
  ("request_id", textSchema),
  ("session_id", textSchema),
  ("success", .obj [("type", .str "boolean")]),
  ("data", dataSchema),
  ("error", errorSchema)]

/-- `contracts/agent-response.schema.json`. -/
def agentResponseSchema : Json := .obj [
  ("$schema", .str "https://json-schema.org/draft/2020-12/schema"),
  ("title", .str "AgentResponse"),
  ("type", .str "object"),
  ("additionalProperties", .bool false),
  ("required", .arr [.str "request_id", .str "session_id", .str "success", .str "data",
    .str "error"]),
  ("properties", .obj agentResponseProperties)]

def toolPayloadSchema (title : String) (required : List String)
    (properties : List (String × Json)) : Json := .obj [
  ("$schema", .str "https://json-schema.org/draft/2020-12/schema"),
  ("title", .str title),
  ("type", .str "object"),
  ("additionalProperties", .bool false),
  ("required", .arr (required.map .str)),
  ("properties", .obj (properties ++ [("runtime_context", anyObjectSchema)]))]

def limitSchema (maximum : ℤ) : Json :=
  .obj [("type", .str "integer"), ("minimum", .int 1), ("maximum", .int maximum)]

def boundedTextSchema (maxLength : ℤ) : Json :=
  .obj [("type", .str "string"), ("minLength", .int 1), ("maxLength", .int maxLength)]

/-- `contracts/tools/tool.search.schema.json`. -/
def searchSchema : Json :=
  toolPayloadSchema "ToolSearchPayload" ["query"]
    [("query", textSchema), ("top_k", limitSchema 20)]

/-- `contracts/tools/tool.query_db.schema.json`. -/
def queryDbSchema : Json :=
  toolPayloadSchema "ToolQueryDbPayload" ["sql"]
    [("sql", boundedTextSchema 1000), ("limit", limitSchema 100)]

/-- `contracts/tools/tool.notify.schema.json`. -/
def notifySchema : Json :=
  toolPayloadSchema "ToolNotifyPayload" ["channel", "recipient", "message"]
    [("channel", .obj [("type", .str "string"), ("enum", .arr [.str "email", .str "slack"])]),
     ("recipient", textSchema),
     ("message", boundedTextSchema 500)]

/-- The contract files by their paths. -/
def contractFiles : List (String × Json) :=
  [("agent-request.schema.json", agentRequestSchema),
   ("agent-response.schema.json", agentResponseSchema),
   ("tools/tool.search.schema.json", searchSchema),
   ("tools/tool.query_db.schema.json", queryDbSchema),
   ("tools/tool.notify.schema.json", notifySchema)]

def readContract (schemaPath : String) : Except PyError Json :=
  match getEntry schemaPath contractFiles with
  | some schema => .ok schema
  | none => .error (.exception s!"[Errno 2] No such file or directory: {schemaPath}")

/-- What `validate` of a validator that reads these files raises, if it raises. -/
def validateContract (pyStr pyRepr : Json → String) (schemaPath : String) (payload : Json) :
    Option ValidationFailure :=
  (ContractValidator.validate pyStr pyRepr {} readContract schemaPath payload).1

/-! ## Its tools -/

/-- The calls of a tool by its behaviour key. -/
abbrev BehaviorCounters := Dict String ℕ

/-- `_should_fail_once` for `failures` 1 and `_should_fail_twice` for 2. -/
def shouldFail (failures : ℕ) (key : String) (counters : BehaviorCounters) :
    Bool × BehaviorCounters :=
  let current := (counters.get? key).getD 0
  (current < failures, counters.set key (current + 1))

namespace AgentApplication

variable (f : TextBuiltins)

def shouldFailOnce : String → BehaviorCounters → Bool × BehaviorCounters := shouldFail 1

def shouldFailTwice : String → BehaviorCounters → Bool × BehaviorCounters := shouldFail 2

/-- `str(payload.get(key, ""))`. -/
def payloadText (key : String) (payload : List (String × Json)) : String :=
  f.text ((getEntry key payload).getD (.str ""))

def searchItems : List Json :=
  [.obj [("title", .str "Architecture Baseline"), ("score", .float (22 / 25))],
   .obj [("title", .str "Recovery Design"), ("score", .float (3 / 4))]]

/-- A behaviour that is asked for by a keyword of the text: it counts the call under its key. -/
def failsNow (fail : String → BehaviorCounters → Bool × BehaviorCounters)
    (keyword text key : String) (counters : BehaviorCounters) : Bool × BehaviorCounters :=
  if hasKeyword keyword text then fail key counters else (false, counters)

def toolSearch (payload : List (String × Json)) (counters : BehaviorCounters) :
    ToolReply × BehaviorCounters :=
  let query := f.lower (f.strip (payloadText f "query" payload))
  if hasKeyword "timeout" query then
    (.executionError "tool_timeout" "search timeout" true, counters)
  else
    let (once, counters) := failsNow shouldFailOnce "flaky_once" query ("search:" ++ query) counters
    if once then
      (.executionError "transient_network_error" "temporary search failure" true, counters)
    else
      let (twice, counters) :=
        failsNow shouldFailTwice "flaky_twice" query ("search:" ++ query) counters
      if twice then
        (.executionError "service_unavailable" "temporary upstream outage" true, counters)
      else if hasKeyword "force_fail" query then
        (.executionError "invalid_business_input" "search input is invalid" false, counters)
      else match pyInt f ((getEntry "top_k" payload).getD (.int 2)) with
        | .error error => (.exception error.str, counters)
        | .ok topK =>
          (.returned (.obj
            [("query", (getEntry "query" payload).getD .null),
             ("items", .arr (sliceTo searchItems topK))]), counters)

def toolQueryDb (payload : List (String × Json)) (counters : BehaviorCounters) :
    ToolReply × BehaviorCounters :=
  let sql := f.lower (f.strip (payloadText f "sql" payload))
  if !("select".toList <+: sql.toList) then
    (.executionError "invalid_business_input" "only SELECT is allowed" false, counters)
  else
    let (once, counters) :=
      failsNow shouldFailOnce "transient_fail_once" sql ("query:" ++ sql) counters
    if once then
      (.executionError "service_unavailable" "db service unavailable" true, counters)
    else
      (.returned (.obj
        [("rows", .arr [.obj [("ok", .int 1)]]), ("row_count", .int 1),
         ("limit", (getEntry "limit" payload).getD (.int 10))]), counters)

def toolNotify (payload : List (String × Json)) : ToolReply :=
  let message := payloadText f "message" payload
  if message.length > 500 then
    .executionError "invalid_business_input" "message too long" false
  else if hasKeyword "handoff" (f.lower message) then
    .executionError "permission_denied" "manual approval required" false
  else
    .returned (.obj
      [("channel", (getEntry "channel" payload).getD .null),
       ("recipient", (getEntry "recipient" payload).getD .null), ("status", .str "queued")])

/-- What the handler of a registered tool does. -/
def handle (toolId : String) (payload : List (String × Json)) (counters : BehaviorCounters) :
    Option (ToolReply × BehaviorCounters) :=
  if toolId = "tool.search" then some (toolSearch f payload counters)
  else if toolId = "tool.query_db" then some (toolQueryDb f payload counters)
  else if toolId = "tool.notify" then some (toolNotify f payload, counters)
  else none

def registry : ToolRegistry where
  definitions := toolIds.foldl
    (fun definitions toolId =>
      definitions.set toolId ⟨toolId, "tools/" ++ toolId ++ ".schema.json"⟩) ∅

/-- `ToolPolicyEngine.default()`. -/
def policyEngine : ToolPolicyEngine where
  permissionMap := ((((∅ : Dict String ToolPermission).set "tool.search" ⟨"tool.search", false⟩).set
    "tool.query_db" ⟨"tool.query_db", false⟩).set "tool.notify" ⟨"tool.notify", true⟩)

variable (pyStr pyRepr : Json → String)

def executor : Executor where
  toolRegistry := registry
  validate := validateContract pyStr pyRepr
  policyEngine := policyEngine
  hasReplanner := true
  maxRetryAttempts := 1
  maxReplanAttempts := 1

end AgentApplication

/-! ## The response -/

def ToolError.toJson (error : ToolError) : Json :=
  .obj [("code", .str error.code), ("message", .str error.message)]

def StepError.toJson (error : StepError) : Json :=
  .obj ([("code", .str error.code), ("message", .str error.message)]
    ++ error.lastError.toList.map fun last => ("last_error", last.toJson))

/-- `None` where there is no error. -/
def errorJson (error : Option StepError) : Json := error.elim .null StepError.toJson

def ToolResult.toJson (result : ToolResult) : Json :=
  .obj [("success", .bool result.success), ("data", result.data),
    ("error", errorJson result.error), ("retryable", .bool result.retryable)]

def StepResult.toJson (result : StepResult) : Json :=
  .obj [("step_id", .str result.stepId), ("tool_id", .str result.toolId),
    ("plan_version", .int result.planVersion), ("result", result.result.toJson)]

def ReplanStrategy.text : ReplanStrategy → String
  | .localReplace => "local_replace"
  | .rollbackRetry => "rollback_retry"
  | .humanHandoff => "human_handoff"

def StepIdMapping.toJson (item : StepIdMapping) : Json :=
  .obj [("source_step_id", .str item.sourceStepId), ("target_step_id", .str item.targetStepId),
    ("plan_version", .int item.planVersion)]

def ReplanHistoryItem.toJson (item : ReplanHistoryItem) : Json :=
  .obj [("strategy", .str item.strategy.text), ("reason", .str item.reason),
    ("message", .str item.message), ("target_plan_version", .int item.targetPlanVersion),
    ("step_id_mapping", .arr (item.stepIdMapping.map StepIdMapping.toJson))]

namespace AgentApplication

def responseData (plan : ExecutionPlan) (result : ExecutionResult) : Json :=
  .obj [("trace_id", .str result.traceId), ("plan_version", .int result.planVersion),
    ("risk_flags", .arr (plan.riskFlags.map .str)),
    ("replan_history", .arr (result.replanHistory.map ReplanHistoryItem.toJson)),
    ("step_results", .arr (result.stepResults.map StepResult.toJson))]

/-- The `response_payload`. -/
def respond (plan : ExecutionPlan) (result : ExecutionResult) : Json :=
  .obj [("request_id", .str plan.requestId), ("session_id", .str plan.sessionId),
    ("success", .bool result.success),
    ("data", if result.success then responseData plan result else .null),
    ("error", errorJson result.error)]

/-- `int((time.monotonic() - started_at) * 1000)`. -/
def durationMs (startedAt finishedAt : ℚ) : ℤ := intOfFloat ((finishedAt - startedAt) * 1000)

/-- The event that `log_final_event` writes. -/
def finalEvent (plan : ExecutionPlan) (success : Bool) (durationMs : ℤ) : Json :=
  .obj [("event_type", .str "final"), ("request_id", .str plan.requestId),
    ("session_id", .str plan.sessionId), ("duration_ms", .int durationMs),
    ("result_status", .str (if success then "SUCCESS" else "FAILED"))]

/-- `handle_request` after the call of `execute`. `writeEvent` appends an event to the audit log,
and says what that raises, if it raises. -/
def finish (pyStr pyRepr : Json → String) (plan : ExecutionPlan) (result : ExecutionResult)
    (startedAt finishedAt : ℚ) (writeEvent : Json → Option PyError) :
    Except ValidationFailure Json :=
  match validateContract pyStr pyRepr "agent-response.schema.json" (respond plan result) with
  | some failure => .error failure
  | none =>
    match writeEvent (finalEvent plan result.success (durationMs startedAt finishedAt)) with
    | some error => .error (.other error)
    | none => .ok (respond plan result)

/-! ## A request -/

/-- The items of a list of strings. -/
def strings : List Json → Option (List String)
  | [] => some []
  | .str s :: items => (strings items).map (s :: ·)
  | _ :: _ => none

/-- A field that is a string if it is there. -/
def optionalText (key : String) (fields : List (String × Json)) : Option (Option String) :=
  match getEntry key fields with
  | none => some none
  | some (.str s) => some (some s)
  | some _ => none

/-- `request.get("context", {}).get("system", {})`, its fields looked up. -/
def decodeSystem (payload : List (String × Json)) : Option SystemOptions :=
  match (getEntry "context" payload).getD (.obj []) with
  | .obj context =>
    match (getEntry "system" context).getD (.obj []) with
    | .obj system => do
      let tenantId ← optionalText "tenant_id" system
      let environment ← optionalText "environment" system
      let policyVersion ← optionalText "policy_version" system
      pure { tenantId, environment, policyVersion }
    | _ => none
  | _ => none

/-- The payload as planning and execution read it, if its fields have the types they rely on. -/
def decode (payload : Json) : Option (AgentRequest × SystemOptions) :=
  match payload with
  | .obj payload =>
    match getEntry "request_id" payload, getEntry "session_id" payload,
        getEntry "user_input" payload, getEntry "allowed_tools" payload with
    | some (.str requestId), some (.str sessionId), some (.str userInput), some (.arr tools) => do
      let allowedTools ← strings tools
      let system ← decodeSystem payload
      pure ({ requestId, sessionId, userInput, allowedTools
              metadata := (getEntry "metadata" payload).getD (.obj []) }, system)
    | _, _, _, _ => none
  | _ => none

variable (f : TextBuiltins) (pyStr pyRepr : Json → String)

/-- The arguments of `execute` for a decoded request. -/
def plan (request : AgentRequest) (system : SystemOptions) (startedAt : ℚ) :
    Except PyError Call := do
  let context ← ContextManager.build request system
  let plan ← Planner.createPlan f request
  let control ← ExecutionControl.fromRequest f request startedAt
  pure { plan, request, context, control }

/-- `handle_request` up to the call of `execute`. -/
def prepare (payload : Json) (startedAt : ℚ) : Except ValidationFailure Call :=
  match validateContract pyStr pyRepr "agent-request.schema.json" payload with
  | some failure => .error failure
  | none =>
    match decode payload with
    | some (request, system) =>
      match plan f request system startedAt with
      | .ok call => .ok call
      | .error error => .error (.other error)
    | none => .error (.other (.typeError "request fields have other types"))

end AgentApplication

end AgentLearning
