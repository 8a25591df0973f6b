import AgentLearning.Authorizer
import AgentLearning.CircuitBreaker
import AgentLearning.RateLimiter
import AgentLearning.Scorer
import AgentLearning.Validator

/-!
# The evaluation runner

`eval/runner.py`: how a sample that names a tool is run. Each sample has a gateway of its own, with
three mock tools, and passes the validator, the authorizer, the circuit breaker and the rate limiter
before the tool is called. Logs and spans are left out, and of the audit log only how many entries
there are is read. What the clock and `uuid4` give is read from the arguments.
-/

namespace AgentLearning.Evaluation

open Gateway

/-- What the runner calls of other modules of Python, and the calendar. -/
structure RunnerFunctions where
  text : TextFunctions
  pyStr : Json → String
  listStr : List String → String
  jsonDumps : Json → String
  calendar : Calendar

/-- What the run of a sample reads. The times of a tool are those of its registration and its last
change. -/
structure GatewayReadings where
  hex : String
  toolTimes : String → ℚ × ℚ
  start : ℚ
  finish : ℚ
  validated : ToolValidator.ValidateClock
  authorized : ℚ
  circuit : CircuitClock
  refill : RefillClock
  called : ToolValidator.ValidateClock
  recorded : CircuitClock

inductive AuditEventType
  | toolCallStart
  | toolCallSuccess
  | toolCallFailure
  | toolCallRejected
  | authDenied
  | circuitOpened
  | rateLimited
  | degraded
  deriving DecidableEq, Repr

/-! ## The gateway of a sample -/

/-- A mock tool, by its parameters. -/
abbrev Handler := List (String × Json) → Except PyError Json

/-- `params[key]`. -/
def paramItem (params : List (String × Json)) (key : String) : Except PyError Json :=
  match getEntry key params with
  | some value => .ok value
  | none => .error (.keyError key)

structure GatewayRuntime where
  registry : Gateway.ToolRegistry := ∅
  quotaTracker : QuotaTracker := {}
  authorizer : ToolAuthorizer := {}
  circuitBreaker : CircuitBreaker InMemoryCircuitStateBackend :=
    { config := { failureThreshold := 1, recoveryTimeout := 5 } }
  rateLimiter : RateLimiter := {}
  auditLog : List AuditEventType := []
  handlers : Dict String Handler := ∅

/-- `{"type": name}`. -/
def typeSpec (name : String) : Json := .obj [("type", .str name)]

def webSearch (times : ℚ × ℚ) : ToolMeta where
  name := "web_search"
  version := "1.0.0"
  description := "Mock public web search tool."
  status := .available
  requiredRoles := ["public"]
  inputSchema :=
    [("type", .str "object"), ("required", .arr [.str "query"]),
      ("properties", .obj [("query", typeSpec "string"), ("top_k", typeSpec "integer")])]
  quota := { qps := 5, maxConcurrent := 2, dailyLimit := 100 }
  registeredAt := times.1
  updatedAt := times.2

def webSearchHandler : Handler := fun params => do
  let query ← paramItem params "query"
  pure (.obj
    [("items", .arr [.obj [("title", .str "search_result"), ("snippet", query)]]),
      ("total", .int 1)])

def merchantLookup (times : ℚ × ℚ) : ToolMeta where
  name := "merchant_lookup"
  version := "1.0.0"
  description := "Mock internal merchant lookup."
  status := .available
  requiredRoles := ["internal"]
  inputSchema :=
    [("type", .str "object"), ("required", .arr [.str "merchant_id"]),
      ("properties", .obj [("merchant_id", typeSpec "string")])]
  registeredAt := times.1
  updatedAt := times.2

def merchantLookupHandler : Handler := fun params => do
  let merchantId ← paramItem params "merchant_id"
  pure (.obj [("merchant_id", merchantId), ("status", .str "active")])

def adminExport (times : ℚ × ℚ) : ToolMeta where
  name := "admin_export"
  version := "1.0.0"
  description := "Mock sensitive admin export."
  status := .available
  requiredRoles := ["admin"]
  isSensitive := true
  inputSchema :=
    [("type", .str "object"), ("required", .arr [.str "scope"]),
      ("properties", .obj [("scope", typeSpec "string")])]
  registeredAt := times.1
  updatedAt := times.2

def adminExportHandler : Handler := fun params => do
  let scope ← paramItem params "scope"
  pure (.obj [("scope", scope), ("exported", .bool true)])

namespace GatewayRuntime

variable (runtime : GatewayRuntime)

def registerTool (tool : ToolMeta) (handler : Handler) : Except PyError GatewayRuntime := do
  let (registered, registry) := runtime.registry.register tool
  let _ ← registered
  pure { runtime with registry, handlers := runtime.handlers.set tool.name handler }

def registerDefaultTools (toolTimes : String → ℚ × ℚ) : Except PyError GatewayRuntime := do
  let runtime ← runtime.registerTool (webSearch (toolTimes "web_search")) webSearchHandler
  let runtime ←
    runtime.registerTool (merchantLookup (toolTimes "merchant_lookup")) merchantLookupHandler
  runtime.registerTool (adminExport (toolTimes "admin_export")) adminExportHandler

def buildDefault (toolTimes : String → ℚ × ℚ) : Except PyError GatewayRuntime :=
  ({} : GatewayRuntime).registerDefaultTools toolTimes

/-- A role that does not exist counts as the public one. -/
def buildCaller (sample : EvalSample) : CallerIdentity where
  callerId := s!"caller-{sample.id}"
  role := (Role.ofValue sample.callerRole).getD .public
  tenant := sample.tenant

def invoke (toolName : String) (params : List (String × Json)) : Except PyError Json :=
  match runtime.handlers.get? toolName with
  | some handler => handler params
  | none => .error (.keyError toolName)

def logEvent (eventType : AuditEventType) : GatewayRuntime :=
  { runtime with auditLog := runtime.auditLog ++ [eventType] }

end GatewayRuntime

/-! ## The run of a sample -/

/-- The arguments of `_build_gateway_case_result` that are not the same for each outcome. -/
structure GatewayOutcome where
  answer : String := ""
  errorCode : Option CaseError
  success : Bool
  stepOutcomes : Dict String Bool
  validationRejected : Bool := false
  authDenied : Bool := false
  circuitOpened : Bool := false
  toolCalls : ℕ := 0

/-- `sample.expect_error == error_code`. -/
def expects (sample : EvalSample) (errorCode : CaseError) : Bool :=
  sample.expectError.map CaseError.name = some errorCode

/-- The outcome of an error that has a name in the runner. -/
def namedError (sample : EvalSample) (errorCode : String) (stepOutcomes : Dict String Bool) :
    GatewayOutcome where
  errorCode := some (.name errorCode)
  success := expects sample (.name errorCode)
  stepOutcomes := stepOutcomes

section Run

variable (fs : RunnerFunctions) (readings : GatewayReadings) (sample : EvalSample)

/-- The call of the tool, which counts as failed if it raises. -/
def executeTool (runtime : GatewayRuntime) (tool : ToolMeta) (stepOutcomes : Dict String Bool) :
    GatewayOutcome × GatewayRuntime :=
  let started := { runtime with
    quotaTracker := runtime.quotaTracker.recordCallStart tool.name readings.called.now
      (fs.calendar.day readings.called.datedAt) }
  let started := started.logEvent .toolCallStart
  let (outcome, ran) : GatewayOutcome × GatewayRuntime :=
    match started.invoke tool.name sample.toolParams with
    | .ok toolResponse =>
      ({ answer := if sample.expectedAnswer = "PASS" then "PASS" else fs.jsonDumps toolResponse
         errorCode := none
         success := sample.expectError.isNone
         stepOutcomes := stepOutcomes.set "execution" true
         toolCalls := 1 },
        { started with
          circuitBreaker := started.circuitBreaker.recordSuccess tool.name readings.recorded
          auditLog := started.auditLog ++ [.toolCallSuccess] })
    | .error _ =>
      ({ namedError sample "tool_execution_failed" (stepOutcomes.set "execution" false) with
          toolCalls := 1 },
        { started with
          circuitBreaker := started.circuitBreaker.recordFailure tool.name readings.recorded
          auditLog := started.auditLog ++ [.toolCallFailure] })
  (outcome, { ran with quotaTracker := ran.quotaTracker.recordCallEnd tool.name })

/-- The checks after the validator, and the call. -/
def governTool (runtime : GatewayRuntime) (caller : CallerIdentity) (tool : ToolMeta)
    (stepOutcomes : Dict String Bool) : Except PyError (GatewayOutcome × GatewayRuntime) :=
  let (authDecision, authorizer) :=
    runtime.authorizer.authorize fs.listStr caller tool readings.authorized
  let runtime := { runtime with authorizer }
  let stepOutcomes := stepOutcomes.set "authorization" authDecision.allowed
  if !authDecision.allowed then
    .ok ({ namedError sample "unauthorized" stepOutcomes with authDenied := true },
      runtime.logEvent .authDenied)
  else
    let (circuitAllowed, circuitBreaker) :=
      runtime.circuitBreaker.allowRequest tool.name readings.circuit
    let runtime := { runtime with circuitBreaker }
    if !circuitAllowed then
      .ok ({ namedError sample "circuit_open" stepOutcomes with circuitOpened := true },
        runtime.logEvent .circuitOpened)
    else
      let (acquired, rateLimiter) :=
        runtime.rateLimiter.acquire caller.callerId 1 readings.refill
      let runtime := { runtime with rateLimiter }
      match acquired with
      | .error e => .error e
      | .ok rateLimitResult =>
        let stepOutcomes := stepOutcomes.set "rate_limit" rateLimitResult.allowed
        if !rateLimitResult.allowed then
          .ok (namedError sample "rate_limited" stepOutcomes, runtime.logEvent .rateLimited)
        else .ok (executeTool fs readings sample runtime tool stepOutcomes)

/-- What becomes of the sample, with the gateway after it. -/
def gatewayOutcome (runtime : GatewayRuntime) :
    Except PyError (GatewayOutcome × GatewayRuntime) :=
  let caller := GatewayRuntime.buildCaller sample
  let toolName := sample.toolName.getD ""
  let (validation, quotaTracker) := ToolValidator.validate fs.pyStr fs.calendar
    runtime.quotaTracker runtime.registry toolName sample.toolParams readings.validated
  let runtime := { runtime with quotaTracker }
  match validation with
  | .error e => .error e
  | .ok validationResult =>
    let stepOutcomes := (∅ : Dict String Bool).set "validation" validationResult.valid
    if !validationResult.valid then
      match validationResult.errors with
      | [] => .error (.exception "list index out of range")
      | issue :: _ =>
        -- the number of the error, not a name
        let errorCode := CaseError.number issue.code.code
        .ok
          ({ errorCode := some errorCode
             success := expects sample errorCode
             stepOutcomes
             validationRejected := true },
            runtime.logEvent .toolCallRejected)
    else match runtime.registry.get toolName none with
      | none => .ok (namedError sample "invalid_tool_name" stepOutcomes, runtime)
      | some tool => governTool fs readings sample runtime caller tool stepOutcomes

def buildGatewayCaseResult (outcome : GatewayOutcome) (runtime : GatewayRuntime) :
    EvalCaseResult where
  sampleId := sample.id
  category := sample.category
  difficulty := sample.difficulty
  success := outcome.success
  answer := outcome.answer
  expectedAnswer := sample.expectedAnswer
  answerF1 :=
    if outcome.answer ≠ "" then computeF1 fs.text outcome.answer sample.expectedAnswer else 0
  latencyMs := (readings.finish - readings.start) * 1000
  traceId := some s!"trace-{sample.id}-{readings.hex.take 8}"
  sessionId := some s!"sess-{sample.id}"
  errorCode := outcome.errorCode
  stepOutcomes := outcome.stepOutcomes
  validationRejected := outcome.validationRejected
  authDenied := outcome.authDenied
  circuitOpened := outcome.circuitOpened
  auditEntries := runtime.auditLog.length
  toolCalls := outcome.toolCalls
  inputTokens := estimateTokens fs.text sample.query
  outputTokens := estimateTokens fs.text outcome.answer

def runGatewaySample : Except PyError EvalCaseResult := do
  let runtime ← GatewayRuntime.buildDefault readings.toolTimes
  let (outcome, runtime) ← gatewayOutcome fs readings sample runtime
  pure (buildGatewayCaseResult fs readings sample outcome runtime)

end Run

end AgentLearning.Evaluation
