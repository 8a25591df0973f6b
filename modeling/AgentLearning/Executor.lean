import AgentLearning.Lib.Prog
import AgentLearning.Replanner
import AgentLearning.Store
import AgentLearning.Gateway

/-!
# One step of a batch

`agent-system/src/agent/executor.py`, `_execute_single_step` and what it calls: a program whose
actions are the calls it makes on the shared store, the start of a tool call, the tool's reply and
the audit write. Each store call is one action, and a snapshot takes two: reading the session to
build it, and appending it. What else the thread computes it computes by itself.

The trace of tool calls and success marks is kept beside the store; the program does not read it.
-/

namespace AgentLearning

/-- How a validator rejects a payload: with a `ContractValidationError`, or by raising anything
else, as for a schema file that cannot be read. -/
inductive ValidationFailure
  | contract (message : String)
  | other (error : PyError)

/-- The dependencies an executor is built with. `validate` is what the validator raises for a
schema path and a payload, if it raises. -/
structure Executor where
  toolRegistry : ToolRegistry
  validate : String → Json → Option ValidationFailure
  policyEngine : ToolPolicyEngine
  hasReplanner : Bool := true
  maxRetryAttempts : ℤ := 1
  maxReplanAttempts : ℤ := 1

/-- What a run does to the outside and to a step's success. -/
inductive Event
  | invoke (sessionId : String) (step : PlanStep) (payload : Json)
  | markStepSuccess (sessionId stepId idempotencyKey : String)

structure World where
  store : InMemoryStateStore
  control : ExecutionControl
  trace : List Event := []

/-- What an action takes from outside: a tool's reply, and the exception of an audit write. -/
structure Answer where
  reply : ToolReply := .timeout
  auditError : Option String := none

abbrev StepProg := Prog Answer World PyError

def World.isCancelled (world : World) (sessionId : String) : Except PyError Bool :=
  if world.control.isCancelled then .ok true else world.store.isCancelRequested sessionId

namespace Executor

/-! ## One step -/

def onStore (f : InMemoryStateStore → Except PyError InMemoryStateStore) : StepProg Unit :=
  .atomic fun world => do
    let store ← f world.store
    pure ((), { world with store })

def fromStore {α : Type} (f : InMemoryStateStore → Except PyError α) : StepProg α :=
  .atomic fun world => do
    let a ← f world.store
    pure (a, world)

/-- A computation of the thread's own, between two actions. -/
def lift {α : Type} : Except PyError α → StepProg α
  | .ok a => .ret a
  | .error error => .raise error

def isCancelled (sessionId : String) : StepProg Bool :=
  .atomic fun world => do
    let cancelled ← world.isCancelled sessionId
    pure (cancelled, world)

/-- The snapshot is built from the session as it is read, and appended in a second action. -/
def saveSnapshot (plan : ExecutionPlan) (stepId : String) (phase : SnapshotPhase)
    (payload : SnapshotPayload) : StepProg Unit := do
  let snapshot ← fromStore fun store => do
    let session ← store.getSession plan.sessionId
    pure (SnapshotManager.create session stepId phase payload)
  onStore fun store => store.saveSnapshot plan.sessionId snapshot

def checkPolicy (E : Executor) (step : PlanStep) (request : AgentRequest) :
    Except PyError (Option ToolResult) := do
  let allowed ← E.policyEngine.isToolAllowed step.toolId request
  pure (if allowed then none else
    some (.failure "permission_denied" s!"tool not allowed: {step.toolId}" false))

def checkSchema (E : Executor) (step : PlanStep) (payloadWithContext : Json) :
    Except PyError (Option ToolResult) := do
  let schemaPath ← E.toolRegistry.getSchemaPath step.toolId
  match E.validate schemaPath payloadWithContext with
  | none => pure none
  | some (.contract message) => pure (some (.failure "schema_validation_error" message false))
  | some (.other error) => throw error

/-- `dict(step.payload)` with the trimmed context under `runtime_context`. -/
def buildPayloadWithContext (context : ExecutionContext) (step : PlanStep) :
    Except PyError Json :=
  match step.payload with
  | .obj fields =>
    .ok (.obj (setEntry "runtime_context" (ContextManager.trimForTool context step.toolId) fields))
  | _ => .error (.typeError "payload is not a mapping")

/-- The envelope of a tool call, from what the tool did. -/
def toolResult (E : Executor) (toolId : String) (timeoutSeconds : ℤ) (reply : ToolReply) :
    ToolResult :=
  match E.toolRegistry.invoke toolId reply with
  | .ok (some result) => result
  | .ok none => .failure "tool_timeout" s!"tool timeout after {timeoutSeconds}s" true
  | .error error => .failure "tool_runtime_exception" error.str false

def invokeToolWithTimeout (E : Executor) (plan : ExecutionPlan) (step : PlanStep)
    (payloadWithContext : Json) (timeoutSeconds : ℤ) : StepProg ToolResult := do
  .atomic fun world => pure ((), { world with
    trace := world.trace ++ [.invoke plan.sessionId step payloadWithContext] })
  .await fun answer => .ok (E.toolResult step.toolId timeoutSeconds answer.reply)

def logStepEvent : StepProg Unit :=
  .await fun answer =>
    match answer.auditError with
    | none => .ok ()
    | some message => .error (.exception message)

def markStepSuccess (plan : ExecutionPlan) (step : PlanStep) (result : ToolResult)
    (idempotencyKey : String) : StepProg Unit :=
  .atomic fun world => do
    let store ← world.store.markStepSuccess plan.sessionId step.stepId result idempotencyKey
    pure ((), { world with
      store
      trace := world.trace ++ [.markStepSuccess plan.sessionId step.stepId idempotencyKey] })

/-- Marks a failed attempt and takes its snapshot. -/
def failAttempt (plan : ExecutionPlan) (step : PlanStep) (attempt : ℤ) (result : ToolResult) :
    StepProg Unit := do
  onStore fun store => store.markStepFailed plan.sessionId step.stepId result.error
  saveSnapshot plan step.stepId .postFailed (.result attempt result)

/-- How one round of the retry loop ends. -/
inductive AttemptEnd
  | done (result : ToolResult)
  | retry (result : ToolResult)

/-- The arguments of `_execute_single_step`. -/
structure StepArgs where
  plan : ExecutionPlan
  step : PlanStep
  request : AgentRequest
  context : ExecutionContext
  control : ExecutionControl

def StepArgs.idempotencyKey (a : StepArgs) : String :=
  InMemoryStateStore.buildIdempotencyKey a.plan.requestId a.step.stepId a.plan.planVersion

/-- From `mark_step_waiting_tool` to the end of the round: the guards have passed. -/
def callTool (E : Executor) (a : StepArgs) (attempt : ℤ) (payloadWithContext : Json) :
    StepProg AttemptEnd := do
  onStore fun store => store.markStepWaitingTool a.plan.sessionId a.step.stepId
  let result ← E.invokeToolWithTimeout a.plan a.step payloadWithContext
    (if a.step.timeoutSeconds > 0 then a.step.timeoutSeconds
      else a.control.defaultStepTimeoutSeconds)
  logStepEvent
  if result.success then do
    markStepSuccess a.plan a.step result a.idempotencyKey
    saveSnapshot a.plan a.step.stepId .postSuccess (.result attempt result)
    pure (.done result)
  else do
    failAttempt a.plan a.step attempt result
    pure (if result.retryable then .retry result else .done result)

/-- One round of the retry loop once the cancel check has passed. -/
def runAttempt (E : Executor) (a : StepArgs) (attempt : ℤ) : StepProg AttemptEnd := do
  onStore fun store => store.markStepRunning a.plan.sessionId a.step.stepId
  saveSnapshot a.plan a.step.stepId .preStep (.attempt attempt a.step.toolId a.idempotencyKey)
  match ← lift (E.checkPolicy a.step a.request) with
  | some policyResult => do
    failAttempt a.plan a.step attempt policyResult
    pure (.done policyResult)
  | none => do
    let payloadWithContext ← lift (buildPayloadWithContext a.context a.step)
    match ← lift (E.checkSchema a.step payloadWithContext) with
    | some schemaResult => do
      failAttempt a.plan a.step attempt schemaResult
      pure (.done schemaResult)
    | none => E.callTool a attempt payloadWithContext

def cancelStep (a : StepArgs) : StepProg ToolResult := do
  let cancelError : StepError :=
    { code := "step_cancelled", message := s!"step cancelled: {a.step.stepId}" }
  onStore fun store => store.markStepCanceled a.plan.sessionId a.step.stepId cancelError
  pure { success := false, error := some cancelError }

def exhaustStep (a : StepArgs) (maxAttempts : ℤ) (lastRetryableResult : Option ToolResult) :
    StepProg ToolResult := do
  let exhaustedResult : ToolResult :=
    { success := false
      error := some
        { code := "retry_exhausted"
          message := s!"retry limit reached for step {a.step.stepId}"
          lastError := (lastRetryableResult.bind (·.error)).map (·.toToolError) } }
  failAttempt a.plan a.step maxAttempts exhaustedResult
  pure exhaustedResult

def maxAttempts (E : Executor) : ℤ := E.maxRetryAttempts + 1

/-- `for attempt in range(1, max_attempts + 1)`, with `remaining` rounds to go. -/
def attemptLoop (E : Executor) (a : StepArgs) :
    (remaining : ℕ) → (attempt : ℤ) → Option ToolResult → StepProg ToolResult
  | 0, _, lastRetryableResult => exhaustStep a E.maxAttempts lastRetryableResult
  | remaining + 1, attempt, _ => do
    if ← isCancelled a.plan.sessionId then cancelStep a
    else
      match ← E.runAttempt a attempt with
      | .done result => pure result
      | .retry result => attemptLoop E a remaining (attempt + 1) (some result)

def executeSingleStep (E : Executor) (a : StepArgs) : StepProg ToolResult := do
  if ← fromStore fun store =>
      store.shouldSkipStep a.plan.sessionId a.step.stepId a.idempotencyKey then do
    let cachedResult ← fromStore fun store =>
      store.getStepResult a.plan.sessionId a.step.stepId
    pure (cachedResult.getD { success := true, data := .obj [("idempotent_skip", .bool true)] })
  else E.attemptLoop a E.maxAttempts.toNat 1 none

end Executor

end AgentLearning
