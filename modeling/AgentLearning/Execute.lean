import AgentLearning.Executor

/-!
# A call of `execute`

`agent-system/src/agent/executor.py`, `execute` and what its main thread calls. A `Config` is one
call between two actions: the store, the local variables of the loop, and where the main thread
is, with the threads of the batch it waits for. `Config.step` takes one action: a round of the loop
up to the start of a batch, one action of one thread, the main thread picking up a finished future
or folding the outcomes of the batch, or a cancel request from outside. A run is any sequence of
enabled actions, so all interleavings of the threads and all moments of a cancel request and of the
session timeout are runs.
-/

namespace AgentLearning

/-- An entry of `step_results`. -/
structure StepResult where
  stepId : String
  toolId : String
  planVersion : ℤ
  result : ToolResult

/-- An entry of `replan_history`. -/
structure ReplanHistoryItem where
  strategy : ReplanStrategy
  reason : String
  message : String
  targetPlanVersion : ℤ
  stepIdMapping : List StepIdMapping

structure ExecutionResult where
  success : Bool
  stepResults : List StepResult := []
  error : Option StepError := none
  traceId : String := ""
  planVersion : ℤ := 1
  replanHistory : List ReplanHistoryItem := []

/-- What a batch hands to the fold for one step. -/
structure StepOutcome where
  step : PlanStep
  result : ToolResult

/-- A future of a batch: its step, what is left of its program, and whether the main thread has
picked its result up. -/
structure Thread where
  step : PlanStep
  prog : StepProg ToolResult
  collected : Bool := false

/-- Where the main thread is: at the head of the loop, waiting for a batch with the results it has
by step id, or out of the call. -/
inductive Phase
  | looping
  | batch (threads : List Thread) (resultsByStepId : Dict String StepOutcome)
  | returned (result : ExecutionResult)
  | raised (error : PyError)

structure Config where
  world : World
  context : ExecutionContext
  plan : ExecutionPlan
  completed : List String
  replanCount : ℕ := 0
  stepResults : List StepResult := []
  replanHistory : List ReplanHistoryItem := []
  phase : Phase := .looping

/-- The arguments of one call of `execute`. -/
structure Call where
  plan : ExecutionPlan
  request : AgentRequest
  context : ExecutionContext
  control : ExecutionControl

/-- One atomic action of a call, with what it takes from outside. -/
inductive Action
  | loop (now : ℚ)
  | thread (index : ℕ) (answer : Answer)
  | collect (index : ℕ)
  | fold
  | requestCancel
  | markCancelRequested

def PlanStep.toStepDict (step : PlanStep) : StepDict :=
  { stepId := step.stepId
    toolId := some step.toolId
    goal := some step.goal
    dependsOn := step.dependsOn }

def serializePlanSteps (steps : List PlanStep) : List StepDict := steps.map PlanStep.toStepDict

def buildReplanHistoryItem (outcome : ReplanOutcome) : ReplanHistoryItem :=
  { strategy := outcome.decision.strategy
    reason := outcome.decision.reason
    message := outcome.decision.message
    targetPlanVersion := outcome.plan.planVersion
    stepIdMapping := outcome.stepIdMappings }

/-- The outcome of a finished future; an exception becomes an internal error. -/
def Thread.result? (thread : Thread) : Option ToolResult :=
  match thread.prog with
  | .ret result => some result
  | .raise error => some (.failure "executor_internal_error" error.str false)
  | .act _ _ => none

namespace Executor

variable (E : Executor)

/-- The replanner is there and its budget is not spent. -/
def mayReplan (replanCount : ℕ) : Bool :=
  E.hasReplanner && (replanCount : ℤ) < E.maxReplanAttempts

def replanForMissingDependency (plan : ExecutionPlan) (pendingSteps : List PlanStep)
    (replanCount : ℕ) : Except PyError (Option ReplanOutcome) :=
  if !E.mayReplan replanCount then .ok none
  else match pendingSteps with
    | [] => .error (.valueError "list index out of range")
    | blockedStep :: _ => do
      let outcome ← Replanner.replanForMissingDependency plan blockedStep.stepId
      pure (some outcome)

def replanAfterFailure (plan : ExecutionPlan) (failedStep : PlanStep) (error : Option StepError)
    (replanCount : ℕ) : Except PyError (Option ReplanOutcome) :=
  if !E.mayReplan replanCount then .ok none
  else do
    let outcome ← Replanner.replanAfterFailure plan failedStep error
    pure (if outcome.decision.requiresHumanHandoff || !outcome.decision.shouldReplan then none
      else some outcome)

end Executor

namespace Config

variable (E : Executor) (c : Config)

def raise (error : PyError) : Config := { c with phase := .raised error }

/-- Runs a store operation of the main thread and goes on, or raises out of the call. -/
def withStore (f : InMemoryStateStore → Except PyError InMemoryStateStore)
    (next : Config → Config) : Config :=
  match f c.world.store with
  | .ok store => next { c with world := { c.world with store } }
  | .error error => c.raise error

def result (success : Bool) (error : Option StepError) : ExecutionResult :=
  { success
    stepResults := c.stepResults
    error
    traceId := c.plan.traceId
    planVersion := c.plan.planVersion
    replanHistory := c.replanHistory }

/-- Persists the status and returns without success. -/
def fail (status : ExecutionStatus) (error : Option StepError) : Config :=
  c.withStore (·.setSessionStatus c.plan.sessionId status) fun c =>
    { c with phase := .returned (c.result false error) }

/-- Persists `SUCCESS`, takes the final snapshot and returns. -/
def succeed : Config :=
  c.withStore (·.setSessionStatus c.plan.sessionId .success) fun c =>
    c.withStore
      (fun store => do
        let session ← store.getSession c.plan.sessionId
        store.saveSnapshot c.plan.sessionId
          (SnapshotManager.create session "final" .finalResponse
            (.counts c.stepResults.length c.replanCount)))
      fun c => { c with phase := .returned (c.result true none) }

/-- Goes on with a replanned plan. -/
def adopt (outcome : ReplanOutcome) : Config :=
  { c with
    plan := outcome.plan
    replanCount := c.replanCount + 1
    replanHistory := c.replanHistory ++ [buildReplanHistoryItem outcome] }.withStore
      (·.upsertPlanSteps outcome.plan.sessionId (serializePlanSteps outcome.plan.steps)
        outcome.plan.planVersion)
      fun c => { c with phase := .looping }

def pendingSteps : List PlanStep := c.plan.steps.filter fun step => step.stepId ∉ c.completed

def readySteps : List PlanStep :=
  c.pendingSteps.filter fun step => step.dependsOn.all (· ∈ c.completed)

def runnableSteps : List PlanStep :=
  sliceTo c.readySteps (min c.world.control.maxConcurrency c.plan.graphLimits.maxParallel)

def spawn (request : AgentRequest) (step : PlanStep) : Thread :=
  { step
    prog := E.executeSingleStep
      { plan := c.plan, step, request, context := c.context, control := c.world.control } }

/-- A round of the loop, up to an exit, a replan or the start of a batch. -/
def loop (request : AgentRequest) (now : ℚ) : Config :=
  match c.world.isCancelled c.plan.sessionId with
  | .error error => c.raise error
  | .ok true =>
    c.fail .canceled (some
      { code := "session_cancelled", message := "execution cancelled by control signal" })
  | .ok false =>
    if c.world.control.isSessionTimedOut now then
      c.fail .failed (some
        { code := "session_timeout", message := "execution exceeded session timeout" })
    else if c.pendingSteps.isEmpty then c.succeed
    else if c.readySteps.isEmpty then
      match E.replanForMissingDependency c.plan c.pendingSteps c.replanCount with
      | .error error => c.raise error
      | .ok none =>
        c.fail .failed (some
          { code := "dependency_blocked"
            message := "no executable step and replanner not available" })
      | .ok (some outcome) => c.adopt outcome
    else { c with phase := .batch (c.runnableSteps.map (c.spawn E request)) ∅ }

/-- Appends to `step_results` and to the context's summaries. -/
def record (outcome : StepOutcome) : Config :=
  { c with
    stepResults := c.stepResults ++
      [⟨outcome.step.stepId, outcome.step.toolId, c.plan.planVersion, outcome.result⟩]
    context := ContextManager.appendStepSummary c.context
      [("step_id", .str outcome.step.stepId), ("tool_id", .str outcome.step.toolId),
       ("success", .bool outcome.result.success)] }

/-- The fold over a batch's outcomes: a success completes its step, the first failure replans or
ends the call. -/
def foldOutcomes : Config → List StepOutcome → Config
  | c, [] => { c with phase := .looping }
  | c, outcome :: outcomes =>
    let c := c.record outcome
    if outcome.result.success then
      foldOutcomes { c with completed := outcome.step.stepId :: c.completed } outcomes
    else
      match E.replanAfterFailure c.plan outcome.step outcome.result.error c.replanCount with
      | .error error => c.raise error
      | .ok (some replan) => c.adopt replan
      | .ok none => c.fail .failed outcome.result.error

/-- The outcomes of a batch in the order of its steps. -/
def orderedResults (resultsByStepId : Dict String StepOutcome) :
    List Thread → Except PyError (List StepOutcome)
  | [] => .ok []
  | thread :: threads =>
    match resultsByStepId.get? thread.step.stepId with
    | none => .error (.keyError thread.step.stepId)
    | some outcome => do
      let outcomes ← orderedResults resultsByStepId threads
      pure (outcome :: outcomes)

/-- One action, if it is enabled. A cancel request is an action only while it changes something. -/
def step (request : AgentRequest) : Action → Option Config
  | .loop now =>
    match c.phase with
    | .looping => some (c.loop E request now)
    | _ => none
  | .thread index answer =>
    match c.phase with
    | .batch threads results =>
      match threads[index]? with
      | some thread =>
        match thread.prog with
        | .act upd next => some { c with
            world := upd answer c.world
            phase := .batch
              (threads.set index { thread with prog := next answer c.world }) results }
        | _ => none
      | none => none
    | _ => none
  | .collect index =>
    match c.phase with
    | .batch threads results =>
      match threads[index]? with
      | some thread =>
        if thread.collected then none
        else thread.result?.map fun result => { c with
          phase := .batch (threads.set index { thread with collected := true })
            (results.set thread.step.stepId ⟨thread.step, result⟩) }
      | none => none
    | _ => none
  | .fold =>
    match c.phase with
    | .batch threads results =>
      if threads.all (·.collected) then
        match orderedResults results threads with
        | .ok outcomes => some (foldOutcomes E c outcomes)
        | .error error => some (c.raise error)
      else none
    | _ => none
  | .requestCancel =>
    if c.world.control.cancelRequested then none
    else some { c with world := { c.world with control := c.world.control.requestCancel } }
  | .markCancelRequested =>
    match c.world.store.isCancelRequested c.plan.sessionId with
    | .ok false =>
      match c.world.store.markCancelRequested c.plan.sessionId with
      | .ok store => some { c with world := { c.world with store } }
      | .error _ => none
    | _ => none

end Config

namespace Executor

variable (E : Executor)

/-- `execute` up to the head of its loop: the session is created or updated, and what has
succeeded in it counts as completed. -/
def start (call : Call) (store : InMemoryStateStore) : Except PyError Config := do
  let store ← store.initSession call.plan.sessionId call.plan.requestId
    (serializePlanSteps call.plan.steps) call.plan.planVersion call.plan.traceId
  let session ← store.getSession call.plan.sessionId
  let recoveryPoint ← RecoveryService.findRecoveryPoint session
  let store ← store.setSessionStatus call.plan.sessionId .running
  pure
    { world := { store, control := call.control }
      context := call.context
      plan := call.plan
      completed := recoveryPoint.completedStepIds }

/-- Takes the actions one after the other; `none` if one of them is not enabled. -/
def run (request : AgentRequest) : Config → List Action → Option Config
  | c, [] => some c
  | c, action :: actions =>
    match c.step E request action with
    | some c' => run request c' actions
    | none => none

end Executor

end AgentLearning
