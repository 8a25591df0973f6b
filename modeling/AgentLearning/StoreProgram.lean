import AgentLearning.Store

/-!
# The store's operations, statement by statement

The operations of `agent-system/src/state/store.py` that write, as the interpreter runs them on
objects it shares with the store: a lookup that can raise, then one assignment after another, each
visible at once. What was assigned before an exception stays. `updated_at` is left out here too,
but not the lookup in front of it.
-/

namespace AgentLearning

/-- A statement of the store: it may raise, and then leaves the store as it is by then. -/
abbrev StoreM := EStateM PyError InMemoryStateStore

namespace StoreM

variable (sessionId stepId : String)

def getSession : StoreM SessionState := do
  match (← get).sessions.get? sessionId with
  | some session => pure session
  | none => throw (.keyError s!"session not found: {sessionId}")

def getStep : StoreM StepState := do
  let session ← getSession sessionId
  match session.steps.get? stepId with
  | some step => pure step
  | none => throw (.keyError s!"step not found: {stepId}")

/-- An assignment to a session object of the store. -/
def assign (f : SessionState → SessionState) : StoreM Unit :=
  modify fun store =>
    match store.sessions.get? sessionId with
    | some session => { store with sessions := store.sessions.set sessionId (f session) }
    | none => store

/-- An assignment to a step object of a session. -/
def assignStep (f : StepState → StepState) : StoreM Unit :=
  assign sessionId fun session =>
    match session.steps.get? stepId with
    | some step => { session with steps := session.steps.set stepId (f step) }
    | none => session

def touchSession : StoreM Unit := do
  let _ ← getSession sessionId

/-- The body of the loop over the step dictionaries. -/
def insertStep (step : StepDict) : StoreM Unit := do
  let session ← getSession sessionId
  if (session.steps.get? step.stepId).isSome then pure ()
  else do
    assign sessionId fun session =>
      { session with steps := session.steps.set step.stepId step.toState }
    assign sessionId fun session =>
      { session with stepSequence := session.stepSequence ++ [step.stepId] }

def upsertPlanSteps (steps : List StepDict) (planVersion : ℤ) : StoreM Unit := do
  let _ ← getSession sessionId
  assign sessionId fun session =>
    { session with planVersion := max session.planVersion planVersion }
  steps.forM (insertStep sessionId)
  touchSession sessionId

def initSession (requestId : String) (steps : List StepDict) (planVersion : ℤ)
    (traceId : String) : StoreM Unit := do
  if ((← get).sessions.get? sessionId).isSome then do
    assign sessionId fun session => { session with requestId }
    assign sessionId fun session =>
      { session with traceId := if traceId = "" then session.traceId else traceId }
    assign sessionId fun session =>
      { session with planVersion := max session.planVersion planVersion }
    upsertPlanSteps sessionId steps planVersion
    touchSession sessionId
  else do
    modify fun store => { store with
      sessions := store.sessions.set sessionId { sessionId, requestId, traceId, planVersion } }
    upsertPlanSteps sessionId steps planVersion

def setSessionStatus (status : ExecutionStatus) : StoreM Unit := do
  let _ ← getSession sessionId
  assign sessionId fun session => { session with status }
  touchSession sessionId

def markCancelRequested : StoreM Unit := do
  let _ ← getSession sessionId
  assign sessionId fun session => { session with cancelRequested := true }
  touchSession sessionId

def markStepRunning : StoreM Unit := do
  let _ ← getStep sessionId stepId
  assignStep sessionId stepId fun step => { step with status := .running }
  assignStep sessionId stepId fun step => { step with attempts := step.attempts + 1 }
  touchSession sessionId

def markStepWaitingTool : StoreM Unit := do
  let _ ← getStep sessionId stepId
  assignStep sessionId stepId fun step => { step with status := .waitingTool }
  touchSession sessionId

def markStepSuccess (result : ToolResult) (idempotencyKey : String) : StoreM Unit := do
  let _ ← getStep sessionId stepId
  assignStep sessionId stepId fun step => { step with status := .success }
  assignStep sessionId stepId fun step => { step with result := some result }
  assignStep sessionId stepId fun step => { step with error := none }
  assignStep sessionId stepId fun step => { step with idempotencyKey }
  touchSession sessionId

def markStepFailed (error : Option StepError) : StoreM Unit := do
  let _ ← getStep sessionId stepId
  assignStep sessionId stepId fun step => { step with status := .failed }
  assignStep sessionId stepId fun step => { step with error }
  touchSession sessionId

def markStepCanceled (reason : StepError) : StoreM Unit := do
  let _ ← getStep sessionId stepId
  assignStep sessionId stepId fun step => { step with status := .canceled }
  assignStep sessionId stepId fun step => { step with error := some reason }
  touchSession sessionId

def saveSnapshot (snapshot : StepSnapshot) : StoreM Unit := do
  let _ ← getSession sessionId
  assign sessionId fun session => { session with snapshots := session.snapshots ++ [snapshot] }
  touchSession sessionId

end StoreM

/-- A call of an operation that writes, with its arguments. -/
inductive StoreOp
  | initSession (sessionId requestId : String) (steps : List StepDict) (planVersion : ℤ)
    (traceId : String)
  | upsertPlanSteps (sessionId : String) (steps : List StepDict) (planVersion : ℤ)
  | setSessionStatus (sessionId : String) (status : ExecutionStatus)
  | markCancelRequested (sessionId : String)
  | markStepRunning (sessionId stepId : String)
  | markStepWaitingTool (sessionId stepId : String)
  | markStepSuccess (sessionId stepId : String) (result : ToolResult) (idempotencyKey : String)
  | markStepFailed (sessionId stepId : String) (error : Option StepError)
  | markStepCanceled (sessionId stepId : String) (reason : StepError)
  | saveSnapshot (sessionId : String) (snapshot : StepSnapshot)

namespace StoreOp

def run : StoreOp → StoreM Unit
  | .initSession sid requestId steps planVersion traceId =>
    StoreM.initSession sid requestId steps planVersion traceId
  | .upsertPlanSteps sid steps planVersion => StoreM.upsertPlanSteps sid steps planVersion
  | .setSessionStatus sid status => StoreM.setSessionStatus sid status
  | .markCancelRequested sid => StoreM.markCancelRequested sid
  | .markStepRunning sid id => StoreM.markStepRunning sid id
  | .markStepWaitingTool sid id => StoreM.markStepWaitingTool sid id
  | .markStepSuccess sid id result key => StoreM.markStepSuccess sid id result key
  | .markStepFailed sid id error => StoreM.markStepFailed sid id error
  | .markStepCanceled sid id reason => StoreM.markStepCanceled sid id reason
  | .saveSnapshot sid snapshot => StoreM.saveSnapshot sid snapshot

/-- The store after the call, whether it returned or raised. -/
def exec (op : StoreOp) (store : InMemoryStateStore) : InMemoryStateStore :=
  match EStateM.run op.run store with
  | .ok _ store' => store'
  | .error _ store' => store'

/-- The store after a sequence of calls on a new one. -/
def execAll (ops : List StoreOp) : InMemoryStateStore :=
  ops.foldl (fun store op => op.exec store) {}

end StoreOp

end AgentLearning
