import AgentLearning.Value

/-!
# Session state

`agent-system/src/state/`: the in-memory store of sessions and their step states, the snapshots a
session collects, and the recovery point an execution resumes from. Every operation looks its
session up first, and raises `KeyError` for an unknown session or step. Time stamps are left out:
nothing reads them.
-/

namespace AgentLearning

inductive ExecutionStatus
  | pending
  | running
  | waitingTool
  | success
  | failed
  | canceled
  deriving DecidableEq, Repr

structure StepState where
  stepId : String
  toolId : String
  goal : String := ""
  dependsOn : List String := []
  status : ExecutionStatus := .pending
  attempts : ℕ := 0
  idempotencyKey : String := ""
  result : Option ToolResult := none
  error : Option StepError := none

/-- The boundary of a step a snapshot is taken at. -/
inductive SnapshotPhase
  | preStep
  | postSuccess
  | postFailed
  | finalResponse
  deriving DecidableEq, Repr

/-- What a snapshot records: the attempt about to run, the result of one, or the final counts. -/
inductive SnapshotPayload
  | attempt (attempt : ℤ) (toolId idempotencyKey : String)
  | result (attempt : ℤ) (result : ToolResult)
  | counts (stepResults replanCount : ℕ)

structure StepSnapshot where
  snapshotId : String
  sessionId : String
  stepId : String
  phase : SnapshotPhase
  payload : SnapshotPayload

structure SessionState where
  sessionId : String
  requestId : String
  traceId : String := ""
  planVersion : ℤ := 1
  status : ExecutionStatus := .pending
  cancelRequested : Bool := false
  steps : Dict String StepState := ∅
  stepSequence : List String := []
  snapshots : List StepSnapshot := []

/-- A step as the planner hands it to the store. -/
structure StepDict where
  stepId : String
  toolId : Option String := none
  goal : Option String := none
  dependsOn : List String := []

/-- A new entry for a step dictionary. -/
def StepDict.toState (step : StepDict) : StepState :=
  { stepId := step.stepId
    toolId := step.toolId.getD ""
    goal := step.goal.getD ""
    dependsOn := step.dependsOn }

/-- Inserts a step that is not there; one that is there stays as it is. -/
def SessionState.insertStep (session : SessionState) (step : StepDict) : SessionState :=
  if (session.steps.get? step.stepId).isSome then session
  else { session with
    steps := session.steps.set step.stepId step.toState
    stepSequence := session.stepSequence ++ [step.stepId] }

structure InMemoryStateStore where
  sessions : Dict String SessionState := ∅

namespace InMemoryStateStore

variable (store : InMemoryStateStore) (sessionId : String)

def getSession : Except PyError SessionState :=
  match store.sessions.get? sessionId with
  | some session => .ok session
  | none => .error (.keyError s!"session not found: {sessionId}")

/-- Looks a session up and writes it back changed. -/
def modifySession (f : SessionState → SessionState) : Except PyError InMemoryStateStore := do
  let session ← store.getSession sessionId
  pure { store with sessions := store.sessions.set sessionId (f session) }

def getStep (stepId : String) : Except PyError StepState := do
  let session ← store.getSession sessionId
  match session.steps.get? stepId with
  | some step => pure step
  | none => throw (.keyError s!"step not found: {stepId}")

/-- Looks a step up and writes it back changed. -/
def modifyStep (stepId : String) (f : StepState → StepState) :
    Except PyError InMemoryStateStore := do
  let step ← store.getStep sessionId stepId
  store.modifySession sessionId fun session =>
    { session with steps := session.steps.set stepId (f step) }

def upsertPlanSteps (steps : List StepDict) (planVersion : ℤ) :
    Except PyError InMemoryStateStore :=
  store.modifySession sessionId fun session =>
    steps.foldl SessionState.insertStep
      { session with planVersion := max session.planVersion planVersion }

def initSession (requestId : String) (steps : List StepDict) (planVersion : ℤ)
    (traceId : String) : Except PyError InMemoryStateStore :=
  match store.sessions.get? sessionId with
  | some session =>
    let session := { session with
      requestId
      traceId := if traceId = "" then session.traceId else traceId
      planVersion := max session.planVersion planVersion }
    upsertPlanSteps { store with sessions := store.sessions.set sessionId session }
      sessionId steps planVersion
  | none =>
    let session : SessionState := { sessionId, requestId, traceId, planVersion }
    upsertPlanSteps { store with sessions := store.sessions.set sessionId session }
      sessionId steps planVersion

def setSessionStatus (status : ExecutionStatus) : Except PyError InMemoryStateStore :=
  store.modifySession sessionId fun session => { session with status }

def markCancelRequested : Except PyError InMemoryStateStore :=
  store.modifySession sessionId fun session => { session with cancelRequested := true }

def isCancelRequested : Except PyError Bool := do
  let session ← store.getSession sessionId
  pure session.cancelRequested

def markStepRunning (stepId : String) : Except PyError InMemoryStateStore :=
  store.modifyStep sessionId stepId fun step =>
    { step with status := .running, attempts := step.attempts + 1 }

def markStepWaitingTool (stepId : String) : Except PyError InMemoryStateStore :=
  store.modifyStep sessionId stepId fun step => { step with status := .waitingTool }

def markStepSuccess (stepId : String) (result : ToolResult) (idempotencyKey : String) :
    Except PyError InMemoryStateStore :=
  store.modifyStep sessionId stepId fun step =>
    { step with status := .success, result := some result, error := none, idempotencyKey }

def markStepFailed (stepId : String) (error : Option StepError) :
    Except PyError InMemoryStateStore :=
  store.modifyStep sessionId stepId fun step => { step with status := .failed, error }

def markStepCanceled (stepId : String) (reason : StepError) : Except PyError InMemoryStateStore :=
  store.modifyStep sessionId stepId fun step =>
    { step with status := .canceled, error := some reason }

def shouldSkipStep (stepId idempotencyKey : String) : Except PyError Bool := do
  let step ← store.getStep sessionId stepId
  pure (step.status = .success && step.idempotencyKey ≠ "" &&
    step.idempotencyKey = idempotencyKey)

def getStepResult (stepId : String) : Except PyError (Option ToolResult) := do
  let step ← store.getStep sessionId stepId
  pure step.result

def saveSnapshot (snapshot : StepSnapshot) : Except PyError InMemoryStateStore :=
  store.modifySession sessionId fun session =>
    { session with snapshots := session.snapshots ++ [snapshot] }

/-- `f"{request_id}:{step_id}:{version}"`. -/
def buildIdempotencyKey (requestId stepId : String) (version : ℤ) : String :=
  requestId ++ ":" ++ stepId ++ ":" ++ toString version

end InMemoryStateStore

namespace SnapshotManager

def buildSnapshotId (sessionId stepId : String) (snapshotIndex : ℕ) : String :=
  sessionId ++ ":" ++ stepId ++ ":" ++ toString snapshotIndex

def create (session : SessionState) (stepId : String) (phase : SnapshotPhase)
    (payload : SnapshotPayload) : StepSnapshot :=
  { snapshotId := buildSnapshotId session.sessionId stepId session.snapshots.length
    sessionId := session.sessionId
    stepId
    phase
    payload }

end SnapshotManager

structure RecoveryPoint where
  sessionId : String
  completedStepIds : List String
  resumeStepId : Option String
  snapshotId : Option String

namespace RecoveryService

/-- The steps of the sequence whose status is `SUCCESS` or is not, in order; an id without an
entry raises. -/
def stepIdsWhere (session : SessionState) (success : Bool) :
    List String → Except PyError (List String)
  | [] => .ok []
  | stepId :: stepIds =>
    match session.steps.get? stepId with
    | none => .error (.keyError stepId)
    | some step => do
      let rest ← stepIdsWhere session success stepIds
      pure (if (step.status = .success : Bool) = success then stepId :: rest else rest)

def findSnapshotId (session : SessionState) : Option String → Option String
  | none => session.snapshots.getLast?.map (·.snapshotId)
  | some stepId => (session.snapshots.reverse.find? (·.stepId = stepId)).map (·.snapshotId)

/-- The first step of the sequence whose status is not `SUCCESS`. -/
def resumeStepId (session : SessionState) : List String → Except PyError (Option String)
  | [] => .ok none
  | stepId :: stepIds =>
    match session.steps.get? stepId with
    | none => .error (.keyError stepId)
    | some step => if step.status ≠ .success then .ok (some stepId) else
      resumeStepId session stepIds

def findRecoveryPoint (session : SessionState) (stepId : Option String := none) :
    Except PyError RecoveryPoint := do
  let completedStepIds ← stepIdsWhere session true session.stepSequence
  match stepId with
  | some stepId =>
    pure
      { sessionId := session.sessionId
        completedStepIds
        resumeStepId := some stepId
        snapshotId := findSnapshotId session (some stepId) }
  | none =>
    let resumeStepId ← resumeStepId session session.stepSequence
    pure
      { sessionId := session.sessionId
        completedStepIds
        resumeStepId
        snapshotId := findSnapshotId session resumeStepId }

end RecoveryService

namespace InMemoryStateStore

variable (store : InMemoryStateStore) (sessionId : String)

def completedStepIds : Except PyError (List String) := do
  let session ← store.getSession sessionId
  RecoveryService.stepIdsWhere session true session.stepSequence

def pendingStepIds : Except PyError (List String) := do
  let session ← store.getSession sessionId
  RecoveryService.stepIdsWhere session false session.stepSequence

end InMemoryStateStore

end AgentLearning
