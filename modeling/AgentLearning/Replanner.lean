import AgentLearning.Planner

/-!
# Replanning

`agent-system/src/agent/replanner.py`: after a failed step the error's code decides between handing
over to a human, replacing the one step (`local_replace`), and renaming the step and all that stand
after it in the plan's list (`rollback_retry`). Every new step id is the old one followed by
`-replan-v` and the new plan version.
-/

namespace AgentLearning

inductive ReplanStrategy
  | localReplace
  | rollbackRetry
  | humanHandoff
  deriving DecidableEq, Repr

structure ReplanDecision where
  shouldReplan : Bool
  strategy : ReplanStrategy
  reason : String
  message : String
  requiresHumanHandoff : Bool := false
  deriving DecidableEq, Repr

structure StepIdMapping where
  sourceStepId : String
  targetStepId : String
  planVersion : ℤ
  deriving DecidableEq, Repr

structure ReplanOutcome where
  plan : ExecutionPlan
  decision : ReplanDecision
  stepIdMappings : List StepIdMapping := []

namespace Replanner

/-- `f"{step_id}-replan-v{plan_version}"`. -/
def replanStepId (stepId : String) (planVersion : ℤ) : String :=
  stepId ++ "-replan-v" ++ toString planVersion

def buildDecision (error : Option StepError) (reason : String) : ReplanDecision :=
  let errorCode := (error.map (·.code)).getD "unknown_error"
  if errorCode ∈ ["permission_denied", "schema_validation_error", "invalid_business_input"] then
    { shouldReplan := false
      strategy := .humanHandoff
      reason
      message := s!"manual handoff required for {errorCode}"
      requiresHumanHandoff := true }
  else if errorCode ∈ ["tool_timeout", "transient_network_error", "retry_exhausted",
      "service_unavailable"] then
    { shouldReplan := true
      strategy := .localReplace
      reason
      message := s!"retry with local replace for {errorCode}" }
  else
    { shouldReplan := true
      strategy := .rollbackRetry
      reason
      message := s!"fallback to rollback retry for {errorCode}" }

def localReplace (plan : ExecutionPlan) (failedStep : PlanStep) (decision : ReplanDecision) :
    ReplanOutcome :=
  let newPlanVersion := plan.planVersion + 1
  let replacementStepId := replanStepId failedStep.stepId newPlanVersion
  let replacementStep := { failedStep with
    stepId := replacementStepId
    goal := failedStep.goal ++ " (replanned)" }
  let remappedSteps := plan.steps.map fun step =>
    if step.stepId = failedStep.stepId then replacementStep
    else { step with dependsOn := step.dependsOn.map fun dependencyStepId =>
      if dependencyStepId = failedStep.stepId then replacementStepId else dependencyStepId }
  { plan := { plan with planVersion := newPlanVersion, steps := remappedSteps }
    decision
    stepIdMappings := [⟨failedStep.stepId, replacementStepId, newPlanVersion⟩] }

/-- The `step_id_map` of a suffix that is renamed. -/
def stepIdMap (mutableSuffix : List PlanStep) (newPlanVersion : ℤ) : Dict String String :=
  mutableSuffix.foldl
    (fun map step => map.set step.stepId (replanStepId step.stepId newPlanVersion)) ∅

/-- A suffix step under its new id, its dependencies renamed by the map. -/
def remapSuffixStep (map : Dict String String) (step : PlanStep) : PlanStep :=
  { step with
    stepId := (map.get? step.stepId).getD step.stepId
    goal := step.goal ++ " (rollback-replan)"
    dependsOn := step.dependsOn.map fun dependencyStepId =>
      (map.get? dependencyStepId).getD dependencyStepId }

def findStepIndex (plan : ExecutionPlan) (stepId : String) : Except PyError ℕ :=
  match plan.steps.findIdx? (·.stepId = stepId) with
  | some index => .ok index
  | none => .error (.valueError s!"step index not found for replan: {stepId}")

def rollbackRetry (plan : ExecutionPlan) (failedStep : PlanStep) (decision : ReplanDecision) :
    Except PyError ReplanOutcome := do
  let newPlanVersion := plan.planVersion + 1
  let failedStepIndex ← findStepIndex plan failedStep.stepId
  let immutablePrefix := plan.steps.take failedStepIndex
  let mutableSuffix := plan.steps.drop failedStepIndex
  let map := stepIdMap mutableSuffix newPlanVersion
  let remappedSuffix := mutableSuffix.map (remapSuffixStep map)
  pure
    { plan := { plan with
        planVersion := newPlanVersion
        steps := immutablePrefix ++ remappedSuffix }
      decision
      stepIdMappings := mutableSuffix.map fun step =>
        ⟨step.stepId, (map.get? step.stepId).getD step.stepId, newPlanVersion⟩ }

def findStep (plan : ExecutionPlan) (stepId : String) : Except PyError PlanStep :=
  match plan.steps.find? (·.stepId = stepId) with
  | some step => .ok step
  | none => .error (.valueError s!"step not found for replan: {stepId}")

def replanAfterFailure (plan : ExecutionPlan) (failedStep : PlanStep) (error : Option StepError) :
    Except PyError ReplanOutcome :=
  let decision := buildDecision error "step_failed"
  if !decision.shouldReplan then .ok { plan, decision }
  else if decision.strategy = .localReplace then .ok (localReplace plan failedStep decision)
  else rollbackRetry plan failedStep decision

def replanForMissingDependency (plan : ExecutionPlan) (blockedStepId : String) :
    Except PyError ReplanOutcome := do
  let failedStep ← findStep plan blockedStepId
  rollbackRetry plan failedStep
    { shouldReplan := true
      strategy := .rollbackRetry
      reason := "missing_dependency"
      message := s!"dependency graph blocked at {blockedStepId}" }

end Replanner

end AgentLearning
