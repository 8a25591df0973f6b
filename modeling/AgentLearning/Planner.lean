import AgentLearning.Lib.Dag
import AgentLearning.Value

/-!
# Plans and their validation

`agent-system/src/agent/planner.py`: the plan a request is turned into, and `validate_plan`, which
checks each step's fields, the dependency references, that the dependencies have no cycle, and the
depth and level widths of the graph against the plan's limits. The checks run in this order and the
first that fails raises.
-/

namespace AgentLearning

structure GraphLimits where
  maxDepth : ℤ := 6
  maxParallel : ℤ := 4
  deriving DecidableEq, Repr

structure PlanStep where
  stepId : String
  goal : String
  toolId : String
  payload : Json
  dependsOn : List String := []
  doneCriteria : String := "tool result success is true"
  timeoutSeconds : ℤ := 8
  allowRollback : Bool := true

structure ExecutionPlan where
  requestId : String
  sessionId : String
  traceId : String
  planVersion : ℤ
  steps : List PlanStep
  riskFlags : List String := []
  graphLimits : GraphLimits := {}

namespace ExecutionPlan

variable (plan : ExecutionPlan)

def stepIds : List String := plan.steps.map PlanStep.stepId

/-- `{step.step_id: list(step.depends_on) for step in plan.steps}`. -/
def dependencyMap : Dict String (List String) :=
  plan.steps.foldl (fun map step => map.set step.stepId step.dependsOn) ∅

/-- `dependency_map.get(step_id, [])`. -/
def dependencies (stepId : String) : List String := (plan.dependencyMap.get? stepId).getD []

/-- No traversal of the plan's graph goes deeper: a chain without a repeated step has at most
one node that is not a step of the plan. -/
def traversalFuel : ℕ := plan.steps.length + 1

end ExecutionPlan

namespace Planner

/-- One round of `_validate_step_fields`, after the ids of the steps before. -/
def validateStepField (allowedTools : List String) (stepIds : List String) (step : PlanStep) :
    Except PyError Unit := do
  raiseIf (step.stepId = "") (.valueError "step_id must not be empty")
  raiseIf (step.stepId ∈ stepIds) (.valueError s!"duplicate step_id: {step.stepId}")
  raiseIf (step.goal = "") (.valueError s!"step {step.stepId} missing goal")
  raiseIf (step.doneCriteria = "") (.valueError s!"step {step.stepId} missing done_criteria")
  raiseIf (step.toolId = "") (.valueError s!"step {step.stepId} missing tool_id")
  raiseIf (step.toolId ∉ allowedTools)
    (.valueError s!"step {step.stepId} uses disallowed tool: {step.toolId}")
  raiseIf (!step.payload.isObject) (.valueError s!"step {step.stepId} payload must be object")
  raiseIf (step.timeoutSeconds < 1)
    (.valueError s!"step {step.stepId} timeout_seconds must be >= 1")

def validateStepFields (allowedTools : List String) :
    List String → List PlanStep → Except PyError Unit
  | _, [] => .ok ()
  | stepIds, step :: steps => do
    validateStepField allowedTools stepIds step
    validateStepFields allowedTools (step.stepId :: stepIds) steps

def validateStepDependencies (stepIds : List String) (step : PlanStep) : Except PyError Unit :=
  step.dependsOn.forM fun dependencyStepId =>
    raiseIf (dependencyStepId ∉ stepIds)
      (.valueError s!"step {step.stepId} depends on unknown step: {dependencyStepId}")

def validateDependencies (plan : ExecutionPlan) : Except PyError Unit :=
  plan.steps.forM (validateStepDependencies plan.stepIds)

def stopError : Dag.Stop String → PyError
  | .cycle stepId => .valueError s!"cycle detected at step: {stepId}"
  | .fuel => .recursionError

def validateAcyclic (plan : ExecutionPlan) : Except PyError Unit :=
  match plan.stepIds.foldlM (Dag.dfs plan.dependencies plan.traversalFuel) {} with
  | .ok _ => .ok ()
  | .error stop => .error (stopError stop)

def buildDepthMap (plan : ExecutionPlan) : Except PyError (Dict String ℕ) :=
  match Dag.depthMap plan.dependencies plan.traversalFuel ∅ plan.stepIds with
  | some cache => .ok cache
  | none => .error .recursionError

def validateDepth (plan : ExecutionPlan) : Except PyError Unit := do
  let depthMap ← buildDepthMap plan
  match depthMap.values.max? with
  | none => .error (.valueError "max() arg is an empty sequence")
  | some maxDepth =>
    raiseIf ((maxDepth : ℤ) > plan.graphLimits.maxDepth)
      (.valueError s!"plan depth {maxDepth} exceeds max_depth {plan.graphLimits.maxDepth}")

/-- How many steps have each depth. -/
def countDepths (depths : List ℕ) : Dict ℕ ℕ :=
  depths.foldl (fun count depth => count.set depth ((count.get? depth).getD 0 + 1)) ∅

def validateParallelism (plan : ExecutionPlan) : Except PyError Unit := do
  let depthMap ← buildDepthMap plan
  let estimatedParallel := (countDepths depthMap.values).values.max?.getD 0
  raiseIf ((estimatedParallel : ℤ) > plan.graphLimits.maxParallel)
    (.valueError (s!"plan estimated parallelism {estimatedParallel} " ++
      s!"exceeds max_parallel {plan.graphLimits.maxParallel}"))

def validatePlan (plan : ExecutionPlan) (allowedTools : List String) : Except PyError Unit := do
  raiseIf (plan.graphLimits.maxDepth < 1) (.valueError "graph max_depth must be >= 1")
  raiseIf (plan.graphLimits.maxParallel < 1) (.valueError "graph max_parallel must be >= 1")
  validateStepFields allowedTools [] plan.steps
  validateDependencies plan
  validateAcyclic plan
  validateDepth plan
  validateParallelism plan

end Planner

end AgentLearning
