import AgentLearning.Context
import AgentLearning.Planner
import Mathlib.Data.List.Infix
import Mathlib.Data.List.Sort

/-!
# From a request to its plan

`agent-system/src/agent/planner.py`, `create_plan` with its keyword strategy, and `build` of
`agent/context.py`. A request that reaches them has passed the contract of requests, so the fields
they look up are there and have their types; what the metadata holds is any value.
-/

namespace AgentLearning

/-- `keyword in text`. -/
def hasKeyword (keyword text : String) : Bool := keyword.toList <:+: text.toList

/-- `request.get("metadata", {})`, as far as its `get` is there. -/
def AgentRequest.metadataFields (request : AgentRequest) : Except PyError (List (String × Json)) :=
  match request.metadata with
  | .obj metadata => .ok metadata
  | _ => .error (.attributeError "metadata has no attribute 'get'")

/-- `int(metadata.get(key, default))`. -/
def metadataInt (f : TextBuiltins) (metadata : List (String × Json)) (key : String)
    (default : ℤ) : Except PyError ℤ :=
  pyInt f ((getEntry key metadata).getD (.int default))

/-! ## The keyword strategy -/

namespace KeywordPlanningStrategy

variable (f : TextBuiltins) (request : AgentRequest)

/-- The `user_input` of a step. -/
def userInput : String := f.strip request.userInput

def hasIntent (keyword : String) : Bool := hasKeyword keyword (f.lower (userInput f request))

/-- The intents that have steps of their own. -/
inductive Route
  | notify
  | analysis
  | query
  | search
  deriving DecidableEq

/-- The first of the strategy's branches that the request takes. -/
def route : Route :=
  if hasIntent f request "notify" && "tool.notify" ∈ request.allowedTools then .notify
  else if (hasIntent f request "analyze" || hasIntent f request "analysis")
      && "tool.search" ∈ request.allowedTools && "tool.query_db" ∈ request.allowedTools then
    .analysis
  else if hasIntent f request "query" && "tool.query_db" ∈ request.allowedTools then .query
  else .search

def notifySteps (recipient : Json) : List PlanStep :=
  [{ stepId := "step-1"
     goal := "send notification"
     toolId := "tool.notify"
     payload := .obj
      [("channel", .str "slack"), ("recipient", recipient),
       ("message", .str (userInput f request))]
     doneCriteria := "notification status is queued" }]

def analysisSteps : List PlanStep :=
  [{ stepId := "step-1"
     goal := "collect external context"
     toolId := "tool.search"
     payload := .obj [("query", .str (userInput f request)), ("top_k", .int 5)]
     doneCriteria := "search returns at least one item" },
   { stepId := "step-2"
     goal := "collect structured metrics"
     toolId := "tool.query_db"
     payload := .obj [("sql", .str "SELECT 1 AS ok"), ("limit", .int 10)]
     doneCriteria := "query returns at least one row" },
   { stepId := "step-3"
     goal := "final consistency check"
     toolId := "tool.search"
     payload := .obj
      [("query", .str ("summary check: " ++ userInput f request)), ("top_k", .int 3)]
     dependsOn := ["step-1", "step-2"]
     doneCriteria := "summary check result is available" }]

def querySteps : List PlanStep :=
  [{ stepId := "step-1"
     goal := "run query"
     toolId := "tool.query_db"
     payload := .obj [("sql", .str "SELECT 1 AS ok"), ("limit", .int 10)]
     doneCriteria := "query returns row_count >= 1" }]

def searchSteps (selectedTool : String) : List PlanStep :=
  [{ stepId := "step-1"
     goal := "search relevant information"
     toolId := selectedTool
     payload := .obj [("query", .str (userInput f request)), ("top_k", .int 5)]
     doneCriteria := "search result is not empty" }]

def buildSteps : Except PyError (List PlanStep) :=
  match route f request with
  | .notify => do
    let metadata ← request.metadataFields
    pure (notifySteps f request ((getEntry "recipient" metadata).getD (.str "ops-team")))
  | .analysis => .ok (analysisSteps f request)
  | .query => .ok querySteps
  | .search =>
    if "tool.search" ∈ request.allowedTools then .ok (searchSteps f request "tool.search")
    else match request.allowedTools with
      | [] => .error (.valueError "list index out of range")
      | tool :: _ => .ok (searchSteps f request tool)

end KeywordPlanningStrategy

/-! ## The plan -/

namespace Planner

variable (f : TextBuiltins) (request : AgentRequest)

/-- The flags in the order they are added, a flag once for each time. -/
def riskFlags (metadata : List (String × Json)) (steps : List PlanStep) : List String :=
  let stepToolIds := steps.map PlanStep.toolId
  let userInput := f.lower request.userInput
  (if "tool.notify" ∈ stepToolIds then ["high_cost"] else [])
    ++ (if "tool.search" ∈ stepToolIds ∨ "tool.query_db" ∈ stepToolIds then
      ["external_dependency"] else [])
    ++ (if ["maybe", "unknown", "uncertain", "guess"].any (hasKeyword · userInput) then
      ["uncertain_information"] else [])
    ++ (if ((getEntry "high_cost" metadata).getD .null).truthy then ["high_cost"] else [])

def inferRisks (metadata : List (String × Json)) (steps : List PlanStep) : List String :=
  (riskFlags f request metadata steps).dedup.insertionSort (· ≤ ·)

/-- The steps under the timeout of the metadata, if it gives one. -/
def withStepTimeout (metadata : List (String × Json)) (steps : List PlanStep) :
    Except PyError (List PlanStep) :=
  match (getEntry "step_timeout_seconds" metadata).getD .null with
  | .null => .ok steps
  | value => do
    let timeoutSeconds ← pyInt f value
    pure (steps.map fun step => { step with timeoutSeconds })

/-- `metadata.get("trace_id") or f"trace-{request_id}-v{plan_version}"`, as a string. -/
def traceId (metadata : List (String × Json)) (planVersion : ℤ) : String :=
  let value := (getEntry "trace_id" metadata).getD .null
  if value.truthy then f.text value else s!"trace-{request.requestId}-v{planVersion}"

def createPlan : Except PyError ExecutionPlan := do
  raiseIf request.allowedTools.isEmpty (.valueError "allowed_tools must not be empty")
  let steps ← KeywordPlanningStrategy.buildSteps f request
  raiseIf steps.isEmpty (.valueError "planner produced empty plan")
  let metadata ← request.metadataFields
  let steps ← withStepTimeout f metadata steps
  let maxDepth ← metadataInt f metadata "max_depth" 6
  let maxParallel ← metadataInt f metadata "max_parallel" 4
  let planVersion ← metadataInt f metadata "plan_version" 1
  raiseIf (planVersion < 1) (.valueError "plan_version must be >= 1")
  let plan : ExecutionPlan :=
    { requestId := request.requestId
      sessionId := request.sessionId
      traceId := traceId f request metadata planVersion
      planVersion
      steps
      riskFlags := inferRisks f request metadata steps
      graphLimits := { maxDepth, maxParallel } }
  validatePlan plan request.allowedTools
  pure plan

end Planner

/-! ## The execution context -/

/-- The fields of `request.context.system`, as far as they are there. -/
structure SystemOptions where
  tenantId : Option String := none
  environment : Option String := none
  policyVersion : Option String := none

namespace ContextManager

def validateRequestFields (request : AgentRequest) : Except PyError Unit := do
  raiseIf (request.requestId = "") (.valueError "missing required field: request_id")
  raiseIf (request.sessionId = "") (.valueError "missing required field: session_id")
  raiseIf (request.userInput = "") (.valueError "missing required field: user_input")

def build (request : AgentRequest) (system : SystemOptions) : Except PyError ExecutionContext := do
  validateRequestFields request
  pure
    { system :=
        { tenantId := system.tenantId.getD "default-tenant"
          environment := system.environment.getD "local"
          policyVersion := system.policyVersion.getD "v1" }
      task :=
        { requestId := request.requestId
          sessionId := request.sessionId
          userInput := request.userInput }
      sourceMap :=
        [("request_id", "request.request_id"), ("session_id", "request.session_id"),
         ("user_input", "request.user_input"),
         ("tenant_id", "request.context.system.tenant_id")]
      maxStepSummaries := some defaultMaxStepSummaries }

end ContextManager

end AgentLearning
