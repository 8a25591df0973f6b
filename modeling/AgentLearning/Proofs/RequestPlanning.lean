import AgentLearning.Proofs.Validate
import AgentLearning.RequestPlanning

/-!
# Which requests have a plan

The checks of a plan's graph look at nothing but the ids and the dependencies of its steps, and each
route of the keyword strategy has one graph, so the depth and the width of the plan are known from
the route. The other checks hold of every step the strategy makes but for its tool's name and the
timeout that the metadata gives.
-/

namespace AgentLearning

open Planner KeywordPlanningStrategy

/-! ## The graph of a plan -/

/-- What the checks of the graph look at. -/
def graphOf (steps : List PlanStep) : List (String × List String) :=
  steps.map fun step => (step.stepId, step.dependsOn)

section Graph

variable {plan plan' : ExecutionPlan}

theorem stepIds_of_graph (h : graphOf plan.steps = graphOf plan'.steps) :
    plan.stepIds = plan'.stepIds := by
  have := congrArg (List.map Prod.fst) h
  simpa [graphOf, ExecutionPlan.stepIds, Function.comp_def] using this

theorem dependencies_of_graph (h : graphOf plan.steps = graphOf plan'.steps) :
    plan.dependencies = plan'.dependencies := by
  have hmap (p : ExecutionPlan) : p.dependencyMap
      = (graphOf p.steps).foldl (fun map entry => map.set entry.1 entry.2) ∅ := by
    rw [graphOf, List.foldl_map]
    rfl
  funext stepId
  rw [ExecutionPlan.dependencies, ExecutionPlan.dependencies, hmap, hmap, h]

theorem traversalFuel_of_graph (h : graphOf plan.steps = graphOf plan'.steps) :
    plan.traversalFuel = plan'.traversalFuel := by
  have := congrArg List.length h
  simpa [graphOf, ExecutionPlan.traversalFuel] using this

theorem validateAcyclic_of_graph (h : graphOf plan.steps = graphOf plan'.steps) :
    validateAcyclic plan = validateAcyclic plan' := by
  rw [validateAcyclic, validateAcyclic, stepIds_of_graph h, dependencies_of_graph h,
    traversalFuel_of_graph h]

theorem buildDepthMap_of_graph (h : graphOf plan.steps = graphOf plan'.steps) :
    buildDepthMap plan = buildDepthMap plan' := by
  rw [buildDepthMap, buildDepthMap, stepIds_of_graph h, dependencies_of_graph h,
    traversalFuel_of_graph h]

end Graph

/-! ## The steps of a route -/

def KeywordPlanningStrategy.Route.graph : Route → List (String × List String)
  | .analysis => [("step-1", []), ("step-2", []), ("step-3", ["step-1", "step-2"])]
  | _ => [("step-1", [])]

/-- The depth of the route's graph, which is its width as well. -/
def KeywordPlanningStrategy.Route.levels : Route → ℕ
  | .analysis => 2
  | _ => 1

/-- A plan with this graph and nothing else in it. -/
def bareRoutePlan (r : Route) : ExecutionPlan :=
  { requestId := ""
    sessionId := ""
    traceId := ""
    planVersion := 1
    steps := r.graph.map fun entry =>
      { stepId := entry.1, goal := "", toolId := "", payload := .null, dependsOn := entry.2 } }

theorem graphOf_bareRoutePlan (r : Route) : graphOf (bareRoutePlan r).steps = r.graph := by
  cases r <;> rfl

section Checks

variable {plan : ExecutionPlan} {r : Route} (h : graphOf plan.steps = r.graph)

include h

theorem validateAcyclic_of_route : validateAcyclic plan = .ok () := by
  rw [validateAcyclic_of_graph (h.trans (graphOf_bareRoutePlan r).symm)]
  cases r <;> rfl

theorem depths_of_route : ∃ depths, buildDepthMap plan = .ok depths
    ∧ depths.values.max? = some r.levels
    ∧ (countDepths depths.values).values.max?.getD 0 = r.levels := by
  rw [buildDepthMap_of_graph (h.trans (graphOf_bareRoutePlan r).symm)]
  cases r <;> exact ⟨_, rfl, rfl, rfl⟩

theorem validateDepth_of_route :
    validateDepth plan = .ok () ↔ (r.levels : ℤ) ≤ plan.graphLimits.maxDepth := by
  obtain ⟨depths, hdepths, hmax, -⟩ := depths_of_route h
  simp only [validateDepth, hdepths, bind, Except.bind, hmax, raiseIf_eq_ok]
  omega

theorem validateParallelism_of_route :
    validateParallelism plan = .ok () ↔ (r.levels : ℤ) ≤ plan.graphLimits.maxParallel := by
  obtain ⟨depths, hdepths, -, hmax⟩ := depths_of_route h
  simp only [validateParallelism, hdepths, bind, Except.bind, hmax, raiseIf_eq_ok]
  omega

theorem stepIds_of_route : plan.stepIds = r.graph.map Prod.fst := by
  rw [← h]
  simp [graphOf, ExecutionPlan.stepIds, Function.comp_def]

theorem known_of_route : ∀ step ∈ plan.steps, ∀ d ∈ step.dependsOn, d ∈ plan.stepIds := by
  intro step hstep d hd
  have hentry : (step.stepId, step.dependsOn) ∈ r.graph := h ▸ List.mem_map_of_mem hstep
  rw [stepIds_of_route h]
  have hclosed : ∀ entry ∈ r.graph, ∀ d ∈ entry.2, d ∈ r.graph.map Prod.fst := by
    cases r <;> decide
  exact hclosed _ hentry d hd

/-- A plan with a route's graph is accepted as far as its limits and its steps' fields allow. -/
theorem accepted_of_route_iff {tools : List String} : Accepted plan tools ↔
    (r.levels : ℤ) ≤ plan.graphLimits.maxDepth ∧ (r.levels : ℤ) ≤ plan.graphLimits.maxParallel
      ∧ ∀ step ∈ plan.steps, FieldsOk tools step := by
  have hlevels : 1 ≤ r.levels := by cases r <;> decide
  constructor
  · exact fun hplan => ⟨(validateDepth_of_route h).mp hplan.depth,
      (validateParallelism_of_route h).mp hplan.parallelism, hplan.fields⟩
  · rintro ⟨hdepth, hparallel, hfields⟩
    refine ⟨by omega, by omega, hfields, ?_, known_of_route h, validateAcyclic_of_route h,
      (validateDepth_of_route h).mpr hdepth, (validateParallelism_of_route h).mpr hparallel⟩
    rw [stepIds_of_route h]
    cases r <;> decide

end Checks

section Steps

variable {f : TextBuiltins} {request : AgentRequest}

/-- What the strategy makes sure of in a step. -/
structure Built (request : AgentRequest) (step : PlanStep) : Prop where
  stepId : step.stepId ≠ ""
  goal : step.goal ≠ ""
  doneCriteria : step.doneCriteria ≠ ""
  allowed : step.toolId ∈ request.allowedTools
  payload : step.payload.isObject
  timeoutSeconds : step.timeoutSeconds = 8

/-- The tool that the search route takes. -/
def searchTool (request : AgentRequest) : Option String :=
  if "tool.search" ∈ request.allowedTools then some "tool.search" else request.allowedTools.head?

/-- No step is left without a tool: what the last route falls back on has a name. -/
def NamedTool (f : TextBuiltins) (request : AgentRequest) : Prop :=
  route f request = .search → searchTool request ≠ some ""

theorem mem_of_searchTool {tool : String} (h : searchTool request = some tool) :
    tool ∈ request.allowedTools := by
  unfold searchTool at h
  split_ifs at h with hsearch
  · cases h
    exact hsearch
  · exact List.mem_of_head? h

theorem route_notify (h : route f request = .notify) : "tool.notify" ∈ request.allowedTools := by
  unfold route at h
  split_ifs at h with h1
  simp_all

theorem route_analysis (h : route f request = .analysis) :
    "tool.search" ∈ request.allowedTools ∧ "tool.query_db" ∈ request.allowedTools := by
  unfold route at h
  split_ifs at h with h1 h2
  simp_all

theorem route_query (h : route f request = .query) : "tool.query_db" ∈ request.allowedTools := by
  unfold route at h
  split_ifs at h with h1 h2 h3
  simp_all

theorem buildSteps_search {tool : String} (h : route f request = .search)
    (htool : searchTool request = some tool) :
    buildSteps f request = .ok (searchSteps f request tool) := by
  unfold buildSteps
  rw [h]
  unfold searchTool at htool
  split_ifs at htool with hsearch
  · cases htool
    simp [hsearch]
  · rcases hlist : request.allowedTools with _ | ⟨first, rest⟩
    · simp [hlist] at htool
    · rw [hlist] at htool hsearch
      cases htool
      simp [hsearch]

/-- With metadata and at least one tool the strategy makes steps, with the graph of its route; a
step has no tool only if that is the name of the tool the request allows first. -/
theorem buildSteps_spec (htools : request.allowedTools ≠ []) {metadata : List (String × Json)}
    (hmetadata : request.metadata = .obj metadata) :
    ∃ steps, buildSteps f request = .ok steps ∧ graphOf steps = (route f request).graph
      ∧ (∀ step ∈ steps, Built request step)
      ∧ ((∀ step ∈ steps, step.toolId ≠ "") ↔ NamedTool f request) := by
  cases hroute : route f request with
  | notify =>
    have hallowed := route_notify hroute
    have hsteps : buildSteps f request = .ok
        (notifySteps f request ((getEntry "recipient" metadata).getD (.str "ops-team"))) := by
      simp only [buildSteps, hroute, AgentRequest.metadataFields, hmetadata]
      rfl
    refine ⟨_, hsteps, rfl, ?_, ?_⟩
    · simp only [notifySteps, List.mem_singleton, forall_eq]
      exact ⟨by simp, by simp, by simp, hallowed, rfl, rfl⟩
    · simp [NamedTool, hroute, notifySteps]
  | analysis =>
    obtain ⟨hsearch, hquery⟩ := route_analysis hroute
    refine ⟨analysisSteps f request, by simp only [buildSteps, hroute], rfl, ?_, ?_⟩
    · simp only [analysisSteps, List.mem_cons, List.not_mem_nil, or_false, forall_eq_or_imp,
        forall_eq]
      exact ⟨⟨by simp, by simp, by simp, hsearch, rfl, rfl⟩,
        ⟨by simp, by simp, by simp, hquery, rfl, rfl⟩,
        by simp, by simp, by simp, hsearch, rfl, rfl⟩
    · simp [NamedTool, hroute, analysisSteps]
  | query =>
    have hallowed := route_query hroute
    refine ⟨querySteps, by simp only [buildSteps, hroute], rfl, ?_, ?_⟩
    · simp only [querySteps, List.mem_singleton, forall_eq]
      exact ⟨by simp, by simp, by simp, hallowed, rfl, rfl⟩
    · simp [NamedTool, hroute, querySteps]
  | search =>
    obtain ⟨tool, htool⟩ : ∃ tool, searchTool request = some tool := by
      unfold searchTool
      split_ifs
      · exact ⟨_, rfl⟩
      · exact ⟨_, List.head?_eq_some_head htools⟩
    refine ⟨_, buildSteps_search hroute htool, rfl, ?_, ?_⟩
    · simp only [searchSteps, List.mem_singleton, forall_eq]
      exact ⟨by simp, by simp, by simp, mem_of_searchTool htool, rfl, rfl⟩
    · simp [NamedTool, hroute, searchSteps, htool]

end Steps

/-! ## The numbers of the metadata -/

section Numbers

variable (f : TextBuiltins)

/-- The value converts to a number from this bound on. -/
def Converts (value : Json) (bound : ℤ) : Prop := ∃ n, pyInt f value = .ok n ∧ bound ≤ n

/-- The timeout of the metadata, if it gives one, is a number from 1 on. -/
def TimeoutOk (metadata : List (String × Json)) : Prop :=
  ∀ value, getEntry "step_timeout_seconds" metadata = some value →
    value = .null ∨ Converts f value 1

/-- The steps under a timeout, if there is one. -/
def withTimeout (timeoutSeconds : Option ℤ) (steps : List PlanStep) : List PlanStep :=
  steps.map fun step => { step with timeoutSeconds := timeoutSeconds.getD step.timeoutSeconds }

theorem graphOf_withTimeout (t : Option ℤ) (steps : List PlanStep) :
    graphOf (withTimeout t steps) = graphOf steps := by
  simp [graphOf, withTimeout, Function.comp_def]

theorem withTimeout_none (steps : List PlanStep) : withTimeout none steps = steps := by
  simp [withTimeout]

/-- The timeout that the metadata gives. -/
def metadataTimeout (metadata : List (String × Json)) : Except PyError (Option ℤ) :=
  match (getEntry "step_timeout_seconds" metadata).getD .null with
  | .null => .ok none
  | value => (pyInt f value).map some

theorem withStepTimeout_eq (metadata : List (String × Json)) (steps : List PlanStep) :
    withStepTimeout f metadata steps = (metadataTimeout f metadata).map (withTimeout · steps) := by
  unfold withStepTimeout metadataTimeout
  generalize (getEntry "step_timeout_seconds" metadata).getD .null = value
  have hint : ∀ value, (do
      let timeoutSeconds ← pyInt f value
      pure (steps.map fun step => { step with timeoutSeconds }) : Except PyError (List PlanStep))
        = ((pyInt f value).map some).map (withTimeout · steps) := by
    intro value
    rcases pyInt f value <;> rfl
  cases value with
  | null => exact congrArg Except.ok (withTimeout_none steps).symm
  | _ => exact hint _

theorem timeoutOk_iff {metadata : List (String × Json)} : TimeoutOk f metadata
    ↔ ∃ t, metadataTimeout f metadata = .ok t ∧ ∀ n ∈ t, 1 ≤ n := by
  unfold TimeoutOk metadataTimeout
  rcases getEntry "step_timeout_seconds" metadata with _ | value
  · simp
  · have hint : Converts f value 1 ↔ ∃ t, (pyInt f value).map some = .ok t ∧ ∀ n ∈ t, 1 ≤ n := by
      unfold Converts
      rcases pyInt f value with error | n <;> simp [Except.map]
    simp only [Option.some.injEq, forall_eq', Option.getD_some]
    cases value with
    | null => simp
    | _ => simpa using hint

end Numbers

/-! ## The plan -/

theorem bind_eq_ok_iff {α β : Type} {x : Except PyError α} {g : α → Except PyError β} {b : β} :
    (x >>= g) = .ok b ↔ ∃ a, x = .ok a ∧ g a = .ok b := by
  rcases x with error | a <;> simp [bind, Except.bind]

theorem raiseIf_bind_eq_ok_iff {β : Type} {p : Prop} [Decidable p] {e : PyError}
    {g : Unit → Except PyError β} {b : β} :
    (raiseIf p e >>= g) = .ok b ↔ ¬ p ∧ g () = .ok b := by
  rw [bind_eq_ok, raiseIf_eq_ok]

theorem metadataFields_eq_ok_iff {request : AgentRequest} {metadata : List (String × Json)} :
    request.metadataFields = .ok metadata ↔ request.metadata = .obj metadata := by
  unfold AgentRequest.metadataFields
  cases request.metadata <;> simp

/-- The numbers a plan takes from the metadata. -/
structure PlanNumbers where
  timeoutSeconds : Option ℤ
  maxDepth : ℤ
  maxParallel : ℤ
  planVersion : ℤ

/-- The metadata gives these numbers. -/
structure PlanNumbers.Of (f : TextBuiltins) (numbers : PlanNumbers)
    (metadata : List (String × Json)) : Prop where
  timeoutSeconds : metadataTimeout f metadata = .ok numbers.timeoutSeconds
  maxDepth : metadataInt f metadata "max_depth" 6 = .ok numbers.maxDepth
  maxParallel : metadataInt f metadata "max_parallel" 4 = .ok numbers.maxParallel
  planVersion : metadataInt f metadata "plan_version" 1 = .ok numbers.planVersion

/-- The plan of these steps. -/
def requestPlan (f : TextBuiltins) (request : AgentRequest) (metadata : List (String × Json))
    (numbers : PlanNumbers) (steps : List PlanStep) : ExecutionPlan :=
  { requestId := request.requestId
    sessionId := request.sessionId
    traceId := traceId f request metadata numbers.planVersion
    planVersion := numbers.planVersion
    steps := withTimeout numbers.timeoutSeconds steps
    riskFlags := inferRisks f request metadata (withTimeout numbers.timeoutSeconds steps)
    graphLimits := { maxDepth := numbers.maxDepth, maxParallel := numbers.maxParallel } }

section CreatePlan

variable {f : TextBuiltins} {request : AgentRequest} {plan : ExecutionPlan}

/-- There is a plan if all that it is made from is there and it is accepted. -/
theorem createPlan_eq_ok_iff : createPlan f request = .ok plan ↔
    request.allowedTools ≠ [] ∧ ∃ metadata numbers steps, request.metadata = .obj metadata
      ∧ buildSteps f request = .ok steps ∧ PlanNumbers.Of f numbers metadata
      ∧ steps ≠ [] ∧ 1 ≤ numbers.planVersion
      ∧ Accepted (requestPlan f request metadata numbers steps) request.allowedTools
      ∧ requestPlan f request metadata numbers steps = plan := by
  unfold createPlan
  rw [raiseIf_bind_eq_ok_iff, List.isEmpty_iff]
  refine and_congr_right fun _ => ⟨fun h => ?_, ?_⟩
  · obtain ⟨steps, hsteps, h⟩ := bind_eq_ok_iff.mp h
    obtain ⟨hne, h⟩ := raiseIf_bind_eq_ok_iff.mp h
    obtain ⟨metadata, hmetadata, h⟩ := bind_eq_ok_iff.mp h
    obtain ⟨timed, htimed, h⟩ := bind_eq_ok_iff.mp h
    obtain ⟨maxDepth, hdepth, h⟩ := bind_eq_ok_iff.mp h
    obtain ⟨maxParallel, hparallel, h⟩ := bind_eq_ok_iff.mp h
    obtain ⟨planVersion, hversion, h⟩ := bind_eq_ok_iff.mp h
    obtain ⟨hpositive, h⟩ := raiseIf_bind_eq_ok_iff.mp h
    obtain ⟨haccepted, h⟩ := bind_eq_ok.mp h
    rw [withStepTimeout_eq] at htimed
    rcases htimeout : metadataTimeout f metadata with error | t <;> rw [htimeout] at htimed <;>
      cases htimed
    exact ⟨metadata, ⟨t, maxDepth, maxParallel, planVersion⟩, steps,
      metadataFields_eq_ok_iff.mp hmetadata, hsteps, ⟨htimeout, hdepth, hparallel, hversion⟩,
      by simpa using hne, not_lt.mp hpositive, validatePlan_ok_iff.mp haccepted,
      Except.ok.inj h⟩
  · rintro ⟨metadata, numbers, steps, hmetadata, hsteps, hnumbers, hne, hversion, haccepted, rfl⟩
    have htimed : withStepTimeout f metadata steps
        = .ok (withTimeout numbers.timeoutSeconds steps) := by
      rw [withStepTimeout_eq, hnumbers.timeoutSeconds]
      rfl
    refine bind_eq_ok_iff.mpr ⟨steps, hsteps, raiseIf_bind_eq_ok_iff.mpr ⟨by simpa using hne, ?_⟩⟩
    refine bind_eq_ok_iff.mpr ⟨metadata, metadataFields_eq_ok_iff.mpr hmetadata, ?_⟩
    refine bind_eq_ok_iff.mpr ⟨_, htimed, bind_eq_ok_iff.mpr ⟨_, hnumbers.maxDepth, ?_⟩⟩
    refine bind_eq_ok_iff.mpr ⟨_, hnumbers.maxParallel, ?_⟩
    refine bind_eq_ok_iff.mpr ⟨_, hnumbers.planVersion, ?_⟩
    refine raiseIf_bind_eq_ok_iff.mpr ⟨not_lt.mpr hversion, ?_⟩
    exact bind_eq_ok.mpr ⟨validatePlan_ok_iff.mpr haccepted, rfl⟩

/-- The plan of steps the strategy has made is accepted if the limits leave room for the route, no
step is without a tool, and the timeout is from 1 on. -/
theorem accepted_requestPlan_iff {metadata : List (String × Json)} {numbers : PlanNumbers}
    {steps : List PlanStep} (hgraph : graphOf steps = (route f request).graph)
    (hbuilt : ∀ step ∈ steps, Built request step) :
    Accepted (requestPlan f request metadata numbers steps) request.allowedTools ↔
      ((route f request).levels : ℤ) ≤ numbers.maxDepth
        ∧ ((route f request).levels : ℤ) ≤ numbers.maxParallel
        ∧ (∀ step ∈ steps, step.toolId ≠ "") ∧ ∀ n ∈ numbers.timeoutSeconds, 1 ≤ n := by
  have hne : steps ≠ [] := by
    rintro rfl
    cases hroute : route f request <;> rw [hroute] at hgraph <;> cases hgraph
  have hfields : (∀ step ∈ withTimeout numbers.timeoutSeconds steps,
      FieldsOk request.allowedTools step) ↔ (∀ step ∈ steps, step.toolId ≠ "")
        ∧ ∀ n ∈ numbers.timeoutSeconds, 1 ≤ n := by
    unfold withTimeout
    rw [List.forall_mem_map]
    constructor
    · refine fun h => ⟨fun step hstep => (h step hstep).toolId, fun n hn => ?_⟩
      obtain ⟨step, hstep⟩ := List.exists_mem_of_ne_nil _ hne
      have := (h step hstep).timeoutSeconds
      rwa [Option.mem_def.mp hn] at this
    · rintro ⟨htool, ht⟩ step hstep
      have hb := hbuilt step hstep
      refine ⟨hb.stepId, hb.goal, hb.doneCriteria, htool step hstep, hb.allowed, hb.payload, ?_⟩
      rcases hn : numbers.timeoutSeconds with _ | n
      · simp [hb.timeoutSeconds]
      · exact ht n hn
  rw [accepted_of_route_iff (r := route f request) ((graphOf_withTimeout _ _).trans hgraph)]
  exact and_congr_right fun _ => and_congr_right fun _ => hfields

/-- What a request with this metadata needs to have a plan. -/
structure Plannable (f : TextBuiltins) (request : AgentRequest)
    (metadata : List (String × Json)) : Prop where
  allowedTools : request.allowedTools ≠ []
  namedTool : NamedTool f request
  timeout : TimeoutOk f metadata
  maxDepth : Converts f ((getEntry "max_depth" metadata).getD (.int 6)) (route f request).levels
  maxParallel :
    Converts f ((getEntry "max_parallel" metadata).getD (.int 4)) (route f request).levels
  planVersion : Converts f ((getEntry "plan_version" metadata).getD (.int 1)) 1

theorem createPlan_isOk_iff : (∃ plan, createPlan f request = .ok plan) ↔
    ∃ metadata, request.metadata = .obj metadata ∧ Plannable f request metadata := by
  constructor
  · rintro ⟨plan, h⟩
    obtain ⟨htools, metadata, numbers, steps, hmetadata, hsteps, hnumbers, -, hversion, haccepted,
      -⟩ := createPlan_eq_ok_iff.mp h
    obtain ⟨steps', hsteps', hgraph, hbuilt, hnamed⟩ := buildSteps_spec (f := f) htools hmetadata
    cases hsteps.symm.trans hsteps'
    obtain ⟨hdepth, hparallel, htool, ht⟩ := (accepted_requestPlan_iff hgraph hbuilt).mp haccepted
    exact ⟨metadata, hmetadata, htools, hnamed.mp htool,
      (timeoutOk_iff f).mpr ⟨_, hnumbers.timeoutSeconds, ht⟩, ⟨_, hnumbers.maxDepth, hdepth⟩,
      ⟨_, hnumbers.maxParallel, hparallel⟩, _, hnumbers.planVersion, hversion⟩
  · rintro ⟨metadata, hmetadata, h⟩
    obtain ⟨steps, hsteps, hgraph, hbuilt, hnamed⟩ := buildSteps_spec (f := f) h.allowedTools
      hmetadata
    obtain ⟨t, ht, hpositive⟩ := (timeoutOk_iff f).mp h.timeout
    obtain ⟨maxDepth, hd, hdepth⟩ := h.maxDepth
    obtain ⟨maxParallel, hp, hparallel⟩ := h.maxParallel
    obtain ⟨planVersion, hv, hversion⟩ := h.planVersion
    refine ⟨_, createPlan_eq_ok_iff.mpr ⟨h.allowedTools, metadata,
      ⟨t, maxDepth, maxParallel, planVersion⟩, steps, hmetadata, hsteps, ⟨ht, hd, hp, hv⟩, ?_,
      hversion, (accepted_requestPlan_iff hgraph hbuilt).mpr
        ⟨hdepth, hparallel, hnamed.mpr h.namedTool, hpositive⟩, rfl⟩⟩
    rintro rfl
    cases hroute : route f request <;> rw [hroute] at hgraph <;> cases hgraph

/-- What the planner hands out. -/
theorem createPlan_spec (h : createPlan f request = .ok plan) :
    Accepted plan request.allowedTools ∧ graphOf plan.steps = (route f request).graph
      ∧ plan.requestId = request.requestId ∧ plan.sessionId = request.sessionId := by
  obtain ⟨htools, metadata, numbers, steps, hmetadata, hsteps, -, -, -, haccepted, rfl⟩ :=
    createPlan_eq_ok_iff.mp h
  obtain ⟨steps', hsteps', hgraph, -, -⟩ := buildSteps_spec (f := f) htools hmetadata
  cases hsteps.symm.trans hsteps'
  exact ⟨haccepted, (graphOf_withTimeout _ _).trans hgraph, rfl, rfl⟩

/-- A request has a plan exactly if its metadata is an object whose numbers convert, are from 1 on
and leave room for the steps of its route, and the tool it falls back on has a name. The plan is
accepted, and has the steps of the route. -/
theorem createPlan_iff_plannable (f : TextBuiltins) (request : AgentRequest) :
    ((∃ plan, createPlan f request = .ok plan) ↔
      ∃ metadata, request.metadata = .obj metadata ∧ Plannable f request metadata)
    ∧ ∀ plan, createPlan f request = .ok plan →
      Accepted plan request.allowedTools ∧ graphOf plan.steps = (route f request).graph :=
  ⟨createPlan_isOk_iff, fun _ h => ⟨(createPlan_spec h).1, (createPlan_spec h).2.1⟩⟩

end CreatePlan

end AgentLearning
