import AgentLearning.Planner
import Mathlib.Data.Set.Function

/-!
# What a validated plan is

`Accepted` is `validate_plan`'s verdict taken apart (`validatePlan_ok_iff`). The ids of an accepted
plan are distinct and closed under dependencies, and the traversal that looked for a cycle leaves
an order in which every dependency comes first, so some step that is not completed has all its
dependencies completed (`Accepted.exists_ready`).
-/

namespace AgentLearning

namespace Planner

/-- The fields of a step that pass the checks. -/
structure FieldsOk (allowedTools : List String) (step : PlanStep) : Prop where
  stepId : step.stepId ≠ ""
  goal : step.goal ≠ ""
  doneCriteria : step.doneCriteria ≠ ""
  toolId : step.toolId ≠ ""
  allowed : step.toolId ∈ allowedTools
  payload : step.payload.isObject
  timeoutSeconds : 1 ≤ step.timeoutSeconds

structure Accepted (plan : ExecutionPlan) (allowedTools : List String) : Prop where
  maxDepth : 1 ≤ plan.graphLimits.maxDepth
  maxParallel : 1 ≤ plan.graphLimits.maxParallel
  fields : ∀ step ∈ plan.steps, FieldsOk allowedTools step
  nodup : plan.stepIds.Nodup
  known : ∀ step ∈ plan.steps, ∀ d ∈ step.dependsOn, d ∈ plan.stepIds
  acyclic : validateAcyclic plan = .ok ()
  depth : validateDepth plan = .ok ()
  parallelism : validateParallelism plan = .ok ()

theorem bind_eq_ok {ε α : Type} {x : Except ε Unit} {f : Unit → Except ε α} {a : α} :
    (x >>= f) = .ok a ↔ x = .ok () ∧ f () = .ok a := by
  rcases x with e | ⟨⟩
  · simp [bind, Except.bind]
  · simp [bind, Except.bind]

theorem bind_eq_error {ε α : Type} {x : Except ε Unit} {f : Unit → Except ε α} {e : ε} :
    (x >>= f) = .error e ↔ x = .error e ∨ x = .ok () ∧ f () = .error e := by
  rcases x with e' | ⟨⟩
  · simp [bind, Except.bind]
  · simp [bind, Except.bind]

theorem raiseIf_eq_ok {p : Prop} [Decidable p] {e : PyError} : raiseIf p e = .ok () ↔ ¬ p := by
  unfold raiseIf
  split_ifs with h <;> simp [h]

theorem raiseIf_ne_recursionError {p : Prop} [Decidable p] {message : String} :
    raiseIf p (.valueError message) ≠ .error .recursionError := by
  unfold raiseIf
  split_ifs <;> simp

theorem forM_eq_ok {ε α : Type} {f : α → Except ε Unit} :
    ∀ {l : List α}, l.forM f = .ok () ↔ ∀ a ∈ l, f a = .ok ()
  | [] => by simp [pure, Except.pure]
  | a :: l => by
    rw [List.forM, bind_eq_ok, forM_eq_ok]
    simp

theorem validateStepField_ok_iff {tools ids : List String} {step : PlanStep} :
    validateStepField tools ids step = .ok () ↔ FieldsOk tools step ∧ step.stepId ∉ ids := by
  simp only [validateStepField, bind_eq_ok, raiseIf_eq_ok]
  constructor
  · rintro ⟨h1, h2, h3, h4, h5, h6, h7, h8⟩
    exact ⟨⟨h1, h3, h4, h5, not_not.mp h6, by simpa using h7, by omega⟩, h2⟩
  · rintro ⟨⟨h1, h3, h4, h5, h6, h7, h8⟩, h2⟩
    exact ⟨h1, h2, h3, h4, h5, not_not.mpr h6, by simpa using h7, by omega⟩

theorem validateStepFields_ok_iff {tools : List String} :
    ∀ {ids : List String} {steps : List PlanStep}, validateStepFields tools ids steps = .ok () ↔
      (∀ step ∈ steps, FieldsOk tools step) ∧ (steps.map PlanStep.stepId).Nodup
        ∧ ∀ step ∈ steps, step.stepId ∉ ids
  | ids, [] => by simp [validateStepFields]
  | ids, step :: steps => by
    rw [validateStepFields, bind_eq_ok, validateStepField_ok_iff, validateStepFields_ok_iff]
    simp only [List.mem_cons, List.map_cons, List.nodup_cons, List.mem_map, not_exists, not_and,
      not_or, forall_eq_or_imp]
    constructor
    · rintro ⟨⟨hf, hid⟩, hfs, hnd, hids⟩
      exact ⟨⟨hf, hfs⟩, ⟨fun s hs => (hids s hs).1, hnd⟩, hid, fun s hs => (hids s hs).2⟩
    · rintro ⟨⟨hf, hfs⟩, ⟨hnot, hnd⟩, hid, hids⟩
      exact ⟨⟨hf, hid⟩, hfs, hnd, fun s hs => ⟨hnot s hs, hids s hs⟩⟩

theorem validateDependencies_ok_iff {plan : ExecutionPlan} : validateDependencies plan = .ok () ↔
    ∀ step ∈ plan.steps, ∀ d ∈ step.dependsOn, d ∈ plan.stepIds := by
  simp only [validateDependencies, validateStepDependencies, forM_eq_ok, raiseIf_eq_ok, not_not]

theorem validatePlan_ok_iff {plan : ExecutionPlan} {tools : List String} :
    validatePlan plan tools = .ok () ↔ Accepted plan tools := by
  simp only [validatePlan, bind_eq_ok, raiseIf_eq_ok, validateStepFields_ok_iff,
    validateDependencies_ok_iff]
  constructor
  · rintro ⟨h1, h2, ⟨h3, h4, -⟩, h5, h6, h7, h8⟩
    exact ⟨by omega, by omega, h3, h4, h5, h6, h7, h8⟩
  · rintro ⟨h1, h2, h3, h4, h5, h6, h7, h8⟩
    exact ⟨by omega, by omega, ⟨h3, h4, by simp⟩, h5, h6, h7, h8⟩

end Planner

namespace ExecutionPlan

variable {plan : ExecutionPlan}

theorem mem_stepIds {step : PlanStep} (h : step ∈ plan.steps) : step.stepId ∈ plan.stepIds :=
  List.mem_map_of_mem h

theorem dependencies_eq (hnd : plan.stepIds.Nodup) {step : PlanStep} (h : step ∈ plan.steps) :
    plan.dependencies step.stepId = step.dependsOn := by
  unfold dependencies dependencyMap
  rw [Dict.get?_foldl_set_of_mem PlanStep.stepId PlanStep.dependsOn _ _ hnd h]
  rfl

theorem dependencies_of_notMem {stepId : String} (h : stepId ∉ plan.stepIds) :
    plan.dependencies stepId = [] := by
  unfold dependencies dependencyMap
  rw [Dict.get?_foldl_set_of_notMem PlanStep.stepId PlanStep.dependsOn _ _ h]
  rfl

end ExecutionPlan

namespace Planner

open Dag

variable {plan : ExecutionPlan} {tools : List String}

theorem known_dependencies (hnd : plan.stepIds.Nodup)
    (h : ∀ step ∈ plan.steps, ∀ d ∈ step.dependsOn, d ∈ plan.stepIds) {x d : String}
    (hd : d ∈ plan.dependencies x) : d ∈ plan.stepIds := by
  by_cases hx : x ∈ plan.stepIds
  · obtain ⟨step, hs, rfl⟩ := List.mem_map.mp hx
    rw [ExecutionPlan.dependencies_eq hnd hs] at hd
    exact h step hs d hd
  · rw [ExecutionPlan.dependencies_of_notMem hx] at hd
    simp at hd

/-- The cycle check leaves an order of the ids in which dependencies come later. -/
theorem depsLater_of_validateAcyclic (h : validateAcyclic plan = .ok ()) :
    ∃ order, DepsLater plan.dependencies order ∧ ∀ x ∈ plan.stepIds, x ∈ order := by
  unfold validateAcyclic at h
  rcases hf : plan.stepIds.foldlM (dfs plan.dependencies plan.traversalFuel) {} with e | st <;>
    rw [hf] at h
  · cases h
  · have d := foldlM_done plan.dependencies (dfs_done _ _) plan.stepIds {} trivial hf
    exact ⟨st.visited, d.sorted, d.mem⟩

/-- Whatever is completed, a step that is not and has all its dependencies completed exists as
long as some step is not completed. -/
theorem Accepted.exists_ready (h : Accepted plan tools) (completed : String → Prop)
    (hnot : ∃ step ∈ plan.steps, ¬ completed step.stepId) :
    ∃ step ∈ plan.steps, ¬ completed step.stepId ∧ ∀ d ∈ step.dependsOn, completed d := by
  obtain ⟨order, hl, hmem⟩ := depsLater_of_validateAcyclic h.acyclic
  -- outside the plan's ids everything counts as completed
  obtain ⟨step, hs, hc⟩ := hnot
  obtain ⟨x, -, hx, hd⟩ := hl.exists_ready (C := fun x => x ∈ plan.stepIds → completed x)
    ⟨step.stepId, hmem _ (ExecutionPlan.mem_stepIds hs),
      fun h' => hc (h' (ExecutionPlan.mem_stepIds hs))⟩
  push Not at hx
  obtain ⟨step', hs', rfl⟩ := List.mem_map.mp hx.1
  rw [ExecutionPlan.dependencies_eq h.nodup hs'] at hd
  exact ⟨step', hs', hx.2, fun d hd' => hd d hd' (h.known step' hs' d hd')⟩

/-- No step of an accepted plan depends on itself. -/
theorem Accepted.notMem_dependsOn (h : Accepted plan tools) {step : PlanStep}
    (hs : step ∈ plan.steps) : step.stepId ∉ step.dependsOn := by
  intro hmem
  obtain ⟨step', hs', hne, hd⟩ := h.exists_ready (fun x => x ≠ step.stepId)
    ⟨step, hs, by simp⟩
  have heq : step'.stepId = step.stepId := not_not.mp hne
  have : step' = step := List.inj_on_of_nodup_map h.nodup hs' hs heq
  subst this
  exact hd _ hmem rfl

/-! ## The traversals' fuel -/

theorem validateStepFields_ne_recursionError :
    ∀ {ids : List String} {steps : List PlanStep},
      validateStepFields tools ids steps ≠ .error .recursionError
  | ids, [] => by simp [validateStepFields]
  | ids, step :: steps => by
    have ih := @validateStepFields_ne_recursionError (step.stepId :: ids) steps
    simp [validateStepFields, validateStepField, bind_eq_error, raiseIf_ne_recursionError, ih]

theorem forM_ne_recursionError {α : Type} {f : α → Except PyError Unit}
    (h : ∀ a, f a ≠ .error .recursionError) : ∀ {l : List α}, l.forM f ≠ .error .recursionError
  | [] => by simp [pure, Except.pure]
  | a :: l => by
    have ih := @forM_ne_recursionError α f h l
    rw [List.forM, Ne, bind_eq_error]
    rintro (ha | ⟨-, hl⟩)
    · exact h a ha
    · exact ih hl

theorem validateAcyclic_ne_recursionError : validateAcyclic plan ≠ .error .recursionError := by
  intro h
  unfold validateAcyclic at h
  rcases hf : plan.stepIds.foldlM (dfs plan.dependencies plan.traversalFuel) {} with e | st <;>
    rw [hf] at h
  · cases e with
    | cycle a => simp [stopError] at h
    | fuel =>
      refine foldlM_ne_fuel plan.dependencies (v := []) ?_ plan.stepIds {} trivial rfl hf
      intro st a hs hv
      refine dfs_ne_fuel plan.dependencies plan.stepIds
        (fun a => ExecutionPlan.dependencies_of_notMem) _ hs (by simp [hv]) (by simp [hv]) ?_
      simp [hv, ExecutionPlan.traversalFuel, ExecutionPlan.stepIds]
  · cases h

/-- Once the references and the cycle check have passed, the depths are there. -/
theorem buildDepthMap_isOk (hknown : ∀ x, ∀ d ∈ plan.dependencies x, d ∈ plan.stepIds)
    (h : validateAcyclic plan = .ok ()) : ∃ depths, buildDepthMap plan = .ok depths := by
  obtain ⟨order, hl, hmem⟩ := depsLater_of_validateAcyclic h
  have hl' := (hl.filter (p := (· ∈ plan.stepIds)) (by simpa using fun a _ => hknown a)).dedup
  have hsub : (order.filter (· ∈ plan.stepIds)).dedup ⊆ plan.stepIds := by
    intro x hx
    simpa using (List.mem_filter.mp (List.mem_dedup.mp hx)).2
  have hlen := (List.subperm_of_subset (List.nodup_dedup _) hsub).length_le
  have : (depthMap plan.dependencies plan.traversalFuel ∅ plan.stepIds).isSome := by
    refine depthMap_isSome plan.dependencies hl' ?_ (fun x hx => by simp [hmem x hx, hx]) ∅
    simp only [ExecutionPlan.traversalFuel, ExecutionPlan.stepIds, List.length_map] at hlen ⊢
    omega
  obtain ⟨depths, hd⟩ := Option.isSome_iff_exists.mp this
  exact ⟨depths, by simp [buildDepthMap, hd]⟩

theorem validateDepth_ne_recursionError {depths : Dict String ℕ}
    (hd : buildDepthMap plan = .ok depths) : validateDepth plan ≠ .error .recursionError := by
  simp only [validateDepth, hd, bind, Except.bind]
  split
  · simp
  · exact raiseIf_ne_recursionError

theorem validateParallelism_ne_recursionError {depths : Dict String ℕ}
    (hd : buildDepthMap plan = .ok depths) :
    validateParallelism plan ≠ .error .recursionError := by
  simp only [validateParallelism, hd, bind, Except.bind]
  exact raiseIf_ne_recursionError

/-- The fuel is enough on every plan, accepted or not: the validation never stops for lack of
it. -/
theorem validatePlan_ne_recursionError : validatePlan plan tools ≠ .error .recursionError := by
  intro h
  simp only [validatePlan, bind_eq_error, raiseIf_ne_recursionError, raiseIf_eq_ok,
    validateStepFields_ne_recursionError, validateStepFields_ok_iff, validateDependencies_ok_iff,
    validateAcyclic_ne_recursionError, false_or] at h
  obtain ⟨-, -, ⟨-, hnd, -⟩, hdeps | ⟨hknown, hacyclic, h⟩⟩ := h
  · exact forM_ne_recursionError (fun _ => forM_ne_recursionError
      fun _ => raiseIf_ne_recursionError) hdeps
  · obtain ⟨depths, hd⟩ := buildDepthMap_isOk (fun x d => known_dependencies hnd hknown) hacyclic
    rcases h with h | ⟨-, h⟩
    · exact validateDepth_ne_recursionError hd h
    · exact validateParallelism_ne_recursionError hd h

end Planner

/-! ## Small plans -/

/-- A step of tool `t`. -/
def sampleStep (stepId : String) (dependsOn : List String) : PlanStep :=
  { stepId, goal := "g", toolId := "t", payload := .obj [], dependsOn }

/-- The first version of a plan with these steps. -/
def samplePlan (steps : List PlanStep) : ExecutionPlan :=
  { requestId := "r1", sessionId := "s", traceId := "x", planVersion := 1, steps }

end AgentLearning
