import AgentLearning.Replanner
import AgentLearning.Proofs.Rename

/-!
# What a replan does to the plan

Both strategies rename steps in place: every step of the new plan stands where the old one stood
and has its id or the id of the next version (`Replans`). On a plan with distinct ids the ids are
renamed by one function, `replanned`: `local_replace` renames the failed id, `rollback_retry` those
from the failed step on.
-/

namespace AgentLearning

namespace Replanner

/-- The ids of the list get their id of the version, the others stay. -/
def replanned (ids : List String) (planVersion : ℤ) (stepId : String) : String :=
  if stepId ∈ ids then replanStepId stepId planVersion else stepId

theorem replanned_of_mem {ids : List String} {v : ℤ} {x : String} (h : x ∈ ids) :
    replanned ids v x = replanStepId x v := if_pos h

theorem replanned_of_notMem {ids : List String} {v : ℤ} {x : String} (h : x ∉ ids) :
    replanned ids v x = x := if_neg h

theorem replanned_singleton (x y : String) (v : ℤ) :
    replanned [x] v y = if y = x then replanStepId x v else y := by
  unfold replanned
  simp only [List.mem_singleton]
  split_ifs with h
  · rw [h]
  · rfl

theorem get?_stepIdMap (suffix : List PlanStep) (v : ℤ) (x : String) :
    ((stepIdMap suffix v).get? x).getD x = replanned (suffix.map PlanStep.stepId) v x := by
  unfold stepIdMap replanned
  rw [Dict.get?_foldl_set_fun PlanStep.stepId (replanStepId · v)]
  split_ifs <;> rfl

theorem remapSuffixStep_eq (suffix : List PlanStep) (v : ℤ) (step : PlanStep) :
    remapSuffixStep (stepIdMap suffix v) step
      = step.rename (replanned (suffix.map PlanStep.stepId) v)
          (step.goal ++ " (rollback-replan)") := by
  simp only [remapSuffixStep, get?_stepIdMap, PlanStep.rename]

theorem stepIds_localReplace (plan : ExecutionPlan) (failed : PlanStep)
    (decision : ReplanDecision) :
    (localReplace plan failed decision).plan.stepIds
      = plan.stepIds.map (replanned [failed.stepId] (plan.planVersion + 1)) := by
  simp only [localReplace, ExecutionPlan.stepIds, List.map_map]
  refine List.map_congr_left fun step _ => ?_
  by_cases h : step.stepId = failed.stepId <;> simp [replanned_singleton, h]

/-- The plan after a `rollback_retry` from the end of `pre` on. -/
def rollback (plan : ExecutionPlan) (pre suffix : List PlanStep) : ExecutionPlan :=
  { plan with
    planVersion := plan.planVersion + 1
    steps := pre ++ suffix.map fun step =>
      step.rename (replanned (suffix.map PlanStep.stepId) (plan.planVersion + 1))
        (step.goal ++ " (rollback-replan)") }

theorem rollbackRetry_eq {plan : ExecutionPlan} {pre post : List PlanStep} {failed step : PlanStep}
    (hsteps : plan.steps = pre ++ step :: post) (hid : step.stepId = failed.stepId)
    (hpre : ∀ t ∈ pre, t.stepId ≠ failed.stepId) (decision : ReplanDecision) :
    rollbackRetry plan failed decision = .ok
      { plan := rollback plan pre (step :: post)
        decision
        stepIdMappings := (step :: post).map fun t =>
          ⟨t.stepId, replanStepId t.stepId (plan.planVersion + 1), plan.planVersion + 1⟩ } := by
  have hidx : findStepIndex plan failed.stepId = .ok pre.length := by
    have : plan.steps.findIdx? (·.stepId = failed.stepId) = some pre.length := by
      rw [hsteps, List.findIdx?_append]
      have hnone : pre.findIdx? (fun t => decide (t.stepId = failed.stepId)) = none := by
        rw [List.findIdx?_eq_none_iff]
        intro t ht
        simpa using hpre t ht
      simp [hnone, List.findIdx?_cons, hid]
    simp only [findStepIndex, this]
  have hmap : ∀ t ∈ step :: post,
      ((stepIdMap (step :: post) (plan.planVersion + 1)).get? t.stepId).getD t.stepId
        = replanStepId t.stepId (plan.planVersion + 1) := by
    intro t ht
    rw [get?_stepIdMap, replanned_of_mem (List.mem_map_of_mem ht)]
  unfold rollbackRetry
  rw [hidx]
  simp only [bind, Except.bind, pure, Except.pure, hsteps, List.take_left, List.drop_left]
  refine congrArg Except.ok ?_
  congr 1
  · rw [rollback, funext (remapSuffixStep_eq (step :: post) (plan.planVersion + 1))]
  · refine List.map_congr_left fun t ht => ?_
    rw [hmap t ht]

theorem exists_first {steps : List PlanStep} {stepId : String}
    (h : stepId ∈ steps.map PlanStep.stepId) : ∃ pre step post, steps = pre ++ step :: post
      ∧ step.stepId = stepId ∧ ∀ t ∈ pre, t.stepId ≠ stepId := by
  induction steps with
  | nil => simp at h
  | cons t steps ih =>
    by_cases ht : t.stepId = stepId
    · exact ⟨[], t, steps, rfl, ht, by simp⟩
    · rw [List.map_cons, List.mem_cons] at h
      obtain ⟨pre, step, post, rfl, hid, hpre⟩ := ih (h.resolve_left (Ne.symm ht))
      refine ⟨t :: pre, step, post, rfl, hid, ?_⟩
      simpa [ht] using hpre

/-! ## Any replan -/

/-- The new plan is the old one at the next version, with some steps renamed in place. -/
structure Replans (plan plan' : ExecutionPlan) : Prop where
  requestId : plan'.requestId = plan.requestId
  sessionId : plan'.sessionId = plan.sessionId
  traceId : plan'.traceId = plan.traceId
  graphLimits : plan'.graphLimits = plan.graphLimits
  planVersion : plan'.planVersion = plan.planVersion + 1
  steps : List.Forall₂ (fun step step' => step'.stepId = step.stepId
    ∨ step'.stepId = replanStepId step.stepId plan'.planVersion) plan.steps plan'.steps

theorem Replans.length_steps {plan plan' : ExecutionPlan} (h : Replans plan plan') :
    plan'.steps.length = plan.steps.length := h.steps.length_eq.symm

theorem replans_localReplace (plan : ExecutionPlan) (failed : PlanStep)
    (decision : ReplanDecision) : Replans plan (localReplace plan failed decision).plan where
  requestId := rfl
  sessionId := rfl
  traceId := rfl
  graphLimits := rfl
  planVersion := rfl
  steps := by
    refine List.forall₂_map_right_iff.mpr (List.forall₂_same.mpr fun step _ => ?_)
    by_cases h : step.stepId = failed.stepId
    · simp [localReplace, h]
    · simp [h]

theorem replans_rollback {plan : ExecutionPlan} {pre suffix : List PlanStep}
    (h : plan.steps = pre ++ suffix) : Replans plan (rollback plan pre suffix) where
  requestId := rfl
  sessionId := rfl
  traceId := rfl
  graphLimits := rfl
  planVersion := rfl
  steps := by
    rw [h]
    refine List.rel_append (List.forall₂_same.mpr fun _ _ => .inl rfl)
      (List.forall₂_map_right_iff.mpr (List.forall₂_same.mpr fun step hs => ?_))
    exact .inr (replanned_of_mem (List.mem_map_of_mem hs))

theorem rollbackRetry_replans {plan : ExecutionPlan} {failed : PlanStep}
    (h : failed.stepId ∈ plan.stepIds) (decision : ReplanDecision) :
    ∃ outcome, rollbackRetry plan failed decision = .ok outcome
      ∧ outcome.decision = decision ∧ Replans plan outcome.plan := by
  obtain ⟨pre, step, post, hsteps, hid, hpre⟩ := exists_first h
  exact ⟨_, rollbackRetry_eq hsteps hid hpre decision, rfl, replans_rollback hsteps⟩

end Replanner

end AgentLearning
