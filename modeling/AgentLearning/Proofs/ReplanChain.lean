import AgentLearning.Execute
import AgentLearning.Proofs.ReplanIds
import AgentLearning.Proofs.StoreOps

/-!
# Chains of replans

A session sees a plan and then one replan after the other, each of any step of the plan it has.
Through the chain no id, of a plan or of the session, was made for a version after the current one
(`Chain.inv`), so the ids of the next version are new to both.
-/

namespace AgentLearning

namespace Replanner

open InMemoryStateStore

/-- A replan of a step of the plan by one of the two strategies. -/
inductive ReplanOf (plan : ExecutionPlan) : ReplanOutcome → Prop
  | localReplace {step : PlanStep} (hs : step ∈ plan.steps) (decision : ReplanDecision) :
    ReplanOf plan (localReplace plan step decision)
  | rollbackRetry {step : PlanStep} {outcome : ReplanOutcome} (hs : step ∈ plan.steps)
    (decision : ReplanDecision) (h : rollbackRetry plan step decision = .ok outcome) :
    ReplanOf plan outcome

/-- The versions of a plan a session has seen, the current one first, and its store. Between two
replans the steps run: entries change, but none comes or goes. -/
inductive Chain : List ExecutionPlan → InMemoryStateStore → Prop
  | init {plan : ExecutionPlan} {σ σ' : InMemoryStateStore} (hnew : ¬ σ.HasSession plan.sessionId)
    (hnd : plan.stepIds.Nodup) (hplain : ∀ x ∈ plan.stepIds, ¬ hasMarker x)
    (h : σ.initSession plan.sessionId plan.requestId (serializePlanSteps plan.steps)
      plan.planVersion plan.traceId = .ok σ') : Chain [plan] σ'
  | work {plan : ExecutionPlan} {versions : List ExecutionPlan} {σ σ' : InMemoryStateStore}
    (hc : Chain (plan :: versions) σ) (hs : σ'.HasSession plan.sessionId)
    (h : ∀ id, (σ'.step? plan.sessionId id).isSome = (σ.step? plan.sessionId id).isSome) :
    Chain (plan :: versions) σ'
  | replan {plan : ExecutionPlan} {versions : List ExecutionPlan} {σ σ' : InMemoryStateStore}
    {outcome : ReplanOutcome} (hc : Chain (plan :: versions) σ) (hr : ReplanOf plan outcome)
    (h : σ.upsertPlanSteps outcome.plan.sessionId (serializePlanSteps outcome.plan.steps)
      outcome.plan.planVersion = .ok σ') : Chain (outcome.plan :: plan :: versions) σ'

section ReplanOf

variable {plan : ExecutionPlan} {outcome : ReplanOutcome}

/-- A replan renames some of the plan's ids to those of the next version, and its mappings list
them. -/
theorem ReplanOf.spec (hnd : plan.stepIds.Nodup) (h : ReplanOf plan outcome) :
    Replans plan outcome.plan ∧ ∃ ids, (∀ x ∈ ids, x ∈ plan.stepIds)
      ∧ outcome.plan.stepIds = plan.stepIds.map (replanned ids (plan.planVersion + 1))
      ∧ outcome.stepIdMappings = ids.map fun x =>
        ⟨x, replanStepId x (plan.planVersion + 1), plan.planVersion + 1⟩ := by
  cases h with
  | @localReplace step hs decision =>
    refine ⟨replans_localReplace plan step decision, [step.stepId], ?_, ?_, rfl⟩
    · simpa using ExecutionPlan.mem_stepIds hs
    · exact stepIds_localReplace plan step decision
  | @rollbackRetry step _ hs decision h =>
    obtain ⟨pre, step', post, hsteps, hid, hpre⟩ := exists_first (ExecutionPlan.mem_stepIds hs)
    rw [rollbackRetry_eq hsteps hid hpre decision] at h
    cases h
    refine ⟨replans_rollback hsteps, (step' :: post).map PlanStep.stepId, fun x hx => ?_, ?_, ?_⟩
    · rw [stepIds_append hsteps]
      exact List.mem_append_right _ hx
    · rw [stepIds_append hsteps, List.map_append]
      simp only [rollback, ExecutionPlan.stepIds, List.map_append, List.map_map]
      congr 1
      refine List.map_congr_left fun t ht => ?_
      exact (replanned_of_notMem
        (notMem_suffix hnd hsteps (List.mem_map_of_mem ht))).symm
    · rw [List.map_map]
      rfl

end ReplanOf

theorem mem_serializePlanSteps {steps : List PlanStep} {d : StepDict} :
    d ∈ serializePlanSteps steps ↔ ∃ step ∈ steps, step.toStepDict = d := List.mem_map

/-- What holds of the versions and the session through the chain. -/
structure ChainInv (plan : ExecutionPlan) (versions : List ExecutionPlan)
    (σ : InMemoryStateStore) : Prop where
  hasSession : σ.HasSession plan.sessionId
  nodup : ∀ p ∈ plan :: versions, p.stepIds.Nodup
  increasing : (plan :: versions).IsChain fun newer older =>
    newer.planVersion = older.planVersion + 1
  ids : ∀ p ∈ plan :: versions, ∀ id ∈ p.stepIds, NotAfter plan.planVersion id
  entries : ∀ id, (σ.step? plan.sessionId id).isSome → NotAfter plan.planVersion id

theorem ChainInv.replan {plan : ExecutionPlan} {versions : List ExecutionPlan}
    {σ σ' : InMemoryStateStore} {outcome : ReplanOutcome} (hc : ChainInv plan versions σ)
    (hr : ReplanOf plan outcome)
    (h : Registers outcome.plan.sessionId (serializePlanSteps outcome.plan.steps) σ σ') :
    ChainInv outcome.plan (plan :: versions) σ' := by
  obtain ⟨hspec, -⟩ := hr.spec (hc.nodup plan (by simp))
  have hnew := FreshIds.replans ⟨hc.nodup plan (by simp), hc.ids plan (by simp)⟩ hspec
  have hle : plan.planVersion ≤ outcome.plan.planVersion := by
    rw [hspec.planVersion]
    omega
  refine ⟨h.hasSession, ?_, ?_, ?_, fun id hid => ?_⟩
  · exact List.forall_mem_cons.mpr ⟨hnew.nodup, hc.nodup⟩
  · exact List.isChain_cons_cons.mpr ⟨hspec.planVersion, hc.increasing⟩
  · exact List.forall_mem_cons.mpr ⟨hnew.notAfter, fun p hp id hid => (hc.ids p hp id hid).mono hle⟩
  · rcases hold : σ.step? outcome.plan.sessionId id with _ | step
    · obtain ⟨step, hstep⟩ := Option.isSome_iff_exists.mp hid
      obtain ⟨-, d, hd, rfl, -⟩ := h.fresh _ id step hold hstep
      obtain ⟨t, ht, rfl⟩ := mem_serializePlanSteps.mp hd
      exact hnew.notAfter _ (ExecutionPlan.mem_stepIds ht)
    · rw [hspec.sessionId] at hold
      exact (hc.entries id (by simp [hold])).mono hle

theorem Chain.inv {all : List ExecutionPlan} {σ : InMemoryStateStore} (h : Chain all σ) :
    ∃ plan versions, all = plan :: versions ∧ ChainInv plan versions σ := by
  induction h with
  | @init plan σ σ' hnew hnd hplain h =>
    obtain ⟨σ'', hσ'', hreg⟩ := initSession_registers σ plan.sessionId plan.requestId
      (serializePlanSteps plan.steps) plan.planVersion plan.traceId
    rw [h] at hσ''
    cases hσ''
    have hids : ∀ id ∈ plan.stepIds, NotAfter plan.planVersion id := fun id hid =>
      notAfter_of_not_hasMarker (hplain id hid) _
    refine ⟨plan, [], rfl, hreg.hasSession, by simpa using hnd, by simp, by simpa using hids,
      fun id hid => ?_⟩
    obtain ⟨step, hstep⟩ := Option.isSome_iff_exists.mp hid
    rcases hold : σ.step? plan.sessionId id with _ | old
    · obtain ⟨-, d, hd, rfl, -⟩ := hreg.fresh _ id step hold hstep
      obtain ⟨t, ht, rfl⟩ := mem_serializePlanSteps.mp hd
      exact hids _ (ExecutionPlan.mem_stepIds ht)
    · exact absurd (hasSession_of_step? hold) hnew
  | @work plan versions σ σ' hc hs h ih =>
    obtain ⟨plan, versions, he, hinv⟩ := ih
    cases he
    exact ⟨plan, versions, rfl, hs, hinv.nodup, hinv.increasing, hinv.ids, fun id hid =>
      hinv.entries id (h id ▸ hid)⟩
  | @replan plan versions σ σ' outcome hc hr h ih =>
    obtain ⟨plan, versions, he, hinv⟩ := ih
    cases he
    obtain ⟨hspec, -⟩ := hr.spec (hinv.nodup plan (by simp))
    obtain ⟨σ'', hσ'', hreg⟩ := upsertPlanSteps_registers (hspec.sessionId ▸ hinv.hasSession)
      (serializePlanSteps outcome.plan.steps) outcome.plan.planVersion
    rw [h] at hσ''
    cases hσ''
    exact ⟨outcome.plan, plan :: versions, rfl, hinv.replan hr hreg⟩

/-- After any chain of replans the next one raises the version by one, keeps the ids distinct, and
gives ids no earlier version has; the session has no entry for them, and registering the new
version adds a pending one for each. -/
theorem chain_replan_fresh {plan : ExecutionPlan} {versions : List ExecutionPlan}
    {σ : InMemoryStateStore} {outcome : ReplanOutcome} (h : Chain (plan :: versions) σ)
    (hr : ReplanOf plan outcome) :
    ((outcome.plan :: plan :: versions).IsChain fun newer older =>
        newer.planVersion = older.planVersion + 1)
      ∧ (∀ p ∈ outcome.plan :: plan :: versions, p.stepIds.Nodup)
      ∧ (∀ id ∈ outcome.plan.stepIds, id ∈ plan.stepIds
        ∨ ∃ m ∈ outcome.stepIdMappings, m.targetStepId = id)
      ∧ (∀ m ∈ outcome.stepIdMappings, m.targetStepId ∈ outcome.plan.stepIds
        ∧ ∀ p ∈ plan :: versions, m.targetStepId ∉ p.stepIds)
      ∧ ∃ σ', σ.upsertPlanSteps outcome.plan.sessionId (serializePlanSteps outcome.plan.steps)
          outcome.plan.planVersion = .ok σ'
        ∧ (∀ id step, σ.step? plan.sessionId id = some step →
          σ'.step? plan.sessionId id = some step)
        ∧ ∀ m ∈ outcome.stepIdMappings, σ.step? plan.sessionId m.targetStepId = none
          ∧ ∃ step ∈ outcome.plan.steps, step.stepId = m.targetStepId
            ∧ σ'.step? plan.sessionId m.targetStepId = some step.toStepDict.toState
            ∧ step.toStepDict.toState.status = .pending := by
  obtain ⟨plan, versions, he, hinv⟩ := h.inv
  cases he
  obtain ⟨hspec, ids, hmem, hids, hmaps⟩ := hr.spec (hinv.nodup plan (by simp))
  obtain ⟨σ', hσ', hreg⟩ := upsertPlanSteps_registers (hspec.sessionId ▸ hinv.hasSession)
    (serializePlanSteps outcome.plan.steps) outcome.plan.planVersion
  have hinv' := hinv.replan hr hreg
  rw [hspec.sessionId] at hreg
  have htarget : ∀ m ∈ outcome.stepIdMappings, m.targetStepId ∈ outcome.plan.stepIds
      ∧ ¬ NotAfter plan.planVersion m.targetStepId := by
    intro m hm
    rw [hmaps] at hm
    obtain ⟨x, hx, rfl⟩ := List.mem_map.mp hm
    refine ⟨?_, fun hna => hna x _ (by omega) rfl⟩
    rw [hids, ← replanned_of_mem hx]
    exact List.mem_map_of_mem (hmem x hx)
  refine ⟨hinv'.increasing, hinv'.nodup, fun id hid => ?_, fun m hm => ⟨(htarget m hm).1,
    fun p hp hpm => (htarget m hm).2 (hinv.ids p hp _ hpm)⟩, σ', hσ',
    fun id step hs => hreg.keep _ id step hs, fun m hm => ?_⟩
  · rw [hids] at hid
    obtain ⟨x, hx, rfl⟩ := List.mem_map.mp hid
    by_cases hxi : x ∈ ids
    · refine .inr ⟨_, hmaps ▸ List.mem_map_of_mem hxi, ?_⟩
      rw [replanned_of_mem hxi]
    · rw [replanned_of_notMem hxi]
      exact .inl hx
  · have hnone : σ.step? plan.sessionId m.targetStepId = none := by
      rw [← Option.not_isSome_iff_eq_none]
      exact fun hs => (htarget m hm).2 (hinv.entries _ hs)
    obtain ⟨step, hstep, hid⟩ := List.mem_map.mp (htarget m hm).1
    obtain ⟨entry, hentry⟩ := Option.isSome_iff_exists.mp
      (hreg.mem step.toStepDict (mem_serializePlanSteps.mpr ⟨step, hstep, rfl⟩))
    have hentry' : σ'.step? plan.sessionId m.targetStepId = some entry := hid ▸ hentry
    obtain ⟨-, d, hd, hdid, rfl⟩ := hreg.fresh _ _ entry hnone hentry'
    obtain ⟨t, ht, rfl⟩ := mem_serializePlanSteps.mp hd
    exact ⟨hnone, t, ht, hdid, hentry', rfl⟩

theorem chain_replan_fresh_twice :
    let plan := samplePlan [sampleStep "a" [], sampleStep "b" ["a"]]
    let decision := buildDecision none "step_failed"
    let first := localReplace plan (sampleStep "a" []) decision
    ∃ outcome, rollbackRetry first.plan (sampleStep "b" ["a-replan-v2"]) decision = .ok outcome
      ∧ ∀ p ∈ [outcome.plan, first.plan, plan], p.stepIds.Nodup := by
  intro plan decision first
  have hinit : Chain [plan] _ := .init (σ := {}) (by simp [HasSession]) (by decide +kernel)
    (by decide +kernel) rfl
  have ha : sampleStep "a" [] ∈ plan.steps := by simp [plan, samplePlan]
  have hfirst : Chain [first.plan, plan] _ := hinit.replan (.localReplace ha decision) rfl
  have hmem : sampleStep "b" ["a-replan-v2"] ∈ first.plan.steps := by
    rw [show first.plan.steps = [_, sampleStep "b" ["a-replan-v2"]] from rfl]
    simp
  exact ⟨_, rfl, (chain_replan_fresh hfirst (.rollbackRetry hmem decision rfl)).2.1⟩

end Replanner

end AgentLearning
