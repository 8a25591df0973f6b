import AgentLearning.Application
import AgentLearning.Proofs.Protocol
import AgentLearning.Proofs.StoreInvariant

/-!
# The session a call starts in

Initialising a session as it was initialised before changes nothing, so the application, which does
it once more than the executor, starts every call as the executor does. What a call finds cancelled
or `SUCCESS` is what earlier calls have left so.
-/

namespace AgentLearning

open AgentApplication InMemoryStateStore

/-- Registering steps leaves the head of the session. -/
theorem foldl_insertStep_head : ∀ (steps : List StepDict) (session : SessionState),
    ∃ entries sequence, steps.foldl SessionState.insertStep session
      = { session with steps := entries, stepSequence := sequence }
  | [], _ => ⟨_, _, rfl⟩
  | d :: steps, session => by
    obtain ⟨entries, sequence, h⟩ := foldl_insertStep_head steps (session.insertStep d)
    rw [List.foldl_cons, h]
    unfold SessionState.insertStep
    split_ifs <;> exact ⟨_, _, rfl⟩

/-- What `init_session` finds cancelled. -/
theorem initSession_isCancelRequested {store store' : InMemoryStateStore}
    {sessionId requestId traceId : String} {steps : List StepDict} {planVersion : ℤ}
    (h : store.initSession sessionId requestId steps planVersion traceId = .ok store') :
    store'.isCancelRequested sessionId
      = .ok ((store.sessions.get? sessionId).any (·.cancelRequested)) := by
  rw [StoreM.initSession_eq] at h
  cases h
  unfold isCancelRequested
  rw [getSession_eq (StoreM.get?_put_self _ _)]
  obtain ⟨entries, sequence, hhead⟩ := foldl_insertStep_head steps
    { StoreM.opened store sessionId requestId planVersion traceId with
      planVersion := max (StoreM.opened store sessionId requestId planVersion traceId).planVersion
        planVersion }
  show Except.ok (StoreM.register _ _ _).cancelRequested = _
  unfold StoreM.register
  rw [hhead]
  unfold StoreM.opened
  rcases store.sessions.get? sessionId with _ | session <;> rfl

/-- What a call starts with. -/
theorem start_ok {call : Call} {store : InMemoryStateStore} {c : Config}
    (h : Executor.start call store = .ok c) :
    ∃ store₁ store₂, store.initSession call.plan.sessionId call.plan.requestId
        (serializePlanSteps call.plan.steps) call.plan.planVersion call.plan.traceId = .ok store₁
      ∧ store₁.setSessionStatus call.plan.sessionId .running = .ok store₂
      ∧ c.world = ⟨store₂, call.control, []⟩ ∧ c.replanHistory = [] := by
  unfold Executor.start at h
  rcases h₁ : store.initSession call.plan.sessionId call.plan.requestId
    (serializePlanSteps call.plan.steps) call.plan.planVersion call.plan.traceId with e | store₁ <;>
    simp only [h₁, bind, Except.bind] at h
  · cases h
  rcases h₂ : store₁.getSession call.plan.sessionId with e | session <;> simp only [h₂] at h
  · cases h
  rcases h₃ : RecoveryService.findRecoveryPoint session with e | point <;> simp only [h₃] at h
  · cases h
  rcases h₄ : store₁.setSessionStatus call.plan.sessionId .running with e | store₂ <;>
    simp only [h₄] at h
  · cases h
  · cases h
    exact ⟨store₁, store₂, rfl, h₄, rfl, rfl⟩

/-- The main thread marks no step. -/
theorem MainOps.succeeded {σ σ' : InMemoryStateStore} (h : MainOps σ σ') {sid id : String} :
    σ'.Succeeded sid id ↔ σ.Succeeded sid id := by
  induction h with
  | refl => exact Iff.rfl
  | tail _ hop ih =>
    rcases hop.registers_or_step_eq with ⟨_, _, hr⟩ | hstep
    · exact hr.succeeded.trans ih
    · unfold Succeeded at ih ⊢
      rw [hstep]
      exact ih

end AgentLearning
