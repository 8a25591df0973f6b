import AgentLearning.Proofs.Run
import AgentLearning.Proofs.Validate

/-!
# How a call goes on and ends

On an accepted plan some step is ready as long as one is pending, so the loop does not look for a
missing dependency before the first replan.

When the call returns, its result and the status it persisted agree, but for one exit: a step that
was cancelled inside its thread comes out of the fold as any failed step, and without a replan left
the call ends `FAILED` with the code of a cancellation.
-/

namespace AgentLearning

open InMemoryStateStore Executor

/-! ## Ready steps -/

/-- Before the first replan the plan is the one the call was made with. -/
theorem Inv.plan_eq {call : Call} {hist : List Event} {initial : String → Prop} {E : Executor}
    {c₀ c : Config} (h₀ : Inv call hist initial False False c₀) (hplan : c₀.plan = call.plan)
    (hrun : E.Runs call.request (fun _ => True) c₀ c) (hcount : c.replanCount = 0) :
    c.plan = call.plan := by
  refine h₀.runs_induction (Q := fun c => c.replanCount = 0 → c.plan = call.plan)
    (fun c _ => c.meets_false E) (fun _ => hplan) ?_ hrun hcount
  intro c c' action hc _ hs ih hcount
  rcases (hc.plan_or_replan hs).2 with ⟨hp, hr⟩ | ⟨hr, -⟩
  · rw [hp]
    exact ih (hr ▸ hcount)
  · omega

/-- On an accepted plan, whatever is completed, some step that is not has all its dependencies
completed; so in every run up to the first replan the loop finds a ready step while one is
pending. -/
theorem ready_before_replan {call : Call} {tools : List String}
    (hplan : Planner.validatePlan call.plan tools = .ok ()) :
    (∀ completed : String → Prop, (∃ step ∈ call.plan.steps, ¬ completed step.stepId) →
      ∃ step ∈ call.plan.steps, ¬ completed step.stepId ∧ ∀ d ∈ step.dependsOn, completed d)
    ∧ ∀ hist store (E : Executor) c₀ c, Reachable hist store →
      Executor.start call store = .ok c₀ → E.Runs call.request (fun _ => True) c₀ c →
      c.replanCount = 0 → c.pendingSteps ≠ [] → c.readySteps ≠ [] := by
  have hready : ∀ completed : String → Prop,
      (∃ step ∈ call.plan.steps, ¬ completed step.stepId) →
        ∃ step ∈ call.plan.steps, ¬ completed step.stepId ∧ ∀ d ∈ step.dependsOn, completed d :=
    (Planner.validatePlan_ok_iff.mp hplan).exists_ready
  refine ⟨hready, fun hist store E c₀ c hstore hstart hrun hcount hpending => ?_⟩
  obtain ⟨hs, hinv⟩ := hstore.start hstart False False
  have heq := hinv.plan_eq hs.plan hrun hcount
  obtain ⟨step, hmem⟩ := List.exists_mem_of_ne_nil _ hpending
  rw [Config.mem_pendingSteps, heq] at hmem
  obtain ⟨ready, hr, hnot, hdeps⟩ := hready (· ∈ c.completed) ⟨step, hmem⟩
  exact List.ne_nil_of_mem (Config.mem_readySteps.mpr ⟨⟨heq ▸ hr, hnot⟩, hdeps⟩)

theorem ready_before_replan_diamond :
    ∃ step ∈ (samplePlan [sampleStep "d" ["b", "c"], sampleStep "c" ["a"], sampleStep "b" ["a"],
      sampleStep "a" []]).steps, step.stepId ≠ "a" ∧ ∀ d ∈ step.dependsOn, d = "a" := by
  have haccepted : Planner.validatePlan (sampleCall (samplePlan [sampleStep "d" ["b", "c"],
    sampleStep "c" ["a"], sampleStep "b" ["a"], sampleStep "a" []])).plan ["t"] = .ok () := by
    decide +kernel
  exact (ready_before_replan haccepted).1 (· = "a")
    ⟨sampleStep "d" ["b", "c"], by simp [sampleCall, samplePlan], by decide⟩

/-! ## Result and status -/

/-- The error is that of a cancellation. -/
def cancelled (error : Option StepError) : Bool :=
  match error with
  | some error => error.code = "session_cancelled" || error.code = "step_cancelled"
  | none => false

/-- The first failure among the outcomes is a cancellation and finds no replan left. -/
def Config.endsCancelled (E : Executor) (c : Config) : List StepOutcome → Bool
  | [] => false
  | o :: os =>
    if o.result.success then endsCancelled E c os
    else cancelled o.result.error && !E.mayReplan c.replanCount

/-- If the batch at hand is ready to be folded, a cancelled step does not end the call. -/
def Config.replansCancelled (E : Executor) (c : Config) : Bool :=
  match c.phase with
  | .batch threads results =>
    match threads.all (·.collected), Config.orderedResults results threads with
    | true, .ok os => !c.endsCancelled E os
    | _, _ => true
  | _ => true

/-- While a replan is left, a cancelled step is replanned. -/
theorem Executor.replanAfterFailure_cancelled {E : Executor} {plan : ExecutionPlan}
    {step : PlanStep} {error : Option StepError} {k : ℕ} (hmem : step.stepId ∈ plan.stepIds)
    (hmay : E.mayReplan k = true) (hc : cancelled error = true) :
    E.replanAfterFailure plan step error k ≠ .ok none := by
  have hdecision : (Replanner.buildDecision error "step_failed").shouldReplan = true
      ∧ (Replanner.buildDecision error "step_failed").strategy = .rollbackRetry
      ∧ (Replanner.buildDecision error "step_failed").requiresHumanHandoff = false := by
    cases error with
    | none => cases hc
    | some error =>
      simp only [cancelled, Bool.or_eq_true, decide_eq_true_eq] at hc
      rcases hc with hc | hc <;> simp [Replanner.buildDecision, hc]
  obtain ⟨outcome, ho, hd, -⟩ := Replanner.rollbackRetry_replans hmem
    (Replanner.buildDecision error "step_failed")
  simp [Executor.replanAfterFailure, hmay, Replanner.replanAfterFailure, hdecision, ho, hd, bind,
    Except.bind, pure, Except.pure]

theorem Config.endsCancelled_append {E : Executor} {c : Config} {rest : List StepOutcome}
    {o : StepOutcome} (ho : o.result.success = false) : ∀ {done : List StepOutcome},
      (∀ o ∈ done, o.result.success = true) → c.endsCancelled E (done ++ o :: rest) = false →
        cancelled o.result.error = true → E.mayReplan c.replanCount = true
  | [], _, h, hc => by simpa [endsCancelled, ho, hc] using h
  | o₁ :: done, hdone, h, hc => by
    rw [List.cons_append, endsCancelled, if_pos (hdone o₁ (by simp))] at h
    exact endsCancelled_append ho (fun o ho => hdone o (List.mem_cons_of_mem _ ho)) h hc

/-- The status that the result and its error call for. -/
structure Agrees (call : Call) (c : Config) (result : ExecutionResult) : Prop where
  planVersion : result.planVersion = c.plan.planVersion
  error : result.success = true → result.error = none
  status : c.world.store.status? call.plan.sessionId = some (if result.success then .success
    else if cancelled result.error then .canceled else .failed)

theorem Inv.agrees {call : Call} {hist : List Event} {initial : String → Prop} {solo clean : Prop}
    {E : Executor} {c c' : Config} (h : Inv call hist initial solo clean c)
    (hc : c.replansCancelled E = true)
    (hprev : ∀ result, c.phase = .returned result → Agrees call c result) {action : Action}
    (hstep : c.step E call.request action = some c') {result : ExecutionResult}
    (hphase' : c'.phase = .returned result) : Agrees call c' result := by
  cases Config.takes_of_step hstep with
  | loop hphase now =>
    have hloop := c.loop_step (E := E) (h.sessionId ▸ h.hasSession) call.request now
    generalize c.loop E call.request now = c₁ at hloop hphase'
    cases hloop with
    | cancelled hp =>
      cases hphase'
      exact ⟨rfl, nofun, h.sessionId ▸ hp.status⟩
    | failed hp he =>
      cases hphase'
      refine ⟨rfl, nofun, (h.sessionId ▸ hp.status).trans ?_⟩
      rcases he with rfl | ⟨rfl, -⟩ <;> rfl
    | succeeded _ hp =>
      cases hphase'
      exact ⟨rfl, fun _ => rfl, h.sessionId ▸ hp.status⟩
    | replanned _ _ _ _ => cases hphase'
    | batch _ => cases hphase'
  | thread _ _ _ _ => cases hphase'
  | collect _ _ _ _ => cases hphase'
  | @fold threads results os hphase hall hos =>
    have hfold := h.foldStep hphase hall hos E
    generalize Config.foldOutcomes E c os = c₁ at hfold hphase'
    cases hfold with
    | completed _ => cases hphase'
    | replanned _ _ _ _ _ _ => cases hphase'
    | @failed done rest o store hsplit hdone ho hreplan hp =>
      cases hphase'
      have hnot : cancelled o.result.error = false := by
        by_contra hcancel
        rw [Bool.not_eq_false] at hcancel
        rw [Config.replansCancelled, hphase] at hc
        simp only [hall, hos, hsplit, Bool.not_eq_true'] at hc
        have hget := (h.outcomes hphase hall hos).1 o (by simp [hsplit])
        exact replanAfterFailure_cancelled (h.outcome (h.batch hphase) hget).2.1
          (Config.endsCancelled_append ho hdone hc hcancel) hcancel hreplan
      refine ⟨by simp [Config.result, Config.record, Config.goTo], nofun,
        (h.sessionId ▸ hp.status).trans ?_⟩
      simp [Config.result, hnot]
  | foldRaises _ _ _ => cases hphase'
  | requestCancel _ =>
    have := hprev result hphase'
    exact ⟨this.planVersion, this.error, this.status⟩
  | markCancelRequested _ hmark =>
    have := hprev result hphase'
    obtain ⟨store, hs, hframe⟩ := markCancelRequested_frame h.hasSession
    rw [h.sessionId, hs] at hmark
    cases hmark
    exact ⟨this.planVersion, this.error, ((hframe fun _ => False).status? _).trans this.status⟩

/-- In a run through plans with distinct ids that folds no cancelled step without a replan left,
the session ends with the status the result calls for, and a success has all steps of the plan
version in the result `SUCCESS`. -/
theorem result_status_agree {E : Executor} {call : Call} {hist : List Event}
    {store : InMemoryStateStore} {c₀ c : Config} {result : ExecutionResult}
    (hstore : Reachable hist store) (hstart : Executor.start call store = .ok c₀)
    (hrun : E.Runs call.request
      (fun c => c.plan.stepIds.Nodup ∧ c.replansCancelled E = true) c₀ c)
    (hreturned : c.phase = .returned result) :
    let status := c.world.store.status? call.plan.sessionId
    (status = some .success ↔ result.success = true)
      ∧ (result.success = true → result.planVersion = c.plan.planVersion
        ∧ ∀ step ∈ c.plan.steps, c.world.store.Succeeded call.plan.sessionId step.stepId)
      ∧ (status = some .canceled ↔ cancelled result.error = true)
      ∧ (¬ result.success = true → ¬ cancelled result.error = true → status = some .failed) := by
  intro status
  obtain ⟨hs, hinv⟩ := hstore.start hstart True False
  have hmeets : ∀ c : Config, c.plan.stepIds.Nodup ∧ c.replansCancelled E = true →
      c.Meets E True False := fun c hc => ⟨fun _ => hc.1, False.elim⟩
  have hc := hinv.runs hmeets hrun
  have hagrees : ∀ result, c.phase = .returned result → Agrees call c result := by
    refine hinv.runs_induction (Q := fun c => ∀ result, c.phase = .returned result →
      Agrees call c result) hmeets (fun result hr => ?_) ?_ hrun
    · rw [hs.phase] at hr
      cases hr
    · exact fun c c' action hc hmeets hstep ih result hr => hc.agrees hmeets.2 ih hstep hr
  obtain ⟨hversion, herror, hstatus⟩ := hagrees result hreturned
  have hpending : result.success = true → c.pendingSteps = [] := by
    have := hc.phase
    rwa [hreturned] at this
  refine ⟨?_, fun hsuccess => ⟨hversion, fun step hmem => hc.succeeded trivial _ ?_⟩, ?_, ?_⟩
  · show c.world.store.status? _ = _ ↔ _
    rw [hstatus]
    split_ifs <;> simp_all
  · by_contra hnot
    have := Config.mem_pendingSteps.mpr ⟨hmem, hnot⟩
    simp [hpending hsuccess] at this
  · show c.world.store.status? _ = _ ↔ _
    rw [hstatus]
    split_ifs with h1 h2
    · simp [herror h1, cancelled]
    · simp [h2]
    · simp [h2]
  · intro h1 h2
    show c.world.store.status? _ = _
    rw [hstatus, if_neg h1, if_neg h2]

/-- A run whose only step succeeds, one whose step times out and is not replanned, and one that is
cancelled before its first round. -/
def statusRuns : List (List Action × ExecutionStatus) :=
  [(batchRound 1 (succeedThread 0) ++ [Action.loop 0], .success),
   (batchRound 1 (exhaustThread 0), .failed),
   ([Action.requestCancel, Action.loop 0], .canceled)]

theorem result_status_agree_runs :
    let call := sampleCall (samplePlan [sampleStep "a" []])
    ∀ p ∈ statusRuns, ∃ c₀ c, Executor.start call {} = .ok c₀
      ∧ (sampleExecutor 0 0).Runs call.request (fun c => c.plan.stepIds.Nodup
        ∧ c.replansCancelled (sampleExecutor 0 0) = true) c₀ c
      ∧ c.world.store.status? "s" = some p.2 := by
  intro call p hp
  have hq : ∀ p ∈ statusRuns, ((Executor.start call {}).toOption.bind fun c =>
      (sampleExecutor 0 0).runWhile call.request (fun c => decide c.plan.stepIds.Nodup
        && c.replansCancelled (sampleExecutor 0 0)) c p.1).any (Config.returns fun result =>
          decide (p.2 = .success) = result.success
            && decide (p.2 = .canceled) = cancelled result.error
            && (p.2 = .success || p.2 = .canceled || p.2 = .failed)) = true := by decide +kernel
  obtain ⟨c₀, c, hstart, hrun, hq⟩ := exists_of_runWhile (hq p hp)
  obtain ⟨result, hreturned, hresult⟩ := Config.exists_of_returns hq
  have hruns := hrun.mono (Q := fun c => c.plan.stepIds.Nodup
    ∧ c.replansCancelled (sampleExecutor 0 0) = true) fun c hc => by simpa using hc
  obtain ⟨hsuccess, -, hcanceled, hfailed⟩ := result_status_agree .empty hstart hruns hreturned
  simp only [Bool.and_eq_true, Bool.or_eq_true, decide_eq_true_eq] at hresult
  obtain ⟨⟨hsucceeds, hcancels⟩, (hstatus | hstatus) | hstatus⟩ := hresult <;>
    rw [hstatus] at hsucceeds hcancels ⊢
  · exact ⟨c₀, c, hstart, hruns, hsuccess.mpr hsucceeds.symm⟩
  · exact ⟨c₀, c, hstart, hruns, hcanceled.mpr hcancels.symm⟩
  · exact ⟨c₀, c, hstart, hruns, hfailed (by rw [← hsucceeds]; simp) (by rw [← hcancels]; simp)⟩

/-- A cancel request that reaches the step's thread first, with no replan left: the result says
the step was cancelled, and the session is `FAILED`. -/
theorem cancelled_step_ends_failed :
    let call := sampleCall (samplePlan [sampleStep "a" []])
    let E := sampleExecutor 0 0
    Planner.validatePlan call.plan ["t"] = .ok ()
      ∧ ∃ c₀ c result, Executor.start call {} = .ok c₀
        ∧ E.run call.request c₀ (batchRound 1 (.requestCancel :: List.replicate 3 (.thread 0 {})))
          = some c
        ∧ c.phase = .returned result ∧ cancelled result.error = true
        ∧ c.world.store.status? "s" = some .failed := by
  intro call E
  have hq : ((Executor.start call {}).toOption.bind fun c =>
      E.run call.request c (batchRound 1 (.requestCancel :: List.replicate 3 (.thread 0 {})))).any
      (fun c => decide (c.world.store.status? "s" = some .failed)
        && c.returns (cancelled ·.error)) = true := by decide +kernel
  obtain ⟨c₀, c, hstart, hrun, hq⟩ := exists_of_run hq
  rw [Bool.and_eq_true, decide_eq_true_eq] at hq
  obtain ⟨result, hreturned, hcancelled⟩ := Config.exists_of_returns hq.2
  exact ⟨by decide +kernel, c₀, c, result, hstart, hrun, hreturned, hcancelled, hq.1⟩

end AgentLearning
