import AgentLearning.Proofs.IdempotencyKeys
import AgentLearning.Proofs.Outcome

/-!
# Calls into a session that has run before

A call counts the steps that are `SUCCESS` in the session as completed, without looking at the key
they were marked with, and never runs them again. So what it leaves out was done for its request if
the session's successes were. Sent again, a call that needed no replan does nothing and succeeds; a
step that was replanned stays `FAILED` under its own id and runs again.
-/

namespace AgentLearning

open InMemoryStateStore Executor

section Runs

variable {call : Call} {hist : List Event} {initial : String → Prop} {solo clean : Prop}
  {E : Executor} {c₀ c : Config}

/-- The plan a call returns with is the one before its last action. -/
theorem Inv.meets_of_returned {P : Config → Prop}
    (hP : ∀ c c' : Config, c'.plan = c.plan → P c → P c')
    (h₀ : Inv call hist initial False False c₀) (hphase₀ : c₀.phase = .looping)
    (hrun : E.Runs call.request P c₀ c) {result : ExecutionResult}
    (hphase : c.phase = .returned result) : P c := by
  cases hrun with
  | refl =>
    rw [hphase₀] at hphase
    cases hphase
  | @tail c₁ _ hprev hstep =>
    obtain ⟨hmeets, action, hs⟩ := hstep
    have hc := h₀.runs (fun c _ => c.meets_false E) hprev
    rcases (hc.plan_or_replan hs).2 with ⟨hp, -⟩ | ⟨-, hl, -⟩
    · exact hP c₁ c hp hmeets
    · rw [hl] at hphase
      cases hphase

/-- What was a success before the call stays completed, and its tool is not called. -/
theorem Inv.initial_not_invoked (h₀ : Inv call hist initial False False c₀)
    (hinitial : ∀ id, initial id → id ∈ c₀.completed) (htrace : c₀.world.trace = [])
    (hrun : E.Runs call.request (fun _ => True) c₀ c) :
    (∀ id, initial id → id ∈ c.completed)
      ∧ ∀ id, initial id → ¬ Invoked c.world.trace call.plan.sessionId id := by
  refine h₀.runs_induction (Q := fun c => (∀ id, initial id → id ∈ c.completed)
    ∧ ∀ id, initial id → ¬ Invoked c.world.trace call.plan.sessionId id)
    (fun c _ => c.meets_false E) ⟨hinitial, fun id _ hi => ?_⟩ ?_ hrun
  · obtain ⟨step, payload, hmem, -⟩ := hi
    simp [htrace] at hmem
  · intro c c' action hc _ hs ih
    refine ⟨fun id hid => (hc.plan_or_replan hs).1 id (ih.1 id hid), fun id hid hi => ?_⟩
    by_cases hthread : ∃ i answer, action = .thread i answer
    · obtain ⟨i, answer, rfl⟩ := hthread
      obtain ⟨a, -, hready, hmove⟩ := hc.moves hs
      obtain ⟨step, payload, hmem, hstep⟩ := hi
      obtain ⟨es, he, hes⟩ := hmove.trace
      rw [he] at hmem
      rcases List.mem_append.mp hmem with hmem | hmem
      · exact ih.2 id hid ⟨step, payload, hmem, hstep⟩
      · have : a.step.stepId = id := (hes _ hmem).2.symm.trans hstep
        exact (Config.mem_readySteps.mp hready).1.2 (this ▸ ih.1 id hid)
    · push Not at hthread
      rw [hc.trace_eq hs hthread] at hi
      exact ih.2 id hid hi

/-- Once a call has returned with success, every step of its plan is completed. -/
theorem Inv.completed_of_returned (h : Inv call hist initial solo clean c)
    {result : ExecutionResult} (hphase : c.phase = .returned result)
    (hsuccess : result.success = true) {step : PlanStep} (hs : step ∈ c.plan.steps) :
    step.stepId ∈ c.completed := by
  have hpending : result.success = true → c.pendingSteps = [] := by
    have := h.phase
    rwa [hphase] at this
  by_contra hnot
  have := Config.mem_pendingSteps.mpr ⟨hs, hnot⟩
  simp [hpending hsuccess] at this

end Runs

/-! ## Steps that are left out -/

/-- If, through the run, every step of the plan at hand that was `SUCCESS` before the call was so
under a key of this request, then each step of the final plan whose tool a successful call did not
call had been marked with a key of this request before. -/
theorem skipped_marked_for_request {E : Executor} {call : Call} {hist : List Event}
    {store : InMemoryStateStore} {c₀ c : Config} {result : ExecutionResult}
    (hstore : Reachable hist store) (hstart : Executor.start call store = .ok c₀)
    (hrun : E.Runs call.request
      (fun c => ∀ id ∈ c.plan.stepIds, ∀ entry, store.step? call.plan.sessionId id = some entry →
        entry.status = .success →
        ∃ v, entry.idempotencyKey = buildIdempotencyKey call.plan.requestId id v) c₀ c)
    (hreturned : c.phase = .returned result) (hsuccess : result.success = true) :
    ∀ step ∈ c.plan.steps, ¬ Invoked c.world.trace call.plan.sessionId step.stepId →
      ∃ v, .markStepSuccess call.plan.sessionId step.stepId
        (buildIdempotencyKey call.plan.requestId step.stepId v) ∈ hist := by
  obtain ⟨hs, hinv⟩ := hstore.start hstart False False
  have hc := hinv.runs (fun c _ => c.meets_false E) hrun
  have hkeys := hinv.meets_of_returned (fun c c' hp h => by rwa [hp]) hs.phase hrun hreturned
  intro step hmem hnot
  rcases hc.accounted _ (hc.completed_of_returned hreturned hsuccess hmem) with
    ⟨entry, hentry, hstatus⟩ | hinvoked | ⟨v, hv⟩
  · obtain ⟨v, hv⟩ := hkeys _ (ExecutionPlan.mem_stepIds hmem) entry hentry hstatus
    refine ⟨v, ?_⟩
    rw [← hv]
    simpa using hstore.inv.2 call.control _ _ entry hentry hstatus
  · exact absurd hinvoked hnot
  · rcases List.mem_append.mp hv with hv | hv
    · exact ⟨v, hv⟩
    · exact absurd (hc.invoked _ _ hv) hnot

theorem skipped_marked_for_request_again :
    let call := sampleCall (samplePlan [sampleStep "a" []])
    let E := sampleExecutor 0 1
    ∃ c₁ c₀ c : Config, Executor.start call c₁.world.store = .ok c₀
      ∧ E.Runs call.request (fun _ => True) c₀ c ∧ ¬ Invoked c.world.trace "s" "a"
      ∧ ∃ v, .markStepSuccess "s" "a" (buildIdempotencyKey "r1" "a" v) ∈ c₁.world.trace := by
  intro call E
  have hq : ((Executor.start call {}).toOption.bind fun c => E.run call.request c
      (batchRound 1 (succeedThread 0) ++ [Action.loop 0])).any (fun c₁ =>
      c₁.returns (fun _ => true) && ((Executor.start call c₁.world.store).toOption.bind fun c =>
        E.runWhile call.request (fun c => c.plan.stepIds.all fun id =>
          (c₁.world.store.step? "s" id).all fun entry =>
            entry.idempotencyKey = buildIdempotencyKey "r1" id 1) c [Action.loop 0]).any (fun c =>
          c.returns (·.success) && decide (c.plan.stepIds = ["a"])
            && decide (¬ Invoked c.world.trace "s" "a"))) = true := by decide +kernel
  obtain ⟨c₁', c₁, hstart₁, hrun₁, hq⟩ := exists_of_run hq
  rw [Bool.and_eq_true] at hq
  obtain ⟨result₁, hreturned₁, -⟩ := Config.exists_of_returns hq.1
  obtain ⟨c₀, c, hstart, hrun, hq⟩ := exists_of_runWhile hq.2
  rw [Bool.and_eq_true, Bool.and_eq_true, decide_eq_true_eq, decide_eq_true_eq] at hq
  obtain ⟨⟨hreturns, hids⟩, hnot⟩ := hq
  obtain ⟨result, hreturned, hsuccess⟩ := Config.exists_of_returns hreturns
  have hstore := Reachable.call .empty hstart₁ (runs_of_run hrun₁) (.inl ⟨result₁, hreturned₁⟩)
  obtain ⟨step, hmem, hid⟩ := List.mem_map.mp (hids ▸ List.mem_singleton_self "a" :
    "a" ∈ c.plan.stepIds)
  have hruns : E.Runs call.request (fun c => ∀ id ∈ c.plan.stepIds, ∀ entry,
      c₁.world.store.step? "s" id = some entry → entry.status = .success →
        ∃ v, entry.idempotencyKey = buildIdempotencyKey "r1" id v) c₀ c := by
    refine hrun.mono fun c hc id hmem entry hs _ => ⟨1, ?_⟩
    have hkey := List.all_eq_true.mp hc id hmem
    rw [hs] at hkey
    exact of_decide_eq_true hkey
  obtain ⟨v, hv⟩ :=
    skipped_marked_for_request hstore hstart hruns hreturned hsuccess step hmem (hid ▸ hnot)
  rw [hid] at hv
  exact ⟨c₁, c₀, c, hstart, hrun.mono fun _ _ => trivial, hnot, v, hv⟩

/-- The event marks no success under a key other than this one. -/
def Event.marksOnly (key : String) : Event → Bool
  | .markStepSuccess _ _ k => k = key
  | .invoke _ _ _ => true

/-- A second request into a session in which its step has succeeded for the first: the step is left
out, and no success was marked for the second request. -/
theorem skipped_for_other_request :
    let first := sampleCall (samplePlan [sampleStep "a" []])
    let second := sampleCall { samplePlan [sampleStep "a" []] with requestId := "r2" }
    let E := sampleExecutor 0 1
    Planner.validatePlan second.plan ["t"] = .ok ()
      ∧ ∃ c₁' c₁ c₀ c result, Executor.start first {} = .ok c₁'
        ∧ E.run first.request c₁' (batchRound 1 (succeedThread 0) ++ [Action.loop 0])
          = some c₁
        ∧ Reachable c₁.world.trace c₁.world.store
        ∧ Executor.start second c₁.world.store = .ok c₀
        ∧ E.run second.request c₀ [Action.loop 0] = some c ∧ c.phase = .returned result
        ∧ result.success = true ∧ c.plan.stepIds = ["a"] ∧ ¬ Invoked c.world.trace "s" "a"
        ∧ ∀ v, .markStepSuccess "s" "a" (buildIdempotencyKey "r2" "a" v) ∉ c₁.world.trace := by
  intro first second E
  have hq : ((Executor.start first {}).toOption.bind fun c => E.run first.request c
      (batchRound 1 (succeedThread 0) ++ [Action.loop 0])).any (fun c₁ =>
      c₁.returns (fun _ => true) && c₁.world.trace.all (Event.marksOnly "r1:a:1")
        && ((Executor.start second c₁.world.store).toOption.bind fun c =>
          E.run second.request c [Action.loop 0]).any (fun c => c.returns (·.success)
            && decide (c.plan.stepIds = ["a"]) && decide (¬ Invoked c.world.trace "s" "a")))
      = true := by decide +kernel
  obtain ⟨c₁', c₁, hstart₁, hrun₁, hq⟩ := exists_of_run hq
  rw [Bool.and_eq_true, Bool.and_eq_true] at hq
  obtain ⟨⟨hreturns₁, hkeys⟩, hq⟩ := hq
  obtain ⟨result₁, hreturned₁, -⟩ := Config.exists_of_returns hreturns₁
  obtain ⟨c₀, c, hstart, hrun, hq⟩ := exists_of_run hq
  rw [Bool.and_eq_true, Bool.and_eq_true, decide_eq_true_eq, decide_eq_true_eq] at hq
  obtain ⟨⟨hreturns, hids⟩, hnot⟩ := hq
  obtain ⟨result, hreturned, hsuccess⟩ := Config.exists_of_returns hreturns
  have hstore := Reachable.call .empty hstart₁ (runs_of_run hrun₁) (.inl ⟨result₁, hreturned₁⟩)
  refine ⟨by decide +kernel, c₁', c₁, c₀, c, result, hstart₁, hrun₁, by simpa using hstore, hstart,
    hrun, hreturned, hsuccess, hids, hnot, fun v hv => ?_⟩
  have hkey := List.all_eq_true.mp hkeys _ hv
  rw [Event.marksOnly, decide_eq_true_eq] at hkey
  have := congrArg String.toList hkey
  simp [buildIdempotencyKey] at this

/-! ## The same call again -/

/-- A run without a replan stays with the plan of the call, so with its distinct ids. -/
theorem Inv.runs_nodup {call : Call} {hist : List Event} {initial : String → Prop} {E : Executor}
    {c₀ c : Config} (h₀ : Inv call hist initial False False c₀) (hplan : c₀.plan = call.plan)
    (hd : call.plan.stepIds.Nodup) (hrun : E.Runs call.request (fun _ => True) c₀ c)
    (hcount : c.replanCount = 0) :
    E.Runs call.request (fun c => c.plan.stepIds.Nodup) c₀ c := by
  refine (h₀.runs_induction (Q := fun c => c.replanCount = 0 → c.plan = call.plan
    ∧ E.Runs call.request (fun c => c.plan.stepIds.Nodup) c₀ c) (fun c _ => c.meets_false E)
    (fun _ => ⟨hplan, .refl⟩) ?_ hrun hcount).2
  intro c c' action hc _ hs ih hcount
  rcases (hc.plan_or_replan hs).2 with ⟨hp, hr⟩ | ⟨hr, -⟩
  · obtain ⟨heq, hprev⟩ := ih (hr ▸ hcount)
    have hnodup : c.plan.stepIds.Nodup := by
      rw [heq]
      exact hd
    exact ⟨hp.trans heq, .tail hprev ⟨hnodup, action, hs⟩⟩
  · omega

theorem Config.loop_succeeds {c : Config} (hsession : c.world.store.HasSession c.plan.sessionId)
    (hpending : c.pendingSteps = []) {now : ℚ}
    (hcancel : c.world.isCancelled c.plan.sessionId = .ok false)
    (htime : c.world.control.isSessionTimedOut now = false) (E : Executor)
    (request : AgentRequest) : ∃ result, (c.loop E request now).phase = .returned result
      ∧ result.success = true ∧ (c.loop E request now).world.trace = c.world.trace := by
  obtain ⟨store, -, he⟩ := c.succeed_eq hsession
  have hloop : c.loop E request now = c.goTo store (.returned (c.result true none)) := by
    rw [← he]
    simp [loop, hcancel, htime, hpending]
  rw [hloop]
  exact ⟨_, rfl, rfl, rfl⟩

/-- After a call that returned with success, the same plan and request again: no tool of a step
that the first call left `SUCCESS` is called, and if the first call made no replan, the first round
of the loop returns with success before any tool is called. -/
theorem resubmission {E : Executor} {call again : Call} {tools : List String} {hist : List Event}
    {store : InMemoryStateStore} {c₀ c : Config} {result : ExecutionResult}
    (hplan : Planner.validatePlan call.plan tools = .ok ()) (hstore : Reachable hist store)
    (hstart : Executor.start call store = .ok c₀)
    (hrun : E.Runs call.request (fun _ => True) c₀ c) (hreturned : c.phase = .returned result)
    (hsuccess : result.success = true) (hagain : again.plan = call.plan) :
    ∃ d₀, Executor.start again c.world.store = .ok d₀
      ∧ (∀ d, E.Runs again.request (fun _ => True) d₀ d →
        ∀ id, c.world.store.Succeeded call.plan.sessionId id →
          ¬ Invoked d.world.trace call.plan.sessionId id)
      ∧ (c.replanCount = 0 → d₀.world.isCancelled call.plan.sessionId = .ok false →
        ∀ now, d₀.world.control.isSessionTimedOut now = false →
          ∃ d result', d₀.step E again.request (.loop now) = some d
            ∧ d.phase = .returned result' ∧ result'.success = true ∧ d.world.trace = []) := by
  obtain ⟨hs, hinv⟩ := hstore.start hstart False False
  have hreach := hstore.call hstart hrun (.inl ⟨result, hreturned⟩)
  obtain ⟨d₀, hd₀, hds, hdinv⟩ := start_inv again hreach.inv.1 (hreach.inv.2 _) False False
  have hcompleted := hds.completed
  rw [hagain] at hcompleted
  refine ⟨d₀, hd₀, fun d hd id hid => ?_, fun hcount hcancel now htime => ?_⟩
  · have := (hdinv.initial_not_invoked (fun id hid => (hds.completed id).mpr hid) hds.trace hd).2 id
    rw [hagain] at this
    exact this hid
  · have hnodup := (Planner.validatePlan_ok_iff.mp hplan).nodup
    have hc := (hstore.start hstart True False).2.runs (fun c hd => ⟨fun _ => hd, False.elim⟩)
      (hinv.runs_nodup hs.plan hnodup hrun hcount)
    have hpending : d₀.pendingSteps = [] := by
      refine List.eq_nil_iff_forall_not_mem.mpr fun step hmem => ?_
      rw [Config.mem_pendingSteps, hds.plan, hagain, ← hinv.plan_eq hs.plan hrun hcount] at hmem
      exact hmem.2 ((hcompleted _).mpr (hc.succeeded trivial _
        (hc.completed_of_returned hreturned hsuccess hmem.1)))
    have hsid : d₀.plan.sessionId = call.plan.sessionId := by rw [hds.plan, hagain]
    obtain ⟨result', hphase, hsucc, htrace⟩ := Config.loop_succeeds (hdinv.sessionId ▸
      hdinv.hasSession) hpending (hsid ▸ hcancel) htime E again.request
    refine ⟨_, result', ?_, hphase, hsucc, htrace.trans hds.trace⟩
    simp [Config.step, hds.phase]

theorem resubmission_after_retry :
    let call := sampleCall (samplePlan [sampleStep "a" []])
    let E := sampleExecutor 1 1
    ∃ c d₀ d : Config, Executor.start call c.world.store = .ok d₀
      ∧ d₀.step E call.request (.loop 0) = some d ∧ d.world.trace = [] := by
  intro call E
  have hq : ((Executor.start call {}).toOption.bind fun c => E.run call.request c
      (batchRound 1 (List.replicate 12 (Action.thread 0 { reply := .timeout })
        ++ List.replicate 11 (Action.thread 0 { reply := .returned .null }))
        ++ [Action.loop 0])).any (fun c => c.returns (·.success)
      && decide (c.replanCount = 0)
      && ((Executor.start call c.world.store).toOption.any fun d =>
        decide ((d.world.isCancelled "s").toOption = some false)
          && !d.world.control.isSessionTimedOut 0)) = true := by decide +kernel
  obtain ⟨c₀, c, hstart, hrun, hq⟩ := exists_of_run hq
  rw [Bool.and_eq_true, Bool.and_eq_true, decide_eq_true_eq] at hq
  obtain ⟨⟨hreturns, hcount⟩, hq⟩ := hq
  obtain ⟨result, hreturned, hsuccess⟩ := Config.exists_of_returns hreturns
  have haccepted : Planner.validatePlan call.plan ["t"] = .ok () := by decide +kernel
  obtain ⟨d₀, hd₀, -, hagain⟩ := resubmission haccepted .empty hstart (runs_of_run hrun) hreturned
    hsuccess (rfl : call.plan = call.plan)
  rw [hd₀] at hq
  obtain ⟨hcancelled, htime⟩ := Bool.and_eq_true_iff.mp hq
  rw [decide_eq_true_eq] at hcancelled
  rw [Bool.not_eq_true'] at htime
  obtain ⟨d, result', hstep, -, -, htrace⟩ :=
    hagain hcount (eq_ok_of_toOption hcancelled) 0 htime
  exact ⟨c, d₀, d, hd₀, hstep, htrace⟩

/-- A first call that succeeds only after its step was replanned: the same call again has the step
under its own id, which was left `FAILED`, and calls its tool. -/
theorem resubmission_after_replan :
    let call := sampleCall (samplePlan [sampleStep "a" []])
    let E := sampleExecutor 0 1
    Planner.validatePlan call.plan ["t"] = .ok ()
      ∧ ∃ c₀ c result d₀ d, Executor.start call {} = .ok c₀
        ∧ E.run call.request c₀ (batchRound 1 (exhaustThread 0) ++ batchRound 1 (succeedThread 0)
          ++ [Action.loop 0]) = some c
        ∧ c.phase = .returned result ∧ result.success = true
        ∧ Executor.start call c.world.store = .ok d₀
        ∧ E.run call.request d₀ (.loop 0 :: List.replicate 7 (.thread 0 {})) = some d
        ∧ d.world.isCancelled "s" = .ok false ∧ d.world.control.isSessionTimedOut 0 = false
        ∧ Invoked d.world.trace "s" "a" := by
  intro call E
  have hq : ((Executor.start call {}).toOption.bind fun c => E.run call.request c
      (batchRound 1 (exhaustThread 0) ++ batchRound 1 (succeedThread 0)
        ++ [Action.loop 0])).any (fun c => c.returns (·.success)
      && ((Executor.start call c.world.store).toOption.bind fun d =>
        E.run call.request d (.loop 0 :: List.replicate 7 (.thread 0 {}))).any (fun d =>
          decide ((d.world.isCancelled "s").toOption = some false)
            && !d.world.control.isSessionTimedOut 0 && decide (Invoked d.world.trace "s" "a")))
      = true := by decide +kernel
  obtain ⟨c₀, c, hstart, hrun, hq⟩ := exists_of_run hq
  rw [Bool.and_eq_true] at hq
  obtain ⟨result, hreturned, hsuccess⟩ := Config.exists_of_returns hq.1
  obtain ⟨d₀, d, hd₀, hagain, hq⟩ := exists_of_run hq.2
  simp only [Bool.and_eq_true, Bool.not_eq_true', decide_eq_true_eq] at hq
  obtain ⟨⟨hcancelled, htime⟩, hinvoked⟩ := hq
  exact ⟨by decide +kernel, c₀, c, result, d₀, d, hstart, hrun, hreturned, hsuccess, hd₀, hagain,
    eq_ok_of_toOption hcancelled, htime, hinvoked⟩

end AgentLearning
