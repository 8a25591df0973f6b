import AgentLearning.Proofs.Protocol
import AgentLearning.Proofs.Safety
import AgentLearning.Proofs.StoreInvariant

/-!
# Guards and steps in flight

Every call of a tool, in every run and under every plan version, is one whose guards have passed:
policy, approval token, and schema on the payload that is sent.

A guard that rejects ends the step as `FAILED`; one that raises does not. The exception goes
through the thread into the outcome of the batch, past every call that would settle the step, as
does one of the audit write. So a step whose tool is allowed and not registered stays `RUNNING`.
While nothing raises, every step a call has started is settled when it returns.
-/

namespace AgentLearning

open InMemoryStateStore Executor

/-! ## Guarded calls -/

theorem Executor.checkPolicy_none {E : Executor} {step : PlanStep} {request : AgentRequest}
    (h : E.checkPolicy step request = .ok none) : step.toolId ∈ request.allowedTools
      ∧ ∀ permission, E.policyEngine.permissionMap.get? step.toolId = some permission →
        permission.requiresApprovalToken = true → ∃ metadata, request.metadata = .obj metadata
          ∧ ((getEntry "approval_token" metadata).getD .null).truthy = true := by
  have hallowed : E.policyEngine.isToolAllowed step.toolId request = .ok true := by
    unfold checkPolicy at h
    rcases hp : E.policyEngine.isToolAllowed step.toolId request with x | (_ | _) <;>
      rw [hp] at h <;> cases h
  unfold ToolPolicyEngine.isToolAllowed at hallowed
  by_cases hmem : step.toolId ∈ request.allowedTools
  swap
  · simp [hmem] at hallowed
  refine ⟨hmem, fun permission hp hrequires => ?_⟩
  simp only [hmem, not_true_eq_false, if_false, hp, hrequires, Bool.not_true,
    Bool.false_eq_true] at hallowed
  rcases hm : request.metadata with _ | _ | _ | _ | _ | _ | metadata <;>
    simp only [hm, reduceCtorEq, Except.ok.injEq] at hallowed
  exact ⟨metadata, rfl, hallowed⟩

theorem Executor.checkSchema_none {E : Executor} {step : PlanStep} {payload : Json}
    (h : E.checkSchema step payload = .ok none) :
    ∃ path, E.toolRegistry.getSchemaPath step.toolId = .ok path
      ∧ E.validate path payload = none := by
  obtain ⟨path, hpath, ⟨hv, -⟩ | ⟨message, -, hrejected⟩⟩ := E.checkSchema_eq_ok h
  · exact ⟨path, hpath, hv⟩
  · cases hrejected

theorem buildPayloadWithContext_ok {context : ExecutionContext} {step : PlanStep} {payload : Json}
    (h : buildPayloadWithContext context step = .ok payload) :
    ∃ fields, step.payload = .obj fields ∧ payload = .obj (setEntry "runtime_context"
      (ContextManager.trimForTool context step.toolId) fields) := by
  unfold buildPayloadWithContext at h
  rcases hp : step.payload with _ | _ | _ | _ | _ | _ | fields <;> rw [hp] at h <;> cases h
  exact ⟨fields, rfl, rfl⟩

/-- A call of a tool that the protocol makes has passed its guards. -/
theorem Acts.logs_invoke {E : Executor} {a : StepArgs} {g g' : Ghost} {w w' : World}
    (h : Acts E a g w w' g') {sid : String} {step : PlanStep} {payload : Json}
    (hcall : .invoke sid step payload ∈ w'.trace.drop w.trace.length) :
    step = a.step ∧ Guarded E a.request a.context step payload := by
  cases h with
  | invoke hguard =>
    simp only [List.drop_left, List.mem_singleton, Event.invoke.injEq] at hcall
    obtain ⟨-, rfl, rfl⟩ := hcall
    exact ⟨rfl, hguard⟩
  | mark status es _ _ _ hes =>
    rw [List.drop_left] at hcall
    exact absurd hcall (hes _ _ _)
  | _ => simp at hcall

/-- In every run, from whatever earlier calls left and through every replan, a tool is called only
if the request allows it, with an approval token where the policy asks for one, and with a payload
that is the step's with the context at hand and that the tool's schema accepts. -/
theorem invoke_guarded {E : Executor} {call : Call} {hist : List Event}
    {store : InMemoryStateStore} {c₀ c c' : Config} {action : Action} {sid : String}
    {step : PlanStep} {payload : Json} (hstore : Reachable hist store)
    (hstart : Executor.start call store = .ok c₀)
    (hrun : E.Runs call.request (fun _ => True) c₀ c)
    (hstep : c.step E call.request action = some c')
    (hcall : .invoke sid step payload ∈ c.logged c') :
    step ∈ c.plan.steps ∧ step.toolId ∈ call.request.allowedTools
      ∧ (∀ permission, E.policyEngine.permissionMap.get? step.toolId = some permission →
        permission.requiresApprovalToken = true →
        ∃ metadata, call.request.metadata = .obj metadata
          ∧ ((getEntry "approval_token" metadata).getD .null).truthy = true)
      ∧ (∃ fields, step.payload = .obj fields ∧ payload = .obj (setEntry "runtime_context"
        (ContextManager.trimForTool c.context step.toolId) fields))
      ∧ ∃ path, E.toolRegistry.getSchemaPath step.toolId = .ok path
        ∧ E.validate path payload = none := by
  have hc := (hstore.start hstart False False).2.runs (fun c _ => c.meets_false E) hrun
  obtain ⟨hmanned, hfree⟩ := hstore.manned (upheld_true E _) hstart trivial
    (fun c action _ => c.admits_false E _ action) hrun.runsBy
  unfold Config.logged at hcall
  by_cases hthread : ∃ i answer, action = .thread i answer
  · obtain ⟨i, answer, rfl⟩ := hthread
    cases Config.takes_of_step hstep with
    | @thread threads results _ thread upd next hphase hi hprog _ =>
      obtain ⟨crew, hcrew⟩ := hmanned.exists_crew hphase
      have hready := Config.mem_readySteps.mp
        ((hc.batch hphase).mem_readySteps (List.mem_of_getElem? hi))
      obtain ⟨a, g, g', -, hastep, hrequest, hcontext, -, hact, -⟩ :=
        hcrew.act hi hprog answer (hc.entry_isSome hphase hi) hfree False.elim
      obtain ⟨rfl, hguard⟩ := hact.logs_invoke hcall
      rw [hrequest, hcontext] at hguard
      obtain ⟨htool, htoken⟩ := checkPolicy_none hguard.policy
      exact ⟨hastep ▸ hready.1.1, htool, htoken, buildPayloadWithContext_ok hguard.context,
        checkSchema_none hguard.schema⟩
  · push Not at hthread
    rw [hc.trace_eq hstep hthread] at hcall
    simp at hcall

theorem invoke_guarded_after_replan :
    let call := sampleCall (samplePlan [sampleStep "a" []])
    let E := sampleExecutor 0 1
    ∃ c₀ c c' step payload, Executor.start call {} = .ok c₀
      ∧ E.Runs call.request (fun _ => True) c₀ c
      ∧ c.step E call.request (.thread 0 {}) = some c'
      ∧ .invoke "s" step payload ∈ c.logged c' ∧ step.stepId = "a-replan-v2"
      ∧ step.toolId ∈ call.request.allowedTools := by
  intro call E
  have hq : ((Executor.start call {}).toOption.bind fun c => E.run call.request c
      (batchRound 1 (exhaustThread 0) ++ .loop 0 :: List.replicate 6 (Action.thread 0 {}))).any
      (Config.logsCall E call.request (.thread 0 {}) fun sid step =>
        sid = "s" && step.stepId = "a-replan-v2") = true := by decide +kernel
  obtain ⟨c₀, c, hstart, hrun, hq⟩ := exists_of_run hq
  obtain ⟨c', sid, step, payload, hstep, hcall, hr⟩ := Config.exists_of_logsCall hq
  rw [Bool.and_eq_true, decide_eq_true_eq, decide_eq_true_eq] at hr
  obtain ⟨rfl, hid⟩ := hr
  have hguarded := invoke_guarded .empty hstart (runs_of_run hrun) hstep hcall
  exact ⟨c₀, c, c', step, payload, hstart, runs_of_run hrun, hstep, hcall, hid, hguarded.2.1⟩

/-! ## Steps in flight -/

/-- A thread of this step owes a final status. -/
def Owed (ws : List (String × Ghost)) (id : String) : Prop := ∃ g, (id, g) ∈ ws ∧ g.owes = true

theorem Owed.set {ws : List (String × Ghost)} {i : ℕ} {x id : String} {g g' : Ghost}
    (hi : ws[i]? = some (x, g)) (hkeep : id = x → g.owes = true → g'.owes = true)
    (h : Owed ws id) : Owed (ws.set i (x, g')) id := by
  obtain ⟨g₁, hmem, howes⟩ := h
  obtain ⟨j, hj⟩ := List.mem_iff_getElem?.mp hmem
  by_cases hij : i = j
  · subst hij
    rw [hi] at hj
    cases hj
    exact ⟨g', List.mem_set (List.getElem?_eq_some_iff.mp hi).1 _, hkeep rfl howes⟩
  · exact ⟨g₁, List.mem_iff_getElem?.mpr ⟨j, by rw [List.getElem?_set_ne hij, hj]⟩, howes⟩

/-- How often a step of a session was started. -/
def InMemoryStateStore.attempts (σ : InMemoryStateStore) (sid id : String) : ℕ :=
  ((σ.step? sid id).map (·.attempts)).getD 0

/-- Every entry was not started since `before`, is settled, or some thread is at work on it. -/
structure Settles (sid : String) (before : String → ℕ) (σ : InMemoryStateStore)
    (ws : List (String × Ghost)) : Prop where
  absent : ∀ id, σ.step? sid id = none → before id = 0
  present : ∀ id step, σ.step? sid id = some step →
    step.attempts = before id ∨ step.status.settled = true ∨ Owed ws id

section Settles

variable {sid : String} {before : String → ℕ} {σ σ' : InMemoryStateStore}
  {ws ws' : List (String × Ghost)}

theorem settles_attempts (σ : InMemoryStateStore) (sid : String) :
    Settles sid (σ.attempts sid) σ [] where
  absent id h := by simp [attempts, h]
  present id step h := .inl (by simp [attempts, h])

theorem Settles.of_step_eq (h : Settles sid before σ ws)
    (hstep : ∀ id, σ'.step? sid id = σ.step? sid id) (hws : ∀ id, Owed ws id → Owed ws' id) :
    Settles sid before σ' ws' where
  absent id hid := h.absent id ((hstep id).symm.trans hid)
  present id step hid :=
    (h.present id step ((hstep id).symm.trans hid)).imp_right (.imp_right (hws id))

/-- New entries have not been started. -/
theorem Settles.registers (h : Settles sid before σ []) {t : String} {steps : List StepDict}
    (hr : Registers t steps σ σ') : Settles sid before σ' [] where
  absent id hid := by
    rcases hold : σ.step? sid id with _ | step
    · exact h.absent id hold
    · rw [hr.keep sid id step hold] at hid
      cases hid
  present id step hid := by
    rcases hold : σ.step? sid id with _ | old
    · obtain ⟨-, d, -, -, rfl⟩ := hr.fresh sid id step hold hid
      exact .inl (h.absent id hold).symm
    · rw [hr.keep sid id old hold] at hid
      cases hid
      exact h.present id step hold

theorem Settles.mainOp (h : Settles sid before σ []) (hop : MainOp σ σ') :
    Settles sid before σ' [] := by
  rcases hop.registers_or_step_eq with ⟨t, steps, hr⟩ | hstep
  · exact h.registers hr
  · exact h.of_step_eq (hstep sid) fun _ hid => hid

theorem Settles.act {E : Executor} {a : StepArgs} {g g' : Ghost} {w w' : World} {i : ℕ}
    (h : Settles a.plan.sessionId before w.store ws) (hi : ws[i]? = some (a.step.stepId, g))
    (hact : Acts E a g w w' g') :
    Settles a.plan.sessionId before w'.store (ws.set i (a.step.stepId, g')) := by
  cases hact with
  | read => exact h.of_step_eq (fun _ => rfl) fun id => Owed.set hi fun _ ho => ho
  | invoke _ => exact h.of_step_eq (fun _ => rfl) fun id => Owed.set hi fun _ ho => ho
  | build _ _ _ => exact h.of_step_eq (fun _ => rfl) fun id => Owed.set hi fun _ ho => ho
  | append _ hs =>
    exact h.of_step_eq (saveSnapshot_step_eq hs _) fun id => Owed.set hi fun _ ho => ho
  | mark status _ hf _ hs _ =>
    obtain ⟨step, hstep, hframe, hnew⟩ := modifyStep_ok hs
    refine ⟨fun id hid => h.absent id ?_, fun id step' hid => ?_⟩
    · have := hframe.isSome a.plan.sessionId id
      rw [hid] at this
      simpa using this.symm
    · by_cases hx : id = a.step.stepId
      · subst hx
        rw [hnew] at hid
        cases hid
        rw [hf step]
        cases hset : status.settled with
        | true => exact .inr (.inl rfl)
        | false =>
          exact .inr (.inr ⟨_, List.mem_set (List.getElem?_eq_some_iff.mp hi).1 _, rfl⟩)
      · rw [hframe.step _ id fun hp => hx hp.2] at hid
        exact (h.present id step' hid).imp_right
          (.imp_right fun ho => ho.set hi fun hid => absurd hid hx)

theorem upheld_settles (E : Executor) (sid : String) (before : String → ℕ) :
    Upheld E sid True False (Settles sid before) where
  act h hi hsid hact := by
    subst hsid
    exact h.act hi hact
  spawn h _ := h.of_step_eq (fun _ => rfl) fun _ ⟨_, hmem, _⟩ => by simp at hmem
  drop h hidle := by
    refine h.of_step_eq (fun _ => rfl) fun id ⟨g, hmem, howes⟩ => ?_
    have hg : g = {} := hidle trivial _ hmem
    rw [hg] at howes
    cases howes
  main h hop := h.mainOp hop
  cancel h hmark := h.of_step_eq (markCancelRequested_step_eq hmark sid) fun _ hid => hid

end Settles

/-- At the head of the loop, no check in front of a tool call raises for the steps to be run. -/
def Config.guardsHold (E : Executor) (request : AgentRequest) (c : Config) : Bool :=
  match c.phase with
  | .looping => c.runnableSteps.all fun step => !E.guardsRaise request c.context step
  | _ => true

/-- The audit write of the action, if it is one, does not raise. -/
def Action.audited : Action → Bool
  | .thread _ answer => answer.auditError.isNone
  | _ => true

theorem Config.admits_of_guardsHold {E : Executor} {request : AgentRequest} {c : Config}
    {action : Action} (hguards : c.guardsHold E request = true) (haudit : action.audited = true) :
    c.Admits E request True False action where
  nodup := False.elim
  guards _ hphase step hs := by
    rw [guardsHold, hphase] at hguards
    simpa using List.all_eq_true.mp hguards step hs
  audit _ i answer he := by
    subst he
    simpa [Action.audited] using haudit

/-- In a run in which no check in front of a tool call raises and no audit write does, every step
that was started is `SUCCESS`, `FAILED` or `CANCELED` when the call returns. -/
theorem started_settled {E : Executor} {call : Call} {hist : List Event}
    {store : InMemoryStateStore} {c₀ c : Config} {result : ExecutionResult}
    (hstore : Reachable hist store) (hstart : Executor.start call store = .ok c₀)
    (hrun : E.RunsBy call.request
      (fun c action => c.guardsHold E call.request = true ∧ action.audited = true) c₀ c)
    (hreturned : c.phase = .returned result) :
    ∀ id step, c.world.store.step? call.plan.sessionId id = some step →
      store.attempts call.plan.sessionId id < step.attempts →
      step.status = .success ∨ step.status = .failed ∨ step.status = .canceled := by
  have hmanned := (hstore.manned
    (upheld_settles E call.plan.sessionId (store.attempts call.plan.sessionId)) hstart
    (settles_attempts store _) (fun c action h => Config.admits_of_guardsHold h.1 h.2) hrun).1
  unfold Manned at hmanned
  rw [hreturned] at hmanned
  intro id step hstep hstarted
  rcases hmanned.present id step hstep with heq | hsettled | ⟨g, hmem, -⟩
  · omega
  · cases hstatus : step.status <;> simp_all [ExecutionStatus.settled]
  · simp at hmem

/-- The actions of a batch of one thread whose step's guards reject. -/
def rejectRound : List Action := batchRound 1 (List.replicate 8 (Action.thread 0 {}))

theorem started_settled_denied :
    let call := { sampleCall (samplePlan [sampleStep "a" []]) with
      request := { requestId := "r1", sessionId := "s", userInput := "u", allowedTools := [] } }
    let E := sampleExecutor 0 1
    ∃ c₀ c step, Executor.start call {} = .ok c₀ ∧ E.RunsBy call.request
        (fun c action => c.guardsHold E call.request = true ∧ action.audited = true) c₀ c
      ∧ c.world.store.step? "s" "a" = some step ∧ 0 < step.attempts
      ∧ (step.status = .success ∨ step.status = .failed ∨ step.status = .canceled) := by
  intro call E
  have hq : ((Executor.start call {}).toOption.bind fun c => E.runWhile call.request
      (Config.guardsHold E call.request) c rejectRound).any (fun c => c.returns (fun _ => true)
        && (c.world.store.step? "s" "a").any (0 < ·.attempts)) = true := by decide +kernel
  obtain ⟨c₀, c, hstart, hrun, hq⟩ := exists_of_start hq
  rw [Bool.and_eq_true] at hq
  obtain ⟨result, hreturned, -⟩ := Config.exists_of_returns hq.1
  obtain ⟨step, hstep, hattempts⟩ := (Option.any_eq_true _ _).mp hq.2
  rw [decide_eq_true_eq] at hattempts
  have hruns := runsBy_of_runWhile (q := Action.audited) hrun (by decide)
  exact ⟨c₀, c, step, hstart, hruns, hstep, hattempts,
    started_settled .empty hstart hruns hreturned "a" step hstep hattempts⟩

/-- An accepted plan whose tool the request allows and the registry does not know: the lookup of
the schema raises, and the call returns with the step `RUNNING`. -/
theorem unknown_tool_left_running :
    let call := sampleCall (samplePlan [sampleStep "a" []])
    let E := { sampleExecutor 0 0 with toolRegistry := {} }
    Planner.validatePlan call.plan call.request.allowedTools = .ok ()
      ∧ ∃ c₀ c result step, Executor.start call {} = .ok c₀
        ∧ E.run call.request c₀ (batchRound 1 (List.replicate 5 (Action.thread 0 {}))) = some c
        ∧ c.phase = .returned result ∧ c.world.store.step? "s" "a" = some step
        ∧ 0 < step.attempts ∧ step.status = .running := by
  intro call E
  have hq : ((Executor.start call {}).toOption.bind fun c => E.run call.request c
      (batchRound 1 (List.replicate 5 (Action.thread 0 {})))).any
      (fun c => c.returns (fun _ => true) && (c.world.store.step? "s" "a").any fun step =>
        0 < step.attempts && step.status = .running) = true := by decide +kernel
  obtain ⟨c₀, c, hstart, hrun, hq⟩ := exists_of_run hq
  rw [Bool.and_eq_true] at hq
  obtain ⟨result, hreturned, -⟩ := Config.exists_of_returns hq.1
  obtain ⟨step, hstep, hq⟩ := (Option.any_eq_true _ _).mp hq.2
  rw [Bool.and_eq_true, decide_eq_true_eq, decide_eq_true_eq] at hq
  exact ⟨by decide +kernel, c₀, c, result, step, hstart, hrun, hreturned, hstep, hq⟩

end AgentLearning
