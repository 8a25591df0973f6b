import AgentLearning.Proofs.ReplanIds
import AgentLearning.Proofs.Run
import AgentLearning.Proofs.Validate

/-!
# Dependencies and repeated calls

Over whole runs, whatever earlier calls left in the session: while the ids of the plan at hand are
distinct, a tool is called only when every dependency of its step is `SUCCESS` in the store; if
also no fold loses a success, no tool is called again after its step was marked.

Both conditions can fail on an accepted plan. A replan gives a step an id that another step may
have had from the start, and then two threads work on one entry; this takes an id with the marker
of a replan in the submitted plan. And a batch is folded only up to its first failure, so that the
successes after it are run again under the next plan version.
-/

namespace AgentLearning

open InMemoryStateStore Executor

/-! ## Distinct ids -/

theorem Inv.runs_freshIds {call : Call} {hist : List Event} {initial : String → Prop}
    {E : Executor} {c₀ c : Config} (h₀ : Inv call hist initial False False c₀)
    (hfresh : Replanner.FreshIds c₀.plan) (hrun : E.Runs call.request (fun _ => True) c₀ c) :
    Replanner.FreshIds c.plan ∧ E.Runs call.request (fun c => c.plan.stepIds.Nodup) c₀ c := by
  refine h₀.runs_induction (Q := fun c => Replanner.FreshIds c.plan
    ∧ E.Runs call.request (fun c => c.plan.stepIds.Nodup) c₀ c) (fun c _ => c.meets_false E)
    ⟨hfresh, .refl⟩ ?_ hrun
  intro c c' action hc _ hs ih
  refine ⟨?_, .tail ih.2 ⟨ih.1.nodup, action, hs⟩⟩
  rcases (hc.plan_or_replan hs).2 with ⟨hp, -⟩ | ⟨-, -, hr⟩
  · rw [hp]
    exact ih.1
  · exact ih.1.replans hr

/-- A call with an accepted plan, none of whose ids has the marker of a replan, runs through plans
with distinct ids only. -/
theorem runs_nodup_of_not_hasMarker {E : Executor} {call : Call} {tools : List String}
    {hist : List Event} {store : InMemoryStateStore} {c₀ c : Config}
    (hplan : Planner.validatePlan call.plan tools = .ok ())
    (hplain : ∀ x ∈ call.plan.stepIds, ¬ Replanner.hasMarker x) (hstore : Reachable hist store)
    (hstart : Executor.start call store = .ok c₀)
    (hrun : E.Runs call.request (fun _ => True) c₀ c) :
    E.Runs call.request (fun c => c.plan.stepIds.Nodup) c₀ c := by
  obtain ⟨hs, hinv⟩ := hstore.start hstart False False
  refine (hinv.runs_freshIds ?_ hrun).2
  rw [hs.plan]
  exact Replanner.freshIds_of_not_hasMarker (Planner.validatePlan_ok_iff.mp hplan).nodup hplain

/-! ## Dependencies -/

/-- The events the action that leads from the one state to the other logged. -/
def Config.logged (c c' : Config) : List Event := c'.world.trace.drop c.world.trace.length

/-- The action logs a call of a step's tool that passes the check. -/
def Config.logsCall (E : Executor) (request : AgentRequest) (action : Action)
    (r : String → PlanStep → Bool) (c : Config) : Bool :=
  (c.step E request action).any fun c' => (c.logged c').any fun
    | .invoke sid step _ => r sid step
    | _ => false

theorem Config.exists_of_logsCall {E : Executor} {request : AgentRequest} {action : Action}
    {r : String → PlanStep → Bool} {c : Config} (h : c.logsCall E request action r = true) :
    ∃ c' sid step payload, c.step E request action = some c'
      ∧ .invoke sid step payload ∈ c.logged c' ∧ r sid step = true := by
  obtain ⟨c', hs, h⟩ := (Option.any_eq_true _ _).mp h
  obtain ⟨e, he, hr⟩ := List.any_eq_true.mp h
  cases e with
  | invoke sid step payload => exact ⟨c', sid, step, payload, hs, he, hr⟩
  | markStepSuccess _ _ _ => cases hr

/-- In a run through plans with distinct ids, from whatever earlier calls left, every call of a
tool finds the dependencies of its step `SUCCESS`. -/
theorem invoke_dependencies_succeeded {E : Executor} {call : Call} {hist : List Event}
    {store : InMemoryStateStore} {c₀ c c' : Config} {action : Action} {sid : String}
    {step : PlanStep} {payload : Json} (hstore : Reachable hist store)
    (hstart : Executor.start call store = .ok c₀)
    (hrun : E.Runs call.request (fun c => c.plan.stepIds.Nodup) c₀ c)
    (hstep : c.step E call.request action = some c')
    (hcall : .invoke sid step payload ∈ c.logged c') :
    sid = call.plan.sessionId ∧ step ∈ c.plan.steps
      ∧ ∀ d ∈ step.dependsOn, c.world.store.Succeeded sid d := by
  have hc := (hstore.start hstart True False).2.runs (fun c hd => ⟨fun _ => hd, False.elim⟩) hrun
  unfold Config.logged at hcall
  by_cases hthread : ∃ i answer, action = .thread i answer
  · obtain ⟨i, answer, rfl⟩ := hthread
    obtain ⟨a, hplan, hready, hmove⟩ := hc.moves hstep
    obtain ⟨rfl, rfl, hclear⟩ := hmove.logs_invoke hcall
    exact ⟨hplan ▸ hc.sessionId, (Config.mem_readySteps.mp hready).1.1,
      (hclear trivial).dependsOn⟩
  · push Not at hthread
    rw [hc.trace_eq hstep hthread] at hcall
    simp at hcall

theorem invoke_dependencies_succeeded_chain :
    let call := sampleCall (samplePlan [sampleStep "a" [], sampleStep "b" ["a"]])
    ∃ c₀ c, Executor.start call {} = .ok c₀
      ∧ (sampleExecutor 0 1).Runs call.request (fun c => c.plan.stepIds.Nodup) c₀ c
      ∧ c.world.store.Succeeded "s" "a" := by
  intro call
  have hq : ((Executor.start call {}).toOption.bind fun c =>
      (sampleExecutor 0 1).runWhile call.request (fun c => decide c.plan.stepIds.Nodup) c
        (batchRound 1 (succeedThread 0) ++ .loop 0 :: List.replicate 6 (Action.thread 0 {}))).any
      (Config.logsCall (sampleExecutor 0 1) call.request (.thread 0 {}) fun sid step =>
        sid = "s" && step.dependsOn = ["a"]) = true := by decide +kernel
  obtain ⟨c₀, c, hstart, hrun, hq⟩ := exists_of_runWhile hq
  obtain ⟨c', sid, step, payload, hstep, hcall, hr⟩ := Config.exists_of_logsCall hq
  rw [Bool.and_eq_true, decide_eq_true_eq, decide_eq_true_eq] at hr
  have hruns := hrun.mono (Q := fun c => c.plan.stepIds.Nodup) fun c hc => of_decide_eq_true hc
  have := (invoke_dependencies_succeeded .empty hstart hruns hstep hcall).2.2 "a"
    (by simp [hr.2])
  exact ⟨c₀, c, hstart, hruns, hr.1 ▸ this⟩

/-- Both steps of the first batch fail. In the second one thread looks for its key before the
other marks it, and fails after that. -/
def collisionActions : List Action :=
  batchRound 2 (exhaustThread 0 ++ exhaustThread 1) ++ [Action.loop 0, .thread 1 {}]
    ++ succeedThread 0
    ++ List.replicate 14 (Action.thread 1 {}) ++ [Action.collect 1, .collect 0, .fold, .loop 0]
    ++ List.replicate 6 (Action.thread 0 {})

/-- An accepted plan with a step `a` and a step that has the id `a` is given by its replan. The
two threads of that id end in success and in failure; the result picked up last counts for both
and the status marked last stays, so the step behind them runs while its dependency is `FAILED`. -/
theorem invoke_after_id_collision :
    let call := sampleCall (samplePlan [sampleStep "a" [], sampleStep "a-replan-v2" [],
      sampleStep "d" ["a-replan-v2"]])
    let E := sampleExecutor 0 1
    Planner.validatePlan call.plan ["t"] = .ok ()
      ∧ ∃ c₀ c c' step payload, Executor.start call {} = .ok c₀
        ∧ E.run call.request c₀ collisionActions = some c
        ∧ c.step E call.request (.thread 0 {}) = some c'
        ∧ .invoke "s" step payload ∈ c.logged c' ∧ "a-replan-v2" ∈ step.dependsOn
        ∧ ¬ c.world.store.Succeeded "s" "a-replan-v2" := by
  intro call E
  have hq : ((Executor.start call {}).toOption.bind fun c =>
      E.run call.request c collisionActions).any
      (fun c => decide (¬ c.world.store.Succeeded "s" "a-replan-v2")
        && c.logsCall E call.request (.thread 0 {}) fun sid step =>
          sid = "s" && "a-replan-v2" ∈ step.dependsOn) = true := by decide +kernel
  obtain ⟨c₀, c, hstart, hrun, hq⟩ := exists_of_run hq
  rw [Bool.and_eq_true, decide_eq_true_eq] at hq
  obtain ⟨c', sid, step, payload, hstep, hcall, hr⟩ := Config.exists_of_logsCall hq.2
  rw [Bool.and_eq_true, decide_eq_true_eq, decide_eq_true_eq] at hr
  obtain ⟨rfl, hdep⟩ := hr
  exact ⟨by decide +kernel, c₀, c, c', step, payload, hstart, hrun, hstep, hcall, hdep, hq.1⟩

/-! ## Repeated calls -/

/-- In a run through plans with distinct ids in which no fold loses a success, no tool is called
after the success of its step was marked. -/
theorem noRepeat_of_keepsSuccesses {E : Executor} {call : Call} {hist : List Event}
    {store : InMemoryStateStore} {c₀ c : Config} (hstore : Reachable hist store)
    (hstart : Executor.start call store = .ok c₀)
    (hrun : E.Runs call.request
      (fun c => c.plan.stepIds.Nodup ∧ c.keepsSuccesses E = true) c₀ c) :
    NoRepeat c.world.trace := by
  have hc := (hstore.start hstart True True).2.runs
    (fun c hc => ⟨fun _ => hc.1, fun _ => hc.2⟩) hrun
  exact hc.noRepeat trivial trivial

theorem noRepeat_after_failure_last :
    let call := sampleCall (samplePlan [sampleStep "a" [], sampleStep "b" []])
    ∃ c₀ c, Executor.start call {} = .ok c₀
      ∧ (sampleExecutor 0 1).Runs call.request (fun c => c.plan.stepIds.Nodup
        ∧ c.keepsSuccesses (sampleExecutor 0 1) = true) c₀ c
      ∧ c.replanCount = 1 ∧ NoRepeat c.world.trace := by
  intro call
  have hq : ((Executor.start call {}).toOption.bind fun c =>
      (sampleExecutor 0 1).runWhile call.request
        (fun c => decide c.plan.stepIds.Nodup && c.keepsSuccesses (sampleExecutor 0 1)) c
        (batchRound 2 (succeedThread 0 ++ exhaustThread 1) ++ batchRound 1 (succeedThread 0)
          ++ [Action.loop 0])).any (fun c => c.replanCount = 1) = true := by
    decide +kernel
  obtain ⟨c₀, c, hstart, hrun, hq⟩ := exists_of_runWhile hq
  have hruns := hrun.mono (Q := fun c => c.plan.stepIds.Nodup
    ∧ c.keepsSuccesses (sampleExecutor 0 1) = true) fun c hc => by simpa using hc
  exact ⟨c₀, c, hstart, hruns, of_decide_eq_true hq,
    noRepeat_of_keepsSuccesses .empty hstart hruns⟩

def lostSuccessActions : List Action :=
  batchRound 2 (exhaustThread 0 ++ succeedThread 1)
    ++ batchRound 2 (succeedThread 0 ++ succeedThread 1) ++ [Action.loop 0]

/-- An accepted plan of two independent steps: the first times out and is replanned, and the
success of the second, behind it in the batch, is lost; its tool is called again. -/
theorem repeat_after_lost_success :
    let call := sampleCall (samplePlan [sampleStep "a" [], sampleStep "b" []])
    let E := sampleExecutor 0 1
    Planner.validatePlan call.plan ["t"] = .ok ()
      ∧ ∃ c₀ c, Executor.start call {} = .ok c₀
        ∧ E.run call.request c₀ lostSuccessActions = some c
        ∧ ¬ NoRepeat c.world.trace := by
  intro call E
  have hq : ((Executor.start call {}).toOption.bind fun c =>
      E.run call.request c lostSuccessActions).any
      (fun c => decide (¬ NoRepeat c.world.trace)) = true := by decide +kernel
  obtain ⟨c₀, c, hstart, hrun, hq⟩ := exists_of_run hq
  exact ⟨by decide +kernel, c₀, c, hstart, hrun, of_decide_eq_true hq⟩

end AgentLearning
