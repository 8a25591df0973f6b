import AgentLearning.Proofs.Protocol
import AgentLearning.Proofs.Safety
import AgentLearning.Proofs.Termination

/-!
# Hand-off to a human

A step that ends with one of three error codes is for a human: the replanner does not replan it,
and the fold that meets it first ends the call. Its batch is folded in the order of the plan, and a
failure before it may be replanned; the fold then breaks off, the outcome behind it is lost, and
the next plan version runs the step again. While no fold loses a hand-off, the step is the end of
the call: nothing is replanned, its tool is not called again, and the call returns without success.
-/

namespace AgentLearning

open InMemoryStateStore Executor

/-- The error codes that are handed to a human. -/
def handoffCodes : List String :=
  ["permission_denied", "schema_validation_error", "invalid_business_input"]

def ToolResult.handsOff (result : ToolResult) : Bool := result.error.any (·.code ∈ handoffCodes)

theorem Executor.replanAfterFailure_handsOff {E : Executor} {plan : ExecutionPlan}
    {step : PlanStep} {result : ToolResult} {k : ℕ} (h : result.handsOff = true) :
    E.replanAfterFailure plan step result.error k = .ok none := by
  obtain ⟨error, he, hcode⟩ := (Option.any_eq_true _ _).mp h
  have hdecision : (Replanner.buildDecision result.error "step_failed").shouldReplan = false := by
    rw [decide_eq_true_eq, handoffCodes] at hcode
    rw [he, Replanner.buildDecision]
    simp only [Option.map_some, Option.getD_some]
    rw [if_pos hcode]
  unfold replanAfterFailure
  by_cases hmay : E.mayReplan k
  · simp [hmay, Replanner.replanAfterFailure, hdecision, bind, Except.bind, pure, Except.pure]
  · simp [hmay]

/-- If the batch at hand is ready to be folded, its outcomes pass the check. -/
def Config.foldMeets (c : Config) (p : List StepOutcome → Bool) : Bool :=
  match c.phase with
  | .batch threads results =>
    match threads.all (·.collected), Config.orderedResults results threads with
    | true, .ok os => p os
    | _, _ => true
  | _ => true

/-- The ids of the plan at hand are distinct, and if the batch is ready to be folded, no hand-off
stands behind a failure that is replanned. -/
def Config.keepsHandoffs (E : Executor) (c : Config) : Bool :=
  decide c.plan.stepIds.Nodup && c.foldMeets fun os => !c.loses E (·.result.handsOff) os

/-! ## The batch of a hand-off -/

/-- A thread of the step has ended with this result. -/
def HasEnded (threads : List Thread) (id : String) (result : ToolResult) : Prop :=
  ∃ (i : ℕ) (thread : Thread), threads[i]? = some thread ∧ thread.step.stepId = id
    ∧ thread.result? = some result

/-- The call waits for the rest of a batch of these steps, one of which has ended with this result;
its threads and their futures can take `k` more actions. -/
def Config.Waits (c : Config) (steps : List PlanStep) (id : String) (result : ToolResult)
    (k : ℕ) : Prop :=
  ∃ threads results, c.phase = .batch threads results ∧ threads.map Thread.step = steps
    ∧ HasEnded threads id result ∧ Budgeted (fun _ _ => 1) 1 threads k

/-- No tool of the step is called among these events. -/
def NotCalled (id : String) (es : List Event) : Prop :=
  ∀ sid step payload, .invoke sid step payload ∈ es → step.stepId ≠ id

section Batch

variable {E : Executor} {call : Call} {hist : List Event} {initial : String → Prop}
  {solo clean : Prop} {c c' : Config} {threads : List Thread}
  {results : Dict String StepOutcome} {id : String} {result : ToolResult} {i : ℕ}
  {thread : Thread}

/-- A thread that has ended is not one that goes on. -/
theorem ne_of_result? {j : ℕ} {ended : Thread} (hi : threads[i]? = some thread)
    (hnot : thread.result? = none) (hj : threads[j]? = some ended)
    (hres : ended.result? = some result) : i ≠ j := by
  rintro rfl
  rw [hi] at hj
  cases hj
  rw [hnot] at hres
  cases hres

theorem HasEnded.set (h : HasEnded threads id result) (hi : threads[i]? = some thread)
    (hnot : thread.result? = none) (new : Thread) : HasEnded (threads.set i new) id result := by
  obtain ⟨j, t, hj, hid, hres⟩ := h
  have hij : i ≠ j := ne_of_result? hi hnot hj hres
  exact ⟨j, t, by rw [List.getElem?_set_ne hij, hj], hid, hres⟩

theorem HasEnded.collect (h : HasEnded threads id result) (hi : threads[i]? = some thread) :
    HasEnded (threads.set i { thread with collected := true }) id result := by
  obtain ⟨j, t, hj, hid, hres⟩ := h
  by_cases hij : i = j
  · subst hij
    rw [hi] at hj
    cases hj
    exact ⟨i, _, List.getElem?_set_self (List.getElem?_eq_some_iff.mp hi).1, hid, hres⟩
  · exact ⟨j, t, by rw [List.getElem?_set_ne hij, hj], hid, hres⟩

/-- With distinct ids the outcome picked up for the step is that of its thread. -/
theorem HasEnded.outcome (h : HasEnded threads id result)
    (hb : Batch call hist solo clean c threads results) (hd : c.plan.stepIds.Nodup)
    {o : StepOutcome} (ho : results.get? id = some o) : o.result = result := by
  obtain ⟨j, t, hj, hid, hres⟩ := h
  obtain ⟨t', ht', -, hstep, hoid, hres'⟩ := hb.outcome id o ho
  obtain ⟨j', hj'⟩ := List.mem_iff_getElem?.mp ht'
  by_cases hjj : j = j'
  · subst hjj
    rw [hj] at hj'
    cases hj'
    rw [hres] at hres'
    exact (Option.some.inj hres').symm
  · exact absurd (by rw [hid, hstep, hoid]) (hb.ne_of_ne hd hj hj' hjj)

/-- The fold of a batch with a hand-off, which it does not lose, ends the call. -/
theorem Inv.fold_handsOff (h : Inv call hist initial solo clean c)
    (hd : c.plan.stepIds.Nodup) (hphase : c.phase = .batch threads results)
    (hended : HasEnded threads id result) (hoff : result.handsOff = true)
    (hconsistent : result.Consistent) {os : List StepOutcome}
    (hos : Config.orderedResults results threads = .ok os) (hall : threads.all (·.collected))
    (hkeeps : c.loses E (·.result.handsOff) os = false) :
    (Config.foldOutcomes E c os).plan = c.plan
      ∧ ∃ r, (Config.foldOutcomes E c os).phase = .returned r ∧ r.success = false := by
  have hb := h.batch hphase
  obtain ⟨-, hto⟩ := h.outcomes hphase hall hos
  have hfailed : result.success = false := by
    by_contra hs
    rw [Bool.not_eq_false] at hs
    simp [ToolResult.handsOff, hconsistent hs] at hoff
  obtain ⟨o, ho, hores⟩ : ∃ o ∈ os, o.result = result := by
    have hended' := hended
    obtain ⟨j, t, hj, hid, -⟩ := hended'
    obtain ⟨o, ho, hget⟩ := hto t (List.mem_of_getElem? hj)
    exact ⟨o, ho, hended.outcome hb hd (hid ▸ hget)⟩
  have hfold := h.foldStep hphase hall hos E
  generalize Config.foldOutcomes E c os = c₁ at hfold
  cases hfold with
  | completed hsucc => simp [← hores, hsucc o ho] at hfailed
  | @replanned done rest o' outcome store hsplit hdone ho' hreplan _ _ =>
    rw [hsplit, List.mem_append, List.mem_cons] at ho
    rcases ho with ho | rfl | ho
    · simp [← hores, hdone o ho] at hfailed
    · rw [replanAfterFailure_handsOff (hores ▸ hoff)] at hreplan
      cases hreplan
    · have := Config.loses_append ho' hreplan hdone (hsplit ▸ hkeeps) o ho
      simp [hores, hoff] at this
  | failed _ _ _ _ _ => exact ⟨by simp [Config.goTo, Config.record], _, rfl, rfl⟩

theorem Config.foldMeets_eq (hphase : c.phase = .batch threads results)
    (hall : threads.all (·.collected)) {os : List StepOutcome}
    (hos : Config.orderedResults results threads = .ok os) (p : List StepOutcome → Bool) :
    c.foldMeets p = p os := by
  simp [foldMeets, hphase, hall, hos]

/-- An action in such a batch leaves it waiting, with one action less to take, or ends the call. -/
theorem Inv.waits_step (h : Inv call hist initial False False c)
    (hkeeps : c.keepsHandoffs E = true) {steps : List PlanStep} {k : ℕ}
    (hwaits : c.Waits steps id result k) (hoff : result.handsOff = true)
    (hconsistent : result.Consistent) {action : Action}
    (hstep : c.step E call.request action = some c') :
    c'.plan = c.plan ∧ (∃ es, c'.world.trace = c.world.trace ++ es ∧ NotCalled id es)
      ∧ ((∃ k', c'.Waits steps id result k'
          ∧ (if action.internal then 1 else 0) + k' ≤ k)
        ∨ ∃ r, c'.phase = .returned r ∧ r.success = false) := by
  obtain ⟨threads, results, hphase, hsteps, hended, hbudget⟩ := hwaits
  have hb := h.batch hphase
  rw [Config.keepsHandoffs, Bool.and_eq_true, decide_eq_true_eq] at hkeeps
  have hnone : ∃ es, c.world.trace = c.world.trace ++ es ∧ NotCalled id es :=
    ⟨[], by simp, by simp [NotCalled]⟩
  cases Config.takes_of_step hstep with
  | loop hphase' now =>
    rw [hphase] at hphase'
    cases hphase'
  | @thread threads' results' i thread upd next hphase' hi hprog answer =>
    rw [hphase] at hphase'
    cases hphase'
    have hnot : thread.result? = none := by simp [Thread.result?, hprog]
    obtain ⟨k', hk', hset⟩ := hbudget.thread hi hprog answer c.world
    refine ⟨rfl, ?_, .inl ⟨k', ⟨_, results, rfl, (map_set_eq hi (by rfl)).trans hsteps,
      hended.set hi hnot _, hset⟩, hk'⟩⟩
    obtain ⟨a, hplan, hastep, hsafe⟩ := hb.safe i thread hi
    rw [hprog] at hsafe
    obtain ⟨es, he, hes⟩ := (hsafe c.world (Std.Refl.refl _) answer).1.trace
    refine ⟨es, he, fun sid step payload hmem => ?_⟩
    obtain ⟨j, t, hj, hid, hres⟩ := hended
    have hij : i ≠ j := ne_of_result? hi hnot hj hres
    have hstepId : step.stepId = a.step.stepId := (hes _ hmem).2
    rw [hstepId, hastep, ← hid]
    exact hb.ne_of_ne hkeeps.1 hi hj hij
  | collect hphase' hi hcol hres =>
    rw [hphase] at hphase'
    cases hphase'
    obtain ⟨k', hk', hset⟩ := hbudget.collect hi hcol
    exact ⟨rfl, hnone, .inl ⟨k', ⟨_, _, rfl, (map_set_eq hi (by rfl)).trans hsteps,
      hended.collect hi, hset⟩, hk'⟩⟩
  | fold hphase' hall hos =>
    rw [hphase] at hphase'
    cases hphase'
    have hlose := hkeeps.2
    rw [Config.foldMeets_eq hphase hall hos, Bool.not_eq_true'] at hlose
    obtain ⟨hplan, hreturned⟩ :=
      h.fold_handsOff hkeeps.1 hphase hended hoff hconsistent hos hall hlose
    refine ⟨hplan, ?_, .inr hreturned⟩
    rw [h.trace_eq hstep (by simp)]
    exact hnone
  | foldRaises hphase' hall hos =>
    rw [hphase] at hphase'
    cases hphase'
    exact absurd hos (h.orderedResults_ne_error hphase hall _)
  | requestCancel _ =>
    exact ⟨rfl, hnone, .inl ⟨k, ⟨threads, results, hphase, hsteps, hended, hbudget⟩,
      (Nat.zero_add k).le⟩⟩
  | markCancelRequested _ _ =>
    exact ⟨rfl, hnone, .inl ⟨k, ⟨threads, results, hphase, hsteps, hended, hbudget⟩,
      (Nat.zero_add k).le⟩⟩

end Batch

/-! ## Runs -/

section Runs

variable {E : Executor} {call : Call} {hist : List Event} {initial : String → Prop}
  {c₀ c : Config} {id : String} {result : ToolResult}

/-- The threads of a batch have only so many actions left. -/
theorem Inv.budgeted (h₀ : Inv call hist initial False False c₀) (hphase₀ : c₀.phase = .looping)
    (hrun : E.Runs call.request (fun _ => True) c₀ c) : ∀ threads results,
      c.phase = .batch threads results → ∃ k, Budgeted (fun _ _ => 1) 1 threads k := by
  refine h₀.runs_induction (Q := fun c => ∀ threads results, c.phase = .batch threads results →
    ∃ k, Budgeted (fun _ _ => 1) 1 threads k) (fun c _ => c.meets_false E)
    (fun threads results hphase => by rw [hphase₀] at hphase; cases hphase) ?_ hrun
  intro c c' action hc _ hs ih threads results hphase'
  cases Config.takes_of_step hs with
  | loop hphase now =>
    have hloop := c.loop_step (E := E) (hc.sessionId ▸ hc.hasSession) call.request now
    generalize c.loop E call.request now = c₁ at hloop hphase'
    cases hloop with
    | batch _ =>
      cases hphase'
      exact ⟨_, budgeted_map (b := E.stepCost 1 1)
        (fun step => bounded_executeSingleStep priced_one E _) (fun _ => rfl) c.runnableSteps⟩
    | _ => cases hphase'
  | thread hphase hi hprog answer =>
    cases hphase'
    obtain ⟨k, hk⟩ := ih _ _ hphase
    obtain ⟨k', -, hk'⟩ := hk.thread hi hprog answer c.world
    exact ⟨k', hk'⟩
  | collect hphase hi hcol _ =>
    cases hphase'
    obtain ⟨k, hk⟩ := ih _ _ hphase
    obtain ⟨k', -, hk'⟩ := hk.collect hi hcol
    exact ⟨k', hk'⟩
  | @fold threads' results' os hphase hall hos =>
    have hfold := hc.foldStep hphase hall hos E
    generalize Config.foldOutcomes E c os = c₁ at hfold hphase'
    cases hfold <;> cases hphase'
  | foldRaises _ _ _ => cases hphase'
  | requestCancel _ => exact ih _ _ hphase'
  | markCancelRequested _ _ => exact ih _ _ hphase'

/-- What a finished thread hands over is consistent. -/
theorem ThreadFollows.consistent {request : AgentRequest} {strict : Prop} {thread : Thread}
    {g : Ghost} (h : ThreadFollows E request strict c thread g)
    (hres : thread.result? = some result) : result.Consistent := by
  obtain ⟨control, hfollows⟩ := h
  unfold Thread.result? at hres
  rcases hp : thread.prog with r | x | ⟨upd, next⟩ <;> rw [hp] at hres hfollows <;> cases hres
  · exact hfollows.2
  · exact ToolResult.consistent_of_failure rfl

/-- After the call has returned only cancel requests are taken, and they leave what it returned. -/
theorem runWhile_returned {request : AgentRequest} {p : Config → Bool} {r : ExecutionResult} :
    ∀ {actions : List Action} {c d : Config}, c.phase = .returned r →
      E.runWhile request p c actions = some d → (actions.filter Action.internal).length = 0
        ∧ d.plan = c.plan ∧ d.world.trace = c.world.trace ∧ d.phase = .returned r
  | [], c, d, hphase, hrun => by
    cases hrun
    exact ⟨rfl, rfl, rfl, hphase⟩
  | action :: actions, c, d, hphase, hrun => by
    rw [runWhile] at hrun
    split_ifs at hrun with hp
    rcases hs : c.step E request action with _ | c₁ <;> rw [hs] at hrun
    · cases hrun
    have hquiet : action.internal = false ∧ c₁.plan = c.plan ∧ c₁.world.trace = c.world.trace
        ∧ c₁.phase = .returned r := by
      cases Config.takes_of_step hs with
      | requestCancel _ => exact ⟨rfl, rfl, rfl, hphase⟩
      | markCancelRequested _ _ => exact ⟨rfl, rfl, rfl, hphase⟩
      | loop h _ | thread h _ _ _ | collect h _ _ _ | fold h _ _ | foldRaises h _ _ =>
        rw [hphase] at h
        cases h
    obtain ⟨hinternal, hplan, htrace, hphase₁⟩ := hquiet
    obtain ⟨hlen, hplan', htrace', hphase'⟩ := runWhile_returned hphase₁ hrun
    exact ⟨by simpa [List.filter_cons, hinternal] using hlen, hplan'.trans hplan,
      htrace'.trans htrace, hphase'⟩

/-- A run out of a batch that waits with a hand-off stays in it or ends the call. -/
theorem Inv.waits_run {steps : List PlanStep} (hoff : result.handsOff = true)
    (hconsistent : result.Consistent) : ∀ {actions : List Action} {c d : Config} {k : ℕ},
      Inv call hist initial False False c → c.Waits steps id result k →
      E.runWhile call.request (Config.keepsHandoffs E) c actions = some d →
      (actions.filter Action.internal).length ≤ k + 1 ∧ d.plan = c.plan
        ∧ (∃ es, d.world.trace = c.world.trace ++ es ∧ NotCalled id es)
        ∧ ((∃ r, d.phase = .returned r ∧ r.success = false) ∨ ∃ k, d.Waits steps id result k)
  | [], c, d, k, _, hwaits, hrun => by
    cases hrun
    exact ⟨Nat.zero_le _, rfl, ⟨[], by simp, by simp [NotCalled]⟩, .inr ⟨k, hwaits⟩⟩
  | action :: actions, c, d, k, h, hwaits, hrun => by
    rw [runWhile] at hrun
    split_ifs at hrun with hp
    rcases hs : c.step E call.request action with _ | c₁ <;> rw [hs] at hrun
    · cases hrun
    obtain ⟨hplan, ⟨es, he, hes⟩, hnext⟩ := h.waits_step hp hwaits hoff hconsistent hs
    have hfilter : ((action :: actions).filter Action.internal).length
        = (if action.internal then 1 else 0) + (actions.filter Action.internal).length := by
      rw [List.filter_cons]
      split_ifs
      · exact Nat.add_comm _ _
      · simp
    rcases hnext with ⟨k', hwaits', hk'⟩ | ⟨r, hphase, hr⟩
    · obtain ⟨hlen, hplan', ⟨es', he', hes'⟩, hend⟩ :=
        Inv.waits_run hoff hconsistent (h.step False.elim False.elim hs) hwaits' hrun
      refine ⟨by omega, hplan'.trans hplan, ⟨es ++ es', by rw [he', he, List.append_assoc], ?_⟩,
        hend⟩
      intro sid step payload hmem
      exact (List.mem_append.mp hmem).elim (hes sid step payload) (hes' sid step payload)
    · obtain ⟨hlen, hplan', htrace, hphase'⟩ := runWhile_returned hphase hrun
      refine ⟨?_, hplan'.trans hplan, ⟨es, by rw [htrace, he], hes⟩, .inl ⟨r, hphase', hr⟩⟩
      rw [hfilter, hlen]
      split_ifs <;> omega

/-- In a run through plans with distinct ids in which no fold loses a hand-off: once a thread has
ended with one, every further run of this kind takes a bounded number of actions, changes the plan
no more, does not call the step's tool again, stays in the batch at hand without being stuck, and
ends with a result that is no success. -/
theorem handoff_final {store : InMemoryStateStore} {threads : List Thread}
    {results : Dict String StepOutcome} {thread : Thread} (hstore : Reachable hist store)
    (hstart : Executor.start call store = .ok c₀)
    (hrun : E.Runs call.request (fun c => c.keepsHandoffs E = true) c₀ c)
    (hphase : c.phase = .batch threads results) (hmem : thread ∈ threads)
    (hended : thread.result? = some result) (hoff : result.handsOff = true) :
    ∃ N, ∀ actions d, E.runWhile call.request (Config.keepsHandoffs E) c actions = some d →
      (actions.filter Action.internal).length ≤ N ∧ d.plan = c.plan
        ∧ (∃ es, d.world.trace = c.world.trace ++ es ∧ ∀ sid step payload,
          .invoke sid step payload ∈ es → step.stepId ≠ thread.step.stepId)
        ∧ ((∃ r, d.phase = .returned r ∧ r.success = false)
          ∨ (∃ threads' results', d.phase = .batch threads' results'
              ∧ threads'.map Thread.step = threads.map Thread.step)
            ∧ ∀ now answer, ∃ action d', (action = .loop now ∨ (∃ i, action = .thread i answer)
              ∨ (∃ i, action = .collect i) ∨ action = .fold)
              ∧ d.step E call.request action = some d') := by
  obtain ⟨hs, hinv⟩ := hstore.start hstart False False
  have hruns := hrun.mono (Q := fun _ => True) fun _ _ => trivial
  have hc := hinv.runs (fun c _ => c.meets_false E) hruns
  obtain ⟨i, hi⟩ := List.mem_iff_getElem?.mp hmem
  have hconsistent : result.Consistent := by
    obtain ⟨crew, hcrew⟩ := (hstore.manned (upheld_true E _) hstart trivial
      (fun c action _ => c.admits_false E _ action) hrun.runsBy).1.exists_crew hphase
    obtain ⟨g, -, hfollows⟩ := hcrew.get hi
    exact hfollows.consistent hended
  obtain ⟨k, hk⟩ := hinv.budgeted hs.phase hruns threads results hphase
  have hwaits : c.Waits (threads.map Thread.step) thread.step.stepId result k :=
    ⟨threads, results, hphase, rfl, ⟨i, thread, hi, rfl, hended⟩, hk⟩
  refine ⟨k + 1, fun actions d hd => ?_⟩
  obtain ⟨hlen, hplan, hes, hend⟩ := hc.waits_run hoff hconsistent hwaits hd
  refine ⟨hlen, hplan, hes, hend.imp_right ?_⟩
  rintro ⟨k', threads', results', hphase', hsteps, -⟩
  refine ⟨⟨threads', results', hphase', hsteps⟩, fun now answer => ?_⟩
  have hdinv := hc.runs (fun c _ => c.meets_false E) (runs_of_runWhile hd)
  refine (hdinv.enabled call.request now answer).resolve_left ?_
  rintro ⟨r, hr⟩
  rw [hphase'] at hr
  cases hr

end Runs

/-- A thread's actions for one attempt that the tool rejects. -/
def rejectThread (i : ℕ) : List Action :=
  List.replicate 12
    (Action.thread i { reply := .executionError "invalid_business_input" "m" false })

/-- The batch has a thread at this place that has ended with a hand-off. -/
def Config.handedOff (c : Config) (i : ℕ) : Bool :=
  match c.phase with
  | .batch threads _ => threads[i]?.any fun thread => thread.result?.any (·.handsOff)
  | _ => false

theorem Config.exists_of_handedOff {c : Config} {i : ℕ} (h : c.handedOff i = true) :
    ∃ threads results thread result, c.phase = .batch threads results
      ∧ threads[i]? = some thread ∧ thread.result? = some result ∧ result.handsOff = true := by
  unfold handedOff at h
  rcases hphase : c.phase with _ | ⟨threads, results⟩ | r | error <;> rw [hphase] at h <;>
    try cases h
  obtain ⟨thread, hi, h⟩ := (Option.any_eq_true _ _).mp h
  obtain ⟨result, hres, hoff⟩ := (Option.any_eq_true _ _).mp h
  exact ⟨threads, results, thread, result, rfl, hi, hres, hoff⟩

theorem handoff_final_first :
    let call := sampleCall (samplePlan [sampleStep "a" [], sampleStep "b" []])
    let E := sampleExecutor 0 1
    ∃ c₀ c N, Executor.start call {} = .ok c₀
      ∧ E.Runs call.request (fun c => c.keepsHandoffs E = true) c₀ c ∧ c.handedOff 0 = true
      ∧ ∀ actions d, E.runWhile call.request (Config.keepsHandoffs E) c actions = some d →
        (actions.filter Action.internal).length ≤ N ∧ d.plan = c.plan := by
  intro call E
  have hq : ((Executor.start call {}).toOption.bind fun c => E.runWhile call.request
      (Config.keepsHandoffs E) c (.loop 0 :: rejectThread 0)).any (·.handedOff 0) = true := by
    decide +kernel
  obtain ⟨c₀, c, hstart, hrun, hq⟩ := exists_of_runWhile hq
  obtain ⟨threads, results, thread, result, hphase, hi, hended, hoff⟩ :=
    Config.exists_of_handedOff hq
  obtain ⟨N, hN⟩ := handoff_final .empty hstart hrun hphase (List.mem_of_getElem? hi) hended hoff
  exact ⟨c₀, c, N, hstart, hrun, hq,
    fun actions d hd => ⟨(hN actions d hd).1, (hN actions d hd).2.1⟩⟩

/-- The first step is exhausted, the second rejected; then both futures are picked up, the batch
is folded, and both steps of the next plan version succeed. -/
def lostHandoffActions : List Action :=
  [Action.collect 0, .collect 1, .fold] ++ batchRound 2 (succeedThread 0 ++ succeedThread 1)
    ++ [Action.loop 0]

/-- An accepted plan of two independent steps: the second ends with a hand-off and the first, whose
failure stands before it in the batch, is replanned. The second is run again and the call returns
with success. -/
theorem handoff_lost_behind_replan :
    let call := sampleCall (samplePlan [sampleStep "a" [], sampleStep "b" []])
    let E := sampleExecutor 0 1
    Planner.validatePlan call.plan ["t"] = .ok ()
      ∧ ∃ c₀ c threads results thread result d r, Executor.start call {} = .ok c₀
        ∧ E.run call.request c₀ (.loop 0 :: exhaustThread 0 ++ rejectThread 1) = some c
        ∧ c.phase = .batch threads results ∧ threads[1]? = some thread
        ∧ thread.result? = some result ∧ result.handsOff = true
        ∧ E.run call.request c lostHandoffActions = some d
        ∧ Invoked (c.logged d) "s" "b" ∧ d.phase = .returned r ∧ r.success = true := by
  intro call E
  have hq : ((Executor.start call {}).toOption.bind fun c =>
      E.run call.request c (.loop 0 :: exhaustThread 0 ++ rejectThread 1)).any
      (fun c => c.handedOff 1 && (E.run call.request c lostHandoffActions).any fun d =>
        decide (Invoked (c.logged d) "s" "b") && d.returns (·.success)) = true := by
    decide +kernel
  obtain ⟨c₀, c, hstart, hrun, hq⟩ := exists_of_run hq
  rw [Bool.and_eq_true] at hq
  obtain ⟨threads, results, thread, result, hphase, hi, hended, hoff⟩ :=
    Config.exists_of_handedOff hq.1
  obtain ⟨d, hd, hq⟩ := (Option.any_eq_true _ _).mp hq.2
  rw [Bool.and_eq_true, decide_eq_true_eq] at hq
  obtain ⟨r, hreturned, hsuccess⟩ := Config.exists_of_returns hq.2
  exact ⟨by decide +kernel, c₀, c, threads, results, thread, result, d, r, hstart, hrun, hphase, hi,
    hended, hoff, hd, hq.1, hreturned, hsuccess⟩

end AgentLearning
