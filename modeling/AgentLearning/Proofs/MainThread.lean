import AgentLearning.Execute
import AgentLearning.Proofs.Replan
import AgentLearning.Proofs.StoreOps

/-!
# The main thread

What a round of the loop can do (`LoopStep`) and what the fold over a batch's outcomes can do
(`FoldStep`), once the session is there and the steps at hand belong to the plan. Neither raises:
the replanner finds every step it is asked about.
-/

namespace AgentLearning

open InMemoryStateStore Replanner

namespace Executor

variable (E : Executor) {plan : ExecutionPlan}

/-- A replan the executor goes on with. -/
structure Adopts (plan : ExecutionPlan) (replanCount : ℕ) (outcome : ReplanOutcome) : Prop where
  mayReplan : E.mayReplan replanCount
  replans : Replans plan outcome.plan

theorem replanAfterFailure_ok {step : PlanStep} (h : step.stepId ∈ plan.stepIds)
    (error : Option StepError) (k : ℕ) :
    E.replanAfterFailure plan step error k = .ok none
      ∨ ∃ outcome, E.replanAfterFailure plan step error k = .ok (some outcome)
        ∧ E.Adopts plan k outcome := by
  unfold replanAfterFailure
  by_cases hmay : E.mayReplan k
  · have hreplan : ∃ outcome, Replanner.replanAfterFailure plan step error = .ok outcome
        ∧ (outcome.decision.shouldReplan → Replans plan outcome.plan) := by
      simp only [Replanner.replanAfterFailure]
      split_ifs with hs hl
      · exact ⟨_, rfl, fun h => absurd h (by simpa using hs)⟩
      · exact ⟨_, rfl, fun _ => replans_localReplace ..⟩
      · obtain ⟨outcome, ho, -, hr⟩ := rollbackRetry_replans h (buildDecision error "step_failed")
        exact ⟨outcome, ho, fun _ => hr⟩
    obtain ⟨outcome, ho, hr⟩ := hreplan
    simp only [hmay, ho, bind, Except.bind, pure, Except.pure]
    by_cases hd : outcome.decision.requiresHumanHandoff || !outcome.decision.shouldReplan
    · simp [hd]
    · rw [Bool.not_eq_true, Bool.or_eq_false_iff, Bool.not_eq_false'] at hd
      exact .inr ⟨outcome, by simp [hd], hmay, hr hd.2⟩
  · exact .inl (by simp [hmay])

theorem replanForMissingDependency_ok {step : PlanStep} (h : step ∈ plan.steps)
    (pending : List PlanStep) (k : ℕ) :
    E.replanForMissingDependency plan (step :: pending) k = .ok none
      ∨ ∃ outcome, E.replanForMissingDependency plan (step :: pending) k = .ok (some outcome)
        ∧ E.Adopts plan k outcome := by
  unfold replanForMissingDependency
  by_cases hmay : E.mayReplan k
  · have hfind : ∃ failed, findStep plan step.stepId = .ok failed
        ∧ failed.stepId ∈ plan.stepIds := by
      unfold findStep
      rcases hf : plan.steps.find? (·.stepId = step.stepId) with _ | failed
      · have := List.find?_eq_none.mp hf step h
        simp at this
      · exact ⟨failed, by rw [hf], ExecutionPlan.mem_stepIds (List.mem_of_find?_eq_some hf)⟩
    obtain ⟨failed, hfailed, hmem⟩ := hfind
    obtain ⟨outcome, ho, -, hr⟩ := rollbackRetry_replans hmem
      { shouldReplan := true
        strategy := .rollbackRetry
        reason := "missing_dependency"
        message := s!"dependency graph blocked at {step.stepId}" }
    refine .inr ⟨outcome, ?_, hmay, hr⟩
    simp [hmay, Replanner.replanForMissingDependency, hfailed, ho, bind, Except.bind, pure,
      Except.pure]
  · exact .inl (by simp [hmay])

end Executor

namespace Config

variable {E : Executor} {c : Config}

/-- The call after the store was written and the main thread moved on. -/
def goTo (c : Config) (store : InMemoryStateStore) (phase : Phase) : Config :=
  { c with world := { c.world with store }, phase }

theorem fail_eq (h : c.world.store.HasSession c.plan.sessionId) (status : ExecutionStatus)
    (error : Option StepError) :
    ∃ store, Persists c.plan.sessionId status c.world.store store
      ∧ c.fail status error = c.goTo store (.returned (c.result false error)) := by
  obtain ⟨store, hs, hp⟩ := setSessionStatus_persists h status
  exact ⟨store, hp, by simp only [fail, withStore, hs]; rfl⟩

theorem succeed_eq (h : c.world.store.HasSession c.plan.sessionId) :
    ∃ store, Persists c.plan.sessionId .success c.world.store store
      ∧ c.succeed = c.goTo store (.returned (c.result true none)) := by
  obtain ⟨store, hs, hp⟩ := setSessionStatus_persists h .success
  obtain ⟨session, hsession⟩ := hasSession_iff.mp ((hp.hasSession _).mpr h)
  obtain ⟨store', hs', hframe⟩ := saveSnapshot_frame ((hp.hasSession _).mpr h)
    (SnapshotManager.create session "final" .finalResponse
      (.counts c.stepResults.length c.replanCount))
  refine ⟨store', hp.frame hframe, ?_⟩
  simp only [succeed, withStore, hs, getSession_eq hsession, bind, Except.bind, hs']
  rfl

/-- The call with a replanned plan. -/
def replanTo (c : Config) (outcome : ReplanOutcome) (store : InMemoryStateStore) : Config :=
  { c with
    world := { c.world with store }
    plan := outcome.plan
    replanCount := c.replanCount + 1
    replanHistory := c.replanHistory ++ [buildReplanHistoryItem outcome]
    phase := .looping }

theorem adopt_eq {outcome : ReplanOutcome}
    (h : c.world.store.HasSession outcome.plan.sessionId) :
    ∃ store, Registers outcome.plan.sessionId (serializePlanSteps outcome.plan.steps)
        c.world.store store
      ∧ c.adopt outcome = c.replanTo outcome store := by
  obtain ⟨store, hs, hr⟩ := upsertPlanSteps_registers h (serializePlanSteps outcome.plan.steps)
    outcome.plan.planVersion
  exact ⟨store, hr, by simp only [adopt, withStore, hs]; rfl⟩

/-! ## A round of the loop -/

def sessionCancelled : StepError :=
  { code := "session_cancelled", message := "execution cancelled by control signal" }

def sessionTimeout : StepError :=
  { code := "session_timeout", message := "execution exceeded session timeout" }

def dependencyBlocked : StepError :=
  { code := "dependency_blocked"
    message := "no executable step and replanner not available" }

/-- What a round of the loop can do. -/
inductive LoopStep (E : Executor) (request : AgentRequest) (c : Config) : Config → Prop
  | cancelled {store : InMemoryStateStore}
    (hp : Persists c.plan.sessionId .canceled c.world.store store) :
    LoopStep E request c (c.goTo store (.returned (c.result false (some sessionCancelled))))
  | failed {store : InMemoryStateStore} {error : StepError}
    (hp : Persists c.plan.sessionId .failed c.world.store store)
    (he : error = sessionTimeout ∨ error = dependencyBlocked
      ∧ c.pendingSteps ≠ [] ∧ c.readySteps = []) :
    LoopStep E request c (c.goTo store (.returned (c.result false (some error))))
  | succeeded {store : InMemoryStateStore} (hpending : c.pendingSteps = [])
    (hp : Persists c.plan.sessionId .success c.world.store store) :
    LoopStep E request c (c.goTo store (.returned (c.result true none)))
  | replanned {outcome : ReplanOutcome} {store : InMemoryStateStore}
    (hpending : c.pendingSteps ≠ []) (hready : c.readySteps = [])
    (ha : E.Adopts c.plan c.replanCount outcome)
    (hr : Registers c.plan.sessionId (serializePlanSteps outcome.plan.steps) c.world.store
      store) :
    LoopStep E request c (c.replanTo outcome store)
  | batch (hready : c.readySteps ≠ []) :
    LoopStep E request c
      { c with phase := .batch (c.runnableSteps.map (c.spawn E request)) ∅ }

theorem mem_pendingSteps {step : PlanStep} :
    step ∈ c.pendingSteps ↔ step ∈ c.plan.steps ∧ step.stepId ∉ c.completed := by
  simp [pendingSteps]

theorem mem_readySteps {step : PlanStep} : step ∈ c.readySteps ↔ (step ∈ c.plan.steps
    ∧ step.stepId ∉ c.completed) ∧ ∀ d ∈ step.dependsOn, d ∈ c.completed := by
  simp [readySteps, mem_pendingSteps]

theorem loop_step (h : c.world.store.HasSession c.plan.sessionId) (request : AgentRequest)
    (now : ℚ) : LoopStep E request c (c.loop E request now) := by
  have hcancel : ∃ b, c.world.isCancelled c.plan.sessionId = .ok b := by
    obtain ⟨session, hs⟩ := hasSession_iff.mp h
    unfold World.isCancelled
    split_ifs
    · exact ⟨true, rfl⟩
    · exact ⟨session.cancelRequested, by simp [isCancelRequested, getSession_eq hs, bind,
        Except.bind, pure, Except.pure]⟩
  obtain ⟨b, hb⟩ := hcancel
  unfold loop
  rw [hb]
  cases b with
  | true =>
    obtain ⟨store, hp, he⟩ := fail_eq h .canceled (some sessionCancelled)
    exact he ▸ .cancelled hp
  | false =>
    simp only
    split_ifs with htime hpending hready
    · obtain ⟨store, hp, he⟩ := fail_eq h .failed (some sessionTimeout)
      exact he ▸ .failed hp (.inl rfl)
    · obtain ⟨store, hp, he⟩ := succeed_eq h
      exact he ▸ .succeeded (List.isEmpty_iff.mp hpending) hp
    · rw [List.isEmpty_iff] at hpending hready
      obtain ⟨blocked, rest, hcons⟩ := List.exists_cons_of_ne_nil hpending
      have hmem : blocked ∈ c.plan.steps :=
        (mem_pendingSteps.mp (hcons ▸ List.mem_cons_self)).1
      rw [hcons]
      rcases E.replanForMissingDependency_ok hmem rest c.replanCount with hr | ⟨outcome, hr, ha⟩ <;>
        simp only [hr]
      · obtain ⟨store, hp, he⟩ := fail_eq h .failed (some dependencyBlocked)
        exact he ▸ .failed hp (.inr ⟨rfl, hpending, hready⟩)
      · obtain ⟨store, hreg, he⟩ := adopt_eq (c := c) (ha.replans.sessionId ▸ h)
        exact he ▸ .replanned hpending hready ha (ha.replans.sessionId ▸ hreg)
    · exact .batch (by simpa using hready)

/-! ## The fold over a batch -/

/-- The call after a success was recorded. -/
def complete (c : Config) (o : StepOutcome) : Config :=
  { c.record o with completed := o.step.stepId :: c.completed }

def completeAll (c : Config) (os : List StepOutcome) : Config := os.foldl complete c

section CompleteAll

variable (c : Config)

@[simp]
theorem completeAll_cons (o : StepOutcome) (os : List StepOutcome) :
    c.completeAll (o :: os) = (c.complete o).completeAll os := rfl

@[simp]
theorem completeAll_world : ∀ (os : List StepOutcome) (c : Config),
    (c.completeAll os).world = c.world
  | [], _ => rfl
  | o :: os, c => completeAll_world os (c.complete o)

@[simp]
theorem completeAll_plan : ∀ (os : List StepOutcome) (c : Config),
    (c.completeAll os).plan = c.plan
  | [], _ => rfl
  | o :: os, c => completeAll_plan os (c.complete o)

@[simp]
theorem completeAll_replanCount : ∀ (os : List StepOutcome) (c : Config),
    (c.completeAll os).replanCount = c.replanCount
  | [], _ => rfl
  | o :: os, c => completeAll_replanCount os (c.complete o)

theorem mem_completeAll : ∀ {os : List StepOutcome} {c : Config} {id : String},
    id ∈ (c.completeAll os).completed ↔ id ∈ c.completed ∨ ∃ o ∈ os, o.step.stepId = id
  | [], c, id => by simp [completeAll]
  | o :: os, c, id => by
    rw [completeAll_cons, mem_completeAll]
    simp only [complete, List.mem_cons, exists_eq_or_imp]
    grind

end CompleteAll

/-- What the fold over the outcomes of a batch can do. -/
inductive FoldStep (E : Executor) (c : Config) (os : List StepOutcome) : Config → Prop
  | completed (hall : ∀ o ∈ os, o.result.success = true) :
    FoldStep E c os { c.completeAll os with phase := .looping }
  | replanned {done rest : List StepOutcome} {o : StepOutcome} {outcome : ReplanOutcome}
    {store : InMemoryStateStore} (hos : os = done ++ o :: rest)
    (hdone : ∀ o ∈ done, o.result.success = true) (ho : o.result.success = false)
    (hreplan : E.replanAfterFailure c.plan o.step o.result.error c.replanCount
      = .ok (some outcome)) (ha : E.Adopts c.plan c.replanCount outcome)
    (hr : Registers c.plan.sessionId (serializePlanSteps outcome.plan.steps) c.world.store
      store) :
    FoldStep E c os (((c.completeAll done).record o).replanTo outcome store)
  | failed {done rest : List StepOutcome} {o : StepOutcome} {store : InMemoryStateStore}
    (hos : os = done ++ o :: rest) (hdone : ∀ o ∈ done, o.result.success = true)
    (ho : o.result.success = false)
    (hreplan : E.replanAfterFailure c.plan o.step o.result.error c.replanCount = .ok none)
    (hp : Persists c.plan.sessionId .failed c.world.store store) :
    FoldStep E c os (((c.completeAll done).record o).goTo store
      (.returned (((c.completeAll done).record o).result false o.result.error)))

theorem FoldStep.cons {o : StepOutcome} {os : List StepOutcome} {c' : Config}
    (ho : o.result.success = true) (h : FoldStep E (c.complete o) os c') :
    FoldStep E c (o :: os) c' := by
  have hcons : ∀ {done : List StepOutcome}, (∀ o ∈ done, o.result.success = true) →
      ∀ o' ∈ o :: done, o'.result.success = true := fun h => by simpa [ho] using h
  cases h with
  | completed hall => exact (FoldStep.completed (hcons hall) : FoldStep E c (o :: os) _)
  | @replanned done rest o' outcome store hos hdone ho' hreplan ha hr =>
    have hos' : o :: os = (o :: done) ++ o' :: rest := by rw [hos, List.cons_append]
    exact .replanned (c := c) hos' (hcons hdone) ho' hreplan ha hr
  | @failed done rest o' store hos hdone ho' hreplan hp =>
    have hos' : o :: os = (o :: done) ++ o' :: rest := by rw [hos, List.cons_append]
    exact .failed (c := c) hos' (hcons hdone) ho' hreplan hp

theorem foldOutcomes_step : ∀ {os : List StepOutcome} {c : Config},
    c.world.store.HasSession c.plan.sessionId → (∀ o ∈ os, o.step.stepId ∈ c.plan.stepIds) →
      FoldStep E c os (foldOutcomes E c os)
  | [], c, _, _ => .completed (by simp)
  | o :: os, c, h, hmem => by
    rw [foldOutcomes]
    by_cases ho : o.result.success
    · simp only [ho, if_true]
      exact .cons ho (foldOutcomes_step (c := c.complete o) h
        fun o' ho' => hmem o' (List.mem_cons_of_mem _ ho'))
    · simp only [if_neg ho]
      rw [Bool.not_eq_true] at ho
      have hos : o :: os = [] ++ o :: os := rfl
      rcases E.replanAfterFailure_ok (hmem o (by simp)) o.result.error c.replanCount with
        hr | ⟨outcome, hr, ha⟩
      · have hr' : E.replanAfterFailure (c.record o).plan o.step o.result.error
          (c.record o).replanCount = .ok none := hr
        simp only [hr']
        obtain ⟨store, hp, he⟩ := fail_eq (c := c.record o) h .failed o.result.error
        exact he ▸ .failed hos (by simp) ho hr hp
      · have hr' : E.replanAfterFailure (c.record o).plan o.step o.result.error
          (c.record o).replanCount = .ok (some outcome) := hr
        simp only [hr']
        obtain ⟨store, hreg, he⟩ := adopt_eq (c := c.record o) (ha.replans.sessionId ▸ h)
        exact he ▸ .replanned hos (by simp) ho hr ha
          (ha.replans.sessionId ▸ hreg)

/-- Once every step of the batch has a result, the ordered results are these. -/
theorem orderedResults_ok {results : Dict String StepOutcome} : ∀ {threads : List Thread},
    (∀ thread ∈ threads, (results.get? thread.step.stepId).isSome) →
      ∃ os, orderedResults results threads = .ok os
        ∧ (∀ o ∈ os, ∃ thread ∈ threads, results.get? thread.step.stepId = some o)
        ∧ ∀ thread ∈ threads, ∃ o ∈ os, results.get? thread.step.stepId = some o
  | [], _ => ⟨[], rfl, by simp, by simp⟩
  | thread :: threads, h => by
    obtain ⟨o, ho⟩ := Option.isSome_iff_exists.mp (h thread (by simp))
    obtain ⟨os, hos, hof, hto⟩ := orderedResults_ok fun t ht => h t (List.mem_cons_of_mem _ ht)
    have horder : orderedResults results (thread :: threads) = .ok (o :: os) := by
      simp [orderedResults, ho, hos, bind, Except.bind, pure, Except.pure]
    refine ⟨o :: os, horder, ?_, ?_⟩
    · refine List.forall_mem_cons.mpr ⟨⟨thread, by simp, ho⟩, fun o' ho' => ?_⟩
      obtain ⟨t, ht, hget⟩ := hof o' ho'
      exact ⟨t, List.mem_cons_of_mem _ ht, hget⟩
    · refine List.forall_mem_cons.mpr ⟨⟨o, by simp, ho⟩, fun t ht => ?_⟩
      obtain ⟨o', ho', hget⟩ := hto t ht
      exact ⟨o', List.mem_cons_of_mem _ ho', hget⟩

/-! ## One action -/

/-- What an enabled action does. -/
inductive Takes (E : Executor) (request : AgentRequest) (c : Config) : Action → Config → Prop
  | loop (hphase : c.phase = .looping) (now : ℚ) :
    Takes E request c (.loop now) (c.loop E request now)
  | thread {threads : List Thread} {results : Dict String StepOutcome} {i : ℕ} {thread : Thread}
    {upd : Answer → World → World} {next : Answer → World → StepProg ToolResult}
    (hphase : c.phase = .batch threads results) (hi : threads[i]? = some thread)
    (hprog : thread.prog = .act upd next) (answer : Answer) :
    Takes E request c (.thread i answer) { c with
      world := upd answer c.world
      phase := .batch (threads.set i { thread with prog := next answer c.world }) results }
  | collect {threads : List Thread} {results : Dict String StepOutcome} {i : ℕ} {thread : Thread}
    {result : ToolResult} (hphase : c.phase = .batch threads results)
    (hi : threads[i]? = some thread) (hcollected : thread.collected = false)
    (hresult : thread.result? = some result) :
    Takes E request c (.collect i) { c with
      phase := .batch (threads.set i { thread with collected := true })
        (results.set thread.step.stepId ⟨thread.step, result⟩) }
  | fold {threads : List Thread} {results : Dict String StepOutcome} {os : List StepOutcome}
    (hphase : c.phase = .batch threads results) (hall : threads.all (·.collected))
    (hos : orderedResults results threads = .ok os) :
    Takes E request c .fold (foldOutcomes E c os)
  | foldRaises {threads : List Thread} {results : Dict String StepOutcome} {error : PyError}
    (hphase : c.phase = .batch threads results) (hall : threads.all (·.collected))
    (hos : orderedResults results threads = .error error) :
    Takes E request c .fold (c.raise error)
  | requestCancel (hnot : c.world.control.cancelRequested = false) :
    Takes E request c .requestCancel
      { c with world := { c.world with control := c.world.control.requestCancel } }
  | markCancelRequested {store : InMemoryStateStore}
    (hnot : c.world.store.isCancelRequested c.plan.sessionId = .ok false)
    (hmark : c.world.store.markCancelRequested c.plan.sessionId = .ok store) :
    Takes E request c .markCancelRequested { c with world := { c.world with store } }

theorem takes_of_step {request : AgentRequest} {action : Action} {c' : Config}
    (h : c.step E request action = some c') : Takes E request c action c' := by
  cases action with
  | loop now =>
    rcases hphase : c.phase with _ | ⟨threads, results⟩ | result | error <;>
      simp only [step, hphase] at h <;> cases h
    exact .loop hphase now
  | thread i answer =>
    rcases hphase : c.phase with _ | ⟨threads, results⟩ | result | error <;>
      simp only [step, hphase] at h <;> try cases h
    rcases hi : threads[i]? with _ | thread <;> simp only [hi] at h <;> try cases h
    rcases hprog : thread.prog with r | x | ⟨upd, next⟩ <;> simp only [hprog] at h <;> cases h
    exact .thread hphase hi hprog answer
  | collect i =>
    rcases hphase : c.phase with _ | ⟨threads, results⟩ | result | error <;>
      simp only [step, hphase] at h <;> try cases h
    rcases hi : threads[i]? with _ | thread <;> simp only [hi] at h <;> try cases h
    split_ifs at h with hcollected
    obtain ⟨result, hresult, rfl⟩ := Option.map_eq_some_iff.mp h
    exact .collect hphase hi (by simpa using hcollected) hresult
  | fold =>
    rcases hphase : c.phase with _ | ⟨threads, results⟩ | result | error <;>
      simp only [step, hphase] at h <;> try cases h
    split_ifs at h with hall
    rcases hos : orderedResults results threads with error | os <;> simp only [hos] at h <;> cases h
    · exact .foldRaises hphase hall hos
    · exact .fold hphase hall hos
  | requestCancel =>
    simp only [step] at h
    split_ifs at h with hnot
    cases h
    exact .requestCancel (by simpa using hnot)
  | markCancelRequested =>
    rcases hnot : c.world.store.isCancelRequested c.plan.sessionId with error | (_ | _) <;>
      simp only [step, hnot] at h <;> try cases h
    rcases hmark : c.world.store.markCancelRequested c.plan.sessionId with error | store <;>
      simp only [hmark] at h <;> cases h
    exact .markCancelRequested hnot hmark

end Config

end AgentLearning
