import AgentLearning.Proofs.Run
import Mathlib.Tactic.Ring
import Mathlib.Tactic.Linarith

/-!
# Termination and effort

Every action of a call is priced, and what a call can still cost is bounded by a potential
(`Potential`): the replans it has left, each worth a whole plan, the steps it has not completed,
and in a batch what its threads can still do. A fold that completes its batch lowers the pending
steps by the batch, one that breaks off to replan spends a replan. With price one per action the
potential bounds the length of a run, with the tool calls as price their number.
-/

namespace AgentLearning

open InMemoryStateStore Executor
open Prog (Bounded)

/-- The tool calls of a trace. -/
def calls (trace : List Event) : ℕ :=
  trace.countP fun
    | .invoke _ _ _ => true
    | .markStepSuccess _ _ _ => false

/-- A price of actions that is at most `call` for one that calls a tool and `other` for one that
does not. -/
structure Priced (price : World → World → ℕ) (other call : ℕ) : Prop where
  other : ∀ w w', calls w'.trace = calls w.trace → price w w' ≤ other
  call : ∀ w w', calls w'.trace = calls w.trace + 1 → price w w' ≤ call

namespace Executor

variable {price : World → World → ℕ} {μ ν : ℕ} (hprice : Priced price μ ν) (E : Executor)
  (a : StepArgs)

include hprice

theorem bounded_onStore (f : InMemoryStateStore → Except PyError InMemoryStateStore) :
    Bounded price μ (onStore f) := by
  refine Bounded.atomic (fun w _ w' h => hprice.other w w' ?_) fun w _ _ => hprice.other w w rfl
  rcases hf : f w.store with x | store <;> rw [hf] at h <;> cases h
  rfl

theorem bounded_read {α : Type} (f : World → Except PyError α) :
    Bounded price μ (.atomic fun world => do
      let v ← f world
      pure (v, world) : StepProg α) := by
  refine Bounded.atomic (fun w _ w' h => hprice.other w w' ?_) fun w _ _ => hprice.other w w rfl
  rcases hf : f w with x | v <;> rw [hf] at h <;> cases h
  rfl

theorem bounded_await {α : Type} (g : Answer → Except PyError α) :
    Bounded price μ (.await g : StepProg α) := Bounded.await fun w => hprice.other w w rfl

omit hprice in
theorem bounded_lift {α : Type} (e : Except PyError α) : Bounded price 0 (lift e) := by
  cases e <;> exact trivial

theorem bounded_saveSnapshot (stepId : String) (phase : SnapshotPhase)
    (payload : SnapshotPayload) :
    Bounded price (2 * μ) (saveSnapshot a.plan stepId phase payload) := by
  rw [two_mul]
  exact (bounded_read hprice _).bind fun _ => bounded_onStore hprice _

theorem bounded_failAttempt (attempt : ℤ) (result : ToolResult) :
    Bounded price (3 * μ) (failAttempt a.plan a.step attempt result) :=
  (Bounded.bind (fun _ => bounded_saveSnapshot hprice a _ _ _) (bounded_onStore hprice _)).mono
    (by omega)

theorem bounded_markStepSuccess (result : ToolResult) (key : String) :
    Bounded price μ (markStepSuccess a.plan a.step result key) := by
  refine Bounded.atomic (fun w _ w' h => hprice.other w w' ?_) fun w _ _ => hprice.other w w rfl
  rcases hf : w.store.markStepSuccess a.plan.sessionId a.step.stepId result key with x | store <;>
    rw [hf] at h <;> cases h
  simp [calls]

theorem bounded_invokeTool (payload : Json) (timeoutSeconds : ℤ) :
    Bounded price (ν + μ) (E.invokeToolWithTimeout a.plan a.step payload timeoutSeconds) := by
  refine Bounded.bind (fun _ => bounded_await hprice _) ?_
  refine Bounded.atomic (fun w _ w' h => hprice.call w w' ?_) fun w _ h => by cases h
  cases h
  simp [calls]

theorem bounded_callTool (attempt : ℤ) (payload : Json) :
    Bounded price (6 * μ + ν) (E.callTool a attempt payload) := by
  have hend : ∀ result : ToolResult, Bounded price (3 * μ)
      (if result.success then do
        markStepSuccess a.plan a.step result a.idempotencyKey
        saveSnapshot a.plan a.step.stepId .postSuccess (.result attempt result)
        pure (.done result)
      else do
        failAttempt a.plan a.step attempt result
        pure (if result.retryable then .retry result else .done result) :
        StepProg Executor.AttemptEnd) := by
    intro result
    split_ifs
    · exact (Bounded.bind (fun _ => (bounded_saveSnapshot hprice a _ _ _).bind_pure)
        (bounded_markStepSuccess hprice a _ _)).mono (by omega)
    · exact (bounded_failAttempt hprice a _ _).bind_pure
    · exact (bounded_failAttempt hprice a _ _).bind_pure
  exact (Bounded.bind (fun _ => Bounded.bind (fun result => Bounded.bind (fun _ => hend result)
    (bounded_await hprice _)) (bounded_invokeTool hprice E a _ _)) (bounded_onStore hprice _)).mono
    (by omega)

/-- A guard costs nothing, and where it rejects the attempt ends with a failure. -/
theorem bounded_guard {e : Except PyError (Option ToolResult)} (attempt : ℤ)
    {next : StepProg Executor.AttemptEnd} {n : ℕ} (hn : 3 * μ ≤ n)
    (hnext : Bounded price n next) :
    Bounded price n (do
      match ← lift e with
      | some result => do
        failAttempt a.plan a.step attempt result
        pure (.done result)
      | none => next) := by
  refine (Bounded.bind (fun guard => ?_) (bounded_lift e)).mono (Nat.zero_add n).le
  cases guard with
  | some result =>
    exact (bounded_failAttempt hprice a _ _).bind_pure.mono hn
  | none => exact hnext

theorem bounded_runAttempt (attempt : ℤ) :
    Bounded price (9 * μ + ν) (E.runAttempt a attempt) := by
  refine (Bounded.bind (fun _ => Bounded.bind (fun _ => bounded_guard hprice a attempt
    (n := 6 * μ + ν) (by omega) ?_) (bounded_saveSnapshot hprice a _ _ _))
    (bounded_onStore hprice _)).mono (by omega)
  refine (Bounded.bind (fun payload => bounded_guard hprice a attempt (by omega)
    (bounded_callTool hprice E a attempt payload)) (bounded_lift _)).mono (by omega)

theorem bounded_attemptLoop : ∀ (remaining : ℕ) (attempt : ℤ) (last : Option ToolResult),
    Bounded price (remaining * (10 * μ + ν) + 3 * μ) (E.attemptLoop a remaining attempt last)
  | 0, _, last => (bounded_failAttempt hprice a _ _).bind_pure.mono (by omega)
  | remaining + 1, attempt, last => by
    refine (Bounded.bind (m := 9 * μ + ν + (remaining * (10 * μ + ν) + 3 * μ)) (fun cancelled => ?_)
      (bounded_read hprice _)).mono (by rw [Nat.add_mul]; omega)
    cases cancelled with
    | true => exact (bounded_onStore hprice _).bind_pure.mono (by omega)
    | false =>
      refine Bounded.bind (fun ended => ?_) (bounded_runAttempt hprice E a attempt)
      cases ended with
      | done result => exact trivial
      | retry result => exact bounded_attemptLoop remaining (attempt + 1) (some result)

/-- What one step can cost. -/
def stepCost (E : Executor) (μ ν : ℕ) : ℕ := E.maxAttempts.toNat * (10 * μ + ν) + 4 * μ

theorem bounded_executeSingleStep : Bounded price (E.stepCost μ ν) (E.executeSingleStep a) := by
  refine (Bounded.bind (m := E.maxAttempts.toNat * (10 * μ + ν) + 3 * μ) (fun skip => ?_)
    (bounded_read hprice _)).mono (by unfold stepCost; omega)
  cases skip with
  | true => exact (bounded_read hprice _).bind_pure.mono (by omega)
  | false => exact bounded_attemptLoop hprice E a _ _ _

end Executor

/-! ## What a call can still cost -/

/-- The action is one of the executor, not a cancel request from outside. -/
def Action.internal : Action → Bool
  | .requestCancel => false
  | .markCancelRequested => false
  | _ => true

section Potential

variable (price : World → World → ℕ) (μ ν : ℕ) (E : Executor)

/-- The threads of a batch, with the main thread picking up what is not collected, can cost at
most `n`. -/
def Budgeted : List Thread → ℕ → Prop
  | [], _ => True
  | thread :: threads, n => ∃ b m, Bounded price b thread.prog
      ∧ b + (if thread.collected then 0 else μ) + m ≤ n ∧ Budgeted threads m

/-- A pending step is worth its own cost, its future, and a round of the loop. -/
def stepWorth : ℕ := E.stepCost μ ν + 3 * μ

def planWorth (call : Call) : ℕ := call.plan.steps.length * stepWorth μ ν E + 3 * μ

def replansLeft (c : Config) : ℕ := (E.maxReplanAttempts - c.replanCount).toNat

/-- The call can still cost at most `n`. -/
def Potential (call : Call) (c : Config) (n : ℕ) : Prop :=
  match c.phase with
  | .looping => replansLeft E c * planWorth μ ν E call
      + c.pendingSteps.length * stepWorth μ ν E + μ ≤ n
  | .batch threads _ => ∃ m, Budgeted price μ threads m
      ∧ replansLeft E c * planWorth μ ν E call
        + (c.pendingSteps.length - threads.length) * stepWorth μ ν E + m + 2 * μ ≤ n
  | _ => True

variable {price μ ν E}

theorem Budgeted.mono : ∀ {threads : List Thread} {n m : ℕ}, Budgeted price μ threads n → n ≤ m →
    Budgeted price μ threads m
  | [], _, _, _, _ => trivial
  | _ :: _, _, _, ⟨b, k, hb, hk, hbs⟩, hnm => ⟨b, k, hb, hk.trans hnm, hbs⟩

/-- Changing one thread by an action that costs `δ` of what it had. -/
theorem Budgeted.set {δ : ℕ} (old new : Thread)
    (hnew : ∀ b, Bounded price b old.prog → ∃ b', Bounded price b' new.prog
      ∧ δ + (b' + (if new.collected then 0 else μ)) ≤ b + (if old.collected then 0 else μ)) :
    ∀ {threads : List Thread} {n i : ℕ}, Budgeted price μ threads n → threads[i]? = some old →
      ∃ m, δ + m ≤ n ∧ Budgeted price μ (threads.set i new) m
  | [], _, _, _, hi => by simp at hi
  | thread :: threads, n, 0, ⟨b, k, hb, hk, hbs⟩, hi => by
    rw [List.getElem?_cons_zero, Option.some.injEq] at hi
    subst hi
    obtain ⟨b', hb', hle⟩ := hnew b hb
    exact ⟨b' + (if new.collected then 0 else μ) + k, by omega, b', k, hb', le_rfl, hbs⟩
  | thread :: threads, n, i + 1, ⟨b, k, hb, hk, hbs⟩, hi => by
    obtain ⟨m, hm, hset⟩ := Budgeted.set old new hnew hbs hi
    exact ⟨b + (if thread.collected then 0 else μ) + m, by omega, b, m, hb, le_rfl, hset⟩

theorem Budgeted.thread {threads : List Thread} {i k : ℕ} {thread : Thread}
    {upd : Answer → World → World} {next : Answer → World → StepProg ToolResult}
    (h : Budgeted price μ threads k) (hi : threads[i]? = some thread)
    (hprog : thread.prog = .act upd next) (answer : Answer) (w : World) :
    ∃ k', price w (upd answer w) + k' ≤ k
      ∧ Budgeted price μ (threads.set i { thread with prog := next answer w }) k' := by
  refine h.set thread { thread with prog := next answer w } (fun b hb => ?_) hi
  rw [hprog] at hb
  obtain ⟨b', hb', hbounded⟩ := hb answer w
  exact ⟨b', hbounded, by simp only; omega⟩

theorem Budgeted.collect {threads : List Thread} {i k : ℕ} {thread : Thread}
    (h : Budgeted price μ threads k) (hi : threads[i]? = some thread)
    (hcol : thread.collected = false) :
    ∃ k', μ + k' ≤ k ∧ Budgeted price μ (threads.set i { thread with collected := true }) k' :=
  h.set thread { thread with collected := true } (fun b hb => ⟨b, hb, by
    simp only [hcol, if_true, Bool.false_eq_true, if_false]
    omega⟩) hi

theorem budgeted_map {b : ℕ} {f : PlanStep → Thread} (hf : ∀ step, Bounded price b (f step).prog)
    (hc : ∀ step, (f step).collected = false) :
    ∀ steps : List PlanStep, Budgeted price μ (steps.map f) (steps.length * (b + μ))
  | [] => trivial
  | step :: steps => ⟨b, _, hf step, by
      rw [hc, List.length_cons, Nat.add_mul]
      simp only [Bool.false_eq_true, if_false]
      omega, budgeted_map hf hc steps⟩

variable {call : Call} {hist : List Event} {initial : String → Prop} {solo clean : Prop}
  {c : Config} {n : ℕ}

theorem Potential.batch (hpot : Potential price μ ν E call c n) {threads : List Thread}
    {results : Dict String StepOutcome} (hphase : c.phase = .batch threads results) :
    ∃ k, Budgeted price μ threads k ∧ replansLeft E c * planWorth μ ν E call
      + (c.pendingSteps.length - threads.length) * stepWorth μ ν E + k + 2 * μ ≤ n := by
  unfold Potential at hpot
  rwa [hphase] at hpot

theorem length_pendingSteps_le (c : Config) : c.pendingSteps.length ≤ c.plan.steps.length :=
  List.length_filter_le _ _

/-- A replan that is adopted was in the budget. -/
theorem replansLeft_succ {plan : ExecutionPlan} {k : ℕ} {outcome : ReplanOutcome}
    (ha : E.Adopts plan k outcome) {c c' : Config} (hc : c.replanCount = k)
    (hc' : c'.replanCount = k + 1) : replansLeft E c = replansLeft E c' + 1 := by
  have := ha.mayReplan
  simp only [Executor.mayReplan, Bool.and_eq_true, decide_eq_true_eq] at this
  unfold replansLeft
  rw [hc, hc']
  push_cast
  omega

/-- A replan pays for a round and for the whole new plan. -/
theorem Potential.replan {c c' : Config} (hn : replansLeft E c * planWorth μ ν E call ≤ n)
    (hleft : replansLeft E c = replansLeft E c' + 1) (hphase : c'.phase = .looping)
    (hlength : c'.plan.steps.length = call.plan.steps.length) :
    ∃ m, μ + m ≤ n ∧ Potential price μ ν E call c' m := by
  refine ⟨_, ?_, by rw [Potential, hphase]⟩
  have hpending := Nat.mul_le_mul_right (stepWorth μ ν E) (length_pendingSteps_le c')
  rw [hleft, Nat.add_mul, one_mul] at hn
  rw [hlength] at hpending
  have hworth : planWorth μ ν E call = call.plan.steps.length * stepWorth μ ν E + 3 * μ := rfl
  omega

theorem length_runnableSteps_pos (hconcurrency : 1 ≤ c.world.control.maxConcurrency)
    (hparallel : 1 ≤ c.plan.graphLimits.maxParallel) (hready : c.readySteps ≠ []) :
    1 ≤ c.runnableSteps.length := by
  have hpos := List.length_pos_iff.mpr hready
  unfold Config.runnableSteps sliceTo
  rw [if_pos (by omega), List.length_take]
  omega

theorem length_runnableSteps_le (c : Config) :
    c.runnableSteps.length ≤ c.pendingSteps.length :=
  ((sliceTo_sublist _ _).trans List.filter_sublist).length_le

/-- Completing the steps of a batch takes them off the pending ones. -/
theorem length_pendingSteps_add {c : Config} (c' : Config) {steps : List PlanStep}
    (hsteps : steps.Sublist c.readySteps) (hplan : c'.plan = c.plan)
    (hold : ∀ id ∈ c.completed, id ∈ c'.completed)
    (hnew : ∀ step ∈ steps, step.stepId ∈ c'.completed) :
    c'.pendingSteps.length + steps.length ≤ c.pendingSteps.length := by
  have hpending : c'.pendingSteps
      = c.pendingSteps.filter fun step => step.stepId ∉ c'.completed := by
    unfold Config.pendingSteps
    rw [hplan, List.filter_filter]
    refine List.filter_congr fun step _ => ?_
    by_cases hid : step.stepId ∈ c.completed
    · simp [hid, hold _ hid]
    · simp [hid]
  have hsub : steps.Sublist (c.pendingSteps.filter fun step => step.stepId ∈ c'.completed) := by
    have := (hsteps.trans List.filter_sublist).filter
      fun step => decide (step.stepId ∈ c'.completed)
    rwa [List.filter_eq_self.mpr fun step hs => by simpa using hnew step hs] at this
  have hsplit := List.length_eq_length_filter_add (l := c.pendingSteps)
    fun step => decide (step.stepId ∈ c'.completed)
  have hle := hsub.length_le
  rw [hpending]
  simp only [decide_not] at hsplit ⊢
  omega

/-- The call has limits that let a ready step run. -/
structure Limits (call : Call) : Prop where
  maxConcurrency : 1 ≤ call.control.maxConcurrency
  maxParallel : 1 ≤ call.plan.graphLimits.maxParallel

theorem Potential.loop (hprice : Priced price μ ν) (hlimits : Limits call)
    (h : Inv call hist initial solo clean c) (hphase : c.phase = .looping)
    (hpot : Potential price μ ν E call c n) (now : ℚ) :
    ∃ m, μ + m ≤ n ∧ Potential price μ ν E call (c.loop E call.request now) m := by
  have hn : replansLeft E c * planWorth μ ν E call
      + c.pendingSteps.length * stepWorth μ ν E + μ ≤ n := by
    unfold Potential at hpot
    rwa [hphase] at hpot
  have hstep := c.loop_step (E := E) (h.sessionId ▸ h.hasSession) call.request now
  generalize c.loop E call.request now = c' at hstep
  cases hstep with
  | cancelled hp => exact ⟨0, by omega, trivial⟩
  | failed hp _ => exact ⟨0, by omega, trivial⟩
  | succeeded _ hp => exact ⟨0, by omega, trivial⟩
  | replanned _ _ ha hr =>
    exact Potential.replan (by omega) (replansLeft_succ ha rfl rfl) rfl
      (ha.replans.length_steps.trans h.length)
  | batch hready =>
    have hpos := length_runnableSteps_pos (h.maxConcurrency ▸ hlimits.maxConcurrency)
      (h.graphLimits ▸ hlimits.maxParallel) hready
    have hle := length_runnableSteps_le c
    refine ⟨_, ?_, _, budgeted_map (b := E.stepCost μ ν)
      (fun step => bounded_executeSingleStep hprice E _) (fun _ => rfl) c.runnableSteps, le_rfl⟩
    -- each thread's step pays for it, and the first of them for the round
    have hworth : c.runnableSteps.length * stepWorth μ ν E
        = c.runnableSteps.length * (E.stepCost μ ν + μ) + c.runnableSteps.length * (2 * μ) := by
      unfold stepWorth
      ring
    have hround : 2 * μ ≤ c.runnableSteps.length * (2 * μ) := Nat.le_mul_of_pos_left _ hpos
    have hsplit : c.pendingSteps.length * stepWorth μ ν E
        = (c.pendingSteps.length - c.runnableSteps.length) * stepWorth μ ν E
          + c.runnableSteps.length * stepWorth μ ν E := by
      rw [← Nat.add_mul, Nat.sub_add_cancel hle]
    show μ + (replansLeft E c * planWorth μ ν E call + (c.pendingSteps.length
      - (c.runnableSteps.map (c.spawn E call.request)).length) * stepWorth μ ν E
      + c.runnableSteps.length * (E.stepCost μ ν + μ) + 2 * μ) ≤ n
    rw [List.length_map]
    omega

theorem Potential.fold (h : Inv call hist initial solo clean c) {threads : List Thread}
    {results : Dict String StepOutcome} (hphase : c.phase = .batch threads results)
    (hall : threads.all (·.collected)) {os : List StepOutcome}
    (hos : Config.orderedResults results threads = .ok os)
    (hpot : Potential price μ ν E call c n) :
    ∃ m, μ + m ≤ n ∧ Potential price μ ν E call (Config.foldOutcomes E c os) m := by
  have hb := h.batch hphase
  obtain ⟨-, hto⟩ := h.outcomes hphase hall hos
  obtain ⟨k, -, hn⟩ := hpot.batch hphase
  have hstep := h.foldStep hphase hall hos E
  generalize Config.foldOutcomes E c os = c' at hstep
  cases hstep with
  | completed hsucc =>
    have hlen := length_pendingSteps_add { c.completeAll os with phase := .looping } hb.steps
      (Config.completeAll_plan os c) (fun id hid => Config.mem_completeAll.mpr (.inl hid))
      (fun step hs => by
        obtain ⟨t, ht, rfl⟩ := List.mem_map.mp hs
        obtain ⟨o, ho, hget⟩ := hto t ht
        exact Config.mem_completeAll.mpr (.inr ⟨o, ho, (h.outcome hb hget).1⟩))
    rw [List.length_map] at hlen
    have hmul := Nat.mul_le_mul_right (stepWorth μ ν E) (Nat.le_sub_of_add_le hlen)
    have hrl : replansLeft E { c.completeAll os with phase := .looping } = replansLeft E c := by
      simp [replansLeft]
    refine ⟨_, ?_, le_rfl⟩
    rw [hrl]
    omega
  | @replanned done rest o outcome store hsplit hsucc ho hreplan ha hr =>
    exact Potential.replan (by omega)
      (replansLeft_succ ha rfl (by simp [Config.replanTo, Config.record])) rfl
      (ha.replans.length_steps.trans h.length)
  | failed _ _ _ _ _ => exact ⟨0, by omega, trivial⟩

/-- Every action of the executor is paid for by the potential; a cancel request leaves it. -/
theorem Potential.step (hprice : Priced price μ ν) (hlimits : Limits call)
    (h : Inv call hist initial solo clean c) (hpot : Potential price μ ν E call c n)
    {action : Action} {c' : Config} (hstep : c.step E call.request action = some c') :
    ∃ m, Potential price μ ν E call c' m
      ∧ (if action.internal then price c.world c'.world + m ≤ n
        else m = n ∧ c'.world.trace = c.world.trace) := by
  have hquiet : (∀ i answer, action ≠ .thread i answer) → price c.world c'.world ≤ μ :=
    fun hnot => hprice.other _ _ (by rw [h.trace_eq hstep hnot])
  cases Config.takes_of_step hstep with
  | loop hphase now =>
    obtain ⟨m, hm, hpot'⟩ := hpot.loop hprice hlimits h hphase now
    exact ⟨m, hpot', (Nat.add_le_add_right (hquiet (by simp)) m).trans hm⟩
  | @thread threads results i thread upd next hphase hi hprog answer =>
    obtain ⟨k, hk, hn⟩ := hpot.batch hphase
    obtain ⟨k', hk', hset⟩ := hk.thread hi hprog answer c.world
    refine ⟨_, ⟨k', hset, le_rfl⟩, ?_⟩
    show price c.world (upd answer c.world) + (replansLeft E c * planWorth μ ν E call
      + (c.pendingSteps.length - (threads.set i { thread with prog := next answer c.world }).length)
        * stepWorth μ ν E + k' + 2 * μ) ≤ n
    rw [List.length_set]
    omega
  | @collect threads results i thread result hphase hi hcol hres =>
    obtain ⟨k, hk, hn⟩ := hpot.batch hphase
    obtain ⟨k', hk', hset⟩ := hk.collect hi hcol
    refine ⟨_, ⟨k', hset, le_rfl⟩, ?_⟩
    have := hquiet (by simp)
    show price c.world c.world + (replansLeft E c * planWorth μ ν E call
      + (c.pendingSteps.length - (threads.set i { thread with collected := true }).length)
        * stepWorth μ ν E + k' + 2 * μ) ≤ n
    rw [List.length_set]
    change price c.world c.world ≤ μ at this
    omega
  | fold hphase hall hos =>
    obtain ⟨m, hm, hpot'⟩ := hpot.fold h hphase hall hos
    exact ⟨m, hpot', (Nat.add_le_add_right (hquiet (by simp)) m).trans hm⟩
  | foldRaises hphase hall hos =>
    exact absurd hos (h.orderedResults_ne_error hphase hall _)
  | requestCancel _ => exact ⟨n, hpot, rfl, rfl⟩
  | markCancelRequested _ _ => exact ⟨n, hpot, rfl, rfl⟩

end Potential

/-! ## Whole runs -/

section Run

variable {price : World → World → ℕ} {μ ν : ℕ} {E : Executor} {call : Call} {hist : List Event}
  {initial : String → Prop}

/-- What the executor's actions cost along a run. -/
def runCost (price : World → World → ℕ) (E : Executor) (request : AgentRequest) :
    Config → List Action → ℕ
  | _, [] => 0
  | c, action :: actions =>
    match c.step E request action with
    | some c' => (if action.internal then price c.world c'.world else 0)
        + runCost price E request c' actions
    | none => 0

theorem run_cons {request : AgentRequest} {action : Action} {actions : List Action}
    {c c' : Config} (h : E.run request c (action :: actions) = some c') :
    ∃ c₁, c.step E request action = some c₁ ∧ E.run request c₁ actions = some c' := by
  rw [Executor.run] at h
  rcases hs : c.step E request action with _ | c₁ <;> rw [hs] at h
  · cases h
  · exact ⟨c₁, rfl, h⟩

theorem Potential.run (hprice : Priced price μ ν) (hlimits : Limits call) :
    ∀ {actions : List Action} {c c' : Config} {n : ℕ}, Inv call hist initial False False c →
      Potential price μ ν E call c n → E.run call.request c actions = some c' →
      runCost price E call.request c actions ≤ n
  | [], _, _, _, _, _, _ => Nat.zero_le _
  | action :: actions, c, c', n, h, hpot, hrun => by
    obtain ⟨c₁, hs, hrun⟩ := run_cons hrun
    obtain ⟨m, hpot', hm⟩ := hpot.step hprice hlimits h hs
    have ih := Potential.run hprice hlimits (h.step False.elim False.elim hs) hpot' hrun
    simp only [runCost, hs]
    split_ifs at hm ⊢
    · omega
    · omega

theorem runCost_one {request : AgentRequest} : ∀ {actions : List Action} {c c' : Config},
    E.run request c actions = some c' →
      runCost (fun _ _ => 1) E request c actions = (actions.filter Action.internal).length
  | [], _, _, _ => rfl
  | action :: actions, c, c', hrun => by
    obtain ⟨c₁, hs, hrun⟩ := run_cons hrun
    simp only [runCost, hs, runCost_one hrun, List.filter_cons]
    split_ifs
    · simp [Nat.add_comm]
    · simp

theorem Inv.calls_le {solo clean : Prop} {c c' : Config} (h : Inv call hist initial solo clean c)
    {action : Action} (hs : c.step E call.request action = some c') :
    calls c.world.trace ≤ calls c'.world.trace := by
  by_cases hthread : ∃ i answer, action = .thread i answer
  · obtain ⟨i, answer, rfl⟩ := hthread
    obtain ⟨a, -, -, hmove⟩ := h.moves hs
    obtain ⟨es, he, -⟩ := hmove.trace
    simp [he, calls]
  · push Not at hthread
    rw [h.trace_eq hs hthread]

theorem runCost_calls : ∀ {actions : List Action} {c c' : Config},
    Inv call hist initial False False c → E.run call.request c actions = some c' →
      calls c'.world.trace = calls c.world.trace
        + runCost (fun w w' => calls w'.trace - calls w.trace) E call.request c actions
  | [], c, c', _, hrun => by
    cases hrun
    rfl
  | action :: actions, c, c', h, hrun => by
    obtain ⟨c₁, hs, hrun⟩ := run_cons hrun
    have ih := runCost_calls (h.step False.elim False.elim hs) hrun
    have hle := h.calls_le hs
    have hexternal : action.internal = false → calls c₁.world.trace = calls c.world.trace := by
      intro hi
      rw [h.trace_eq hs]
      rintro i answer rfl
      cases hi
    simp only [runCost, hs]
    split_ifs with hi
    · omega
    · rw [ih, hexternal (by simpa using hi), Nat.zero_add]

theorem priced_one : Priced (fun _ _ => 1) 1 1 := ⟨fun _ _ _ => le_rfl, fun _ _ _ => le_rfl⟩

theorem priced_calls : Priced (fun w w' => calls w'.trace - calls w.trace) 0 1 :=
  ⟨fun _ _ h => by simp only [h]; omega, fun _ _ h => by simp only [h]; omega⟩

/-- Until the call has returned, some action of the executor is enabled, whatever the clock reads
and the outside answers. -/
theorem Inv.enabled {solo clean : Prop} {c : Config} (h : Inv call hist initial solo clean c)
    (request : AgentRequest) (now : ℚ) (answer : Answer) :
    (∃ result, c.phase = .returned result)
      ∨ ∃ action c', (action = .loop now ∨ (∃ i, action = .thread i answer)
        ∨ (∃ i, action = .collect i) ∨ action = .fold)
        ∧ c.step E request action = some c' := by
  cases hphase : c.phase with
  | looping => exact .inr ⟨.loop now, _, .inl rfl, by simp only [Config.step, hphase]; rfl⟩
  | returned result => exact .inl ⟨result, rfl⟩
  | raised error =>
    have := h.phase
    rw [hphase] at this
    exact this.elim
  | batch threads results =>
    refine .inr ?_
    by_cases hall : threads.all (·.collected)
    · obtain ⟨os, hos, -⟩ := h.orderedResults (h.batch hphase) hall
      exact ⟨.fold, _, .inr (.inr (.inr rfl)), by simp only [Config.step, hphase, hall, hos]; rfl⟩
    · rw [List.all_eq_true] at hall
      push Not at hall
      obtain ⟨thread, ht, hcol⟩ := hall
      obtain ⟨i, hi⟩ := List.mem_iff_getElem?.mp ht
      rw [ne_eq, Bool.not_eq_true] at hcol
      rcases hprog : thread.prog with r | x | ⟨upd, next⟩
      · exact ⟨.collect i, _, .inr (.inr (.inl ⟨i, rfl⟩)), by
          simp only [Config.step, hphase, hi, hcol, Thread.result?, hprog]; rfl⟩
      · exact ⟨.collect i, _, .inr (.inr (.inl ⟨i, rfl⟩)), by
          simp only [Config.step, hphase, hi, hcol, Thread.result?, hprog]; rfl⟩
      · exact ⟨.thread i answer, _, .inr (.inl ⟨i, rfl⟩), by
          simp only [Config.step, hphase, hi, hprog]; rfl⟩

theorem one_le_maxConcurrency_fromRequest {f : TextBuiltins} {request : AgentRequest}
    {startedAt : ℚ} {control : ExecutionControl}
    (h : ExecutionControl.fromRequest f request startedAt = .ok control) :
    1 ≤ control.maxConcurrency := by
  unfold ExecutionControl.fromRequest at h
  simp only [bind, Except.bind, pure, Except.pure] at h
  split at h
  · cases h
  split at h
  · cases h
  split at h
  · cases h
  split at h
  · cases h
  cases h
  simp only
  split_ifs <;> omega

/-- The potential a call starts with. -/
theorem Starts.potential {store : InMemoryStateStore} {c₀ : Config} (hs : Starts call store c₀)
    (price : World → World → ℕ) (μ ν : ℕ) (E : Executor) :
    Potential price μ ν E call c₀ (replansLeft E c₀ * planWorth μ ν E call
      + c₀.pendingSteps.length * stepWorth μ ν E + μ) := by
  unfold Potential
  rw [hs.phase]

/-- The tool calls of a run, counted as its cost, are at most one per attempt, step and plan
version. -/
theorem Starts.calls_le {store : InMemoryStateStore} {c₀ c : Config} {actions : List Action}
    (hs : Starts call store c₀) (hinv : Inv call hist initial False False c₀)
    (hlimits : Limits call) {r k : ℕ} (hr : E.maxRetryAttempts = r) (hk : E.maxReplanAttempts = k)
    (hrun : E.run call.request c₀ actions = some c) :
    calls c.world.trace ≤ (r + 1) * call.plan.steps.length * (k + 1) := by
  have hcalls := runCost_calls hinv hrun
  have hcost := (hs.potential _ 0 1 E).run priced_calls hlimits hinv hrun
  rw [hs.trace, show calls [] = 0 from rfl, Nat.zero_add] at hcalls
  have hpending := length_pendingSteps_le c₀
  rw [hs.plan] at hpending
  have hleft : replansLeft E c₀ = k := by
    unfold replansLeft
    rw [hs.replanCount, hk]
    simp
  have hworth : stepWorth 0 1 E = r + 1 := by
    unfold stepWorth stepCost maxAttempts
    rw [hr]
    omega
  have hplan : planWorth 0 1 E call = call.plan.steps.length * (r + 1) := by
    unfold planWorth
    rw [hworth, Nat.mul_zero, Nat.add_zero]
  rw [← hcalls, hleft, hplan, hworth] at hcost
  have hmul := Nat.mul_le_mul_right (r + 1) hpending
  calc calls c.world.trace
      ≤ k * (call.plan.steps.length * (r + 1)) + c₀.pendingSteps.length * (r + 1) + 0 := hcost
    _ ≤ k * (call.plan.steps.length * (r + 1)) + call.plan.steps.length * (r + 1) := by omega
    _ = (r + 1) * call.plan.steps.length * (k + 1) := by ring

/-- A call with sensible limits starts, takes a bounded number of actions, is never stuck before
it returns, does not raise, and calls tools at most once per attempt, step and plan version. -/
theorem execute_terminates {E : Executor} {call : Call} {hist : List Event}
    {store : InMemoryStateStore} (hstore : Reachable hist store)
    (hparallel : 1 ≤ call.plan.graphLimits.maxParallel)
    (hconcurrency : 1 ≤ call.control.maxConcurrency) (hretry : 0 ≤ E.maxRetryAttempts)
    (hreplan : 0 ≤ E.maxReplanAttempts) :
    (∀ f request startedAt control,
      ExecutionControl.fromRequest f request startedAt = .ok control →
        1 ≤ control.maxConcurrency)
    ∧ ∃ c₀ N, Executor.start call store = .ok c₀
      ∧ ∀ actions c, E.run call.request c₀ actions = some c →
        (actions.filter Action.internal).length ≤ N
        ∧ (calls c.world.trace : ℤ)
          ≤ (E.maxRetryAttempts + 1) * call.plan.steps.length * (E.maxReplanAttempts + 1)
        ∧ (∀ error, c.phase ≠ .raised error)
        ∧ ∀ now answer, (∃ result, c.phase = .returned result)
          ∨ ∃ action c', (action = .loop now ∨ (∃ i, action = .thread i answer)
            ∨ (∃ i, action = .collect i) ∨ action = .fold)
            ∧ c.step E call.request action = some c' := by
  refine ⟨fun _ _ _ _ => one_le_maxConcurrency_fromRequest, ?_⟩
  obtain ⟨c₀, hstart, hs, hinv⟩ := start_inv call hstore.inv.1 (hstore.inv.2 _) False False
  have hlimits : Limits call := ⟨hconcurrency, hparallel⟩
  refine ⟨c₀, replansLeft E c₀ * planWorth 1 1 E call
    + c₀.pendingSteps.length * stepWorth 1 1 E + 1, hstart, fun actions c hrun => ?_⟩
  have hc := hinv.runs (fun c _ => c.meets_false E) (runs_of_run hrun)
  refine ⟨?_, ?_, fun error he => ?_, fun now answer => hc.enabled call.request now answer⟩
  · rw [← runCost_one hrun]
    exact (hs.potential _ 1 1 E).run priced_one hlimits hinv hrun
  · obtain ⟨r, hr⟩ := Int.eq_ofNat_of_zero_le hretry
    obtain ⟨k, hk⟩ := Int.eq_ofNat_of_zero_le hreplan
    have hcalls := hs.calls_le hinv hlimits hr hk hrun
    rw [hr, hk]
    exact_mod_cast hcalls
  · have := hc.phase
    rw [he] at this
    exact this

theorem execute_terminates_fresh :
    let call := sampleCall (samplePlan [sampleStep "a" [], sampleStep "b" ["a"]])
    ∃ c₀, Executor.start call {} = .ok c₀
      ∧ ∀ actions c, (sampleExecutor 2 1).run call.request c₀ actions = some c →
        calls c.world.trace ≤ 12 := by
  intro call
  obtain ⟨-, c₀, N, hstart, h⟩ := @execute_terminates (sampleExecutor 2 1) call [] {}
    .empty (by decide) (by decide) (by decide) (by decide)
  refine ⟨c₀, hstart, fun actions c hrun => ?_⟩
  have hcalls := (h actions c hrun).2.1
  rw [show ((sampleExecutor 2 1).maxRetryAttempts + 1) * call.plan.steps.length
    * ((sampleExecutor 2 1).maxReplanAttempts + 1) = 12 from rfl] at hcalls
  exact_mod_cast hcalls

end Run

end AgentLearning
