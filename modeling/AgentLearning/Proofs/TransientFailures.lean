import AgentLearning.Proofs.Resubmit
import AgentLearning.Proofs.SessionStart
import AgentLearning.Proofs.Termination
import AgentLearning.Proofs.Validate

/-!
# Transient failures are masked

The tool of each step answers its `n`-th call in a fixed way: the first few calls fail transiently,
the next one returns. If no step fails more often than it is retried, its guards let it through, and
nobody cancels, the failures do not show: whatever the interleaving, the call goes on without a
replan and returns a success, with one call of each tool more than it fails.

The thread of a step is followed by the number of times its tool was called (`Fair`, `Counts`).
-/

namespace AgentLearning

open InMemoryStateStore Executor

/-- A failure that the executor retries. -/
def ToolReply.Transient : ToolReply → Prop
  | .executionError _ _ retryable => retryable = true
  | .timeout => True
  | _ => False

/-- The tool fails transiently this many times and then returns. -/
structure FailsFirst (tool : ℕ → ToolReply) (failures : ℕ) : Prop where
  transient : ∀ n, 1 ≤ n → n ≤ failures → (tool n).Transient
  returns : ∃ data, tool (failures + 1) = .returned data

/-- How often the tool of a step was called. -/
def invocations (stepId : String) (trace : List Event) : ℕ :=
  trace.countP fun
    | .invoke _ step _ => step.stepId = stepId
    | .markStepSuccess _ _ _ => false

/-- The guards let the step through, whatever the context holds. -/
structure Executor.Passes (E : Executor) (request : AgentRequest) (step : PlanStep) : Prop where
  policy : E.checkPolicy step request = .ok none
  schema : ∀ context payload, buildPayloadWithContext context step = .ok payload →
    E.checkSchema step payload = .ok none

/-! ## One step -/

section Step

variable {E : Executor} {a : StepArgs} {tool : ℕ → ToolReply} {failures : ℕ}

/-- Nobody has cancelled, the step is there and is not `SUCCESS` before its tool was called, and the
tool answers its latest call. -/
structure Fair (a : StepArgs) (tool : ℕ → ToolReply) (n : ℕ) (answer : Answer) (w : World) :
    Prop where
  calm : w.isCancelled a.plan.sessionId = .ok false
  entry : (w.store.step? a.plan.sessionId a.step.stepId).isSome
  fresh : n = 0 → ¬ w.store.Succeeded a.plan.sessionId a.step.stepId
  reply : answer.reply = tool n
  audit : answer.auditError = none

/-- The calls of the step's tool go on from `n` to `n'`, and nobody is cancelled by it. -/
structure Counts (a : StepArgs) (n : ℕ) (w w' : World) (n' : ℕ) : Prop where
  invocations : invocations a.step.stepId w'.trace + n = invocations a.step.stepId w.trace + n'
  calm : w.isCancelled a.plan.sessionId = .ok false → w'.isCancelled a.plan.sessionId = .ok false

abbrev StepServed {α : Type} (a : StepArgs) (tool : ℕ → ToolReply) (Q : α → ℕ → Prop)
    (p : StepProg α) (n : ℕ) : Prop :=
  Prog.Served (Fair a tool) (Counts a) Q p n

open Prog (Served)

theorem Counts.refl (w : World) (n : ℕ) : Counts a n w w n := ⟨rfl, id⟩

/-- Changing the session other than by its flag. -/
theorem calm_modifySession {σ σ' : InMemoryStateStore} {sid t : String}
    {f : SessionState → SessionState} (h : σ.modifySession sid f = .ok σ')
    (hf : ∀ s, (f s).cancelRequested = s.cancelRequested) :
    σ'.isCancelRequested t = σ.isCancelRequested t := by
  obtain ⟨session, hs, rfl⟩ := modifySession_ok h
  unfold isCancelRequested getSession
  rw [get?_put]
  split_ifs with ht
  · subst ht
    simp only [hs, bind, Except.bind, hf]
  · rfl

theorem calm_modifyStep {σ σ' : InMemoryStateStore} {sid t stepId : String}
    {f : StepState → StepState} (h : σ.modifyStep sid stepId f = .ok σ') :
    σ'.isCancelRequested t = σ.isCancelRequested t := by
  unfold InMemoryStateStore.modifyStep at h
  rcases hs : σ.getStep sid stepId with e | step <;> simp only [hs, bind, Except.bind] at h
  · cases h
  · exact calm_modifySession h fun _ => rfl

theorem World.calm_of_eq {w w' : World} {sid : String} (h : w.isCancelled sid = .ok false)
    (hcontrol : w'.control = w.control)
    (hstore : w'.store.isCancelRequested sid = w.store.isCancelRequested sid) :
    w'.isCancelled sid = .ok false := by
  unfold World.isCancelled
  rw [hcontrol, hstore]
  exact h

theorem served_onStore {f : InMemoryStateStore → Except PyError InMemoryStateStore} {n : ℕ}
    (h : ∀ σ, (σ.step? a.plan.sessionId a.step.stepId).isSome → ∃ σ', f σ = .ok σ'
      ∧ σ'.isCancelRequested a.plan.sessionId = σ.isCancelRequested a.plan.sessionId) :
    StepServed a tool (fun _ n' => n' = n) (onStore f) n := by
  refine Served.atomic fun answer w hw => ?_
  obtain ⟨σ', hσ', hcalm⟩ := h w.store hw.entry
  refine ⟨(), { w with store := σ' }, n, ?_,
    ⟨rfl, fun hold => World.calm_of_eq hold rfl hcalm⟩, rfl⟩
  simp [hσ', bind, Except.bind, pure, Except.pure]

theorem served_read {α : Type} {P : α → Prop} {f : World → Except PyError α} {n : ℕ}
    (h : ∀ answer w, Fair a tool n answer w → ∃ v, f w = .ok v ∧ P v) :
    StepServed a tool (fun v n' => n' = n ∧ P v)
      (.atomic fun world => do
        let v ← f world
        pure (v, world)) n := by
  refine Served.atomic fun answer w hw => ?_
  obtain ⟨v, hv, hP⟩ := h answer w hw
  exact ⟨v, w, n, by simp [hv, bind, Except.bind, pure, Except.pure], .refl w n, rfl, hP⟩

theorem served_lift {α : Type} {e : Except PyError α} {v : α} {n : ℕ} (h : e = .ok v) :
    StepServed a tool (fun v' n' => n' = n ∧ v' = v) (lift e) n := by
  subst h
  exact Served.pure ⟨rfl, rfl⟩

theorem served_mark {f : StepState → StepState} {n : ℕ} :
    StepServed a tool (fun _ n' => n' = n)
      (onStore fun store => store.modifyStep a.plan.sessionId a.step.stepId f) n := by
  refine served_onStore fun σ hentry => ?_
  obtain ⟨step, hstep⟩ := Option.isSome_iff_exists.mp hentry
  obtain ⟨σ', hσ', -⟩ := modifyStep_frame hstep f
  exact ⟨σ', hσ', calm_modifyStep hσ'⟩

theorem served_saveSnapshot {n : ℕ} (phase : SnapshotPhase) (payload : SnapshotPayload) :
    StepServed a tool (fun _ n' => n' = n)
      (saveSnapshot a.plan a.step.stepId phase payload) n := by
  have hsession : ∀ {σ : InMemoryStateStore}, (σ.step? a.plan.sessionId a.step.stepId).isSome →
      σ.HasSession a.plan.sessionId := by
    intro σ hentry
    obtain ⟨step, hstep⟩ := Option.isSome_iff_exists.mp hentry
    exact hasSession_of_step? hstep
  refine Served.bind (Q := fun _ n' => n' = n ∧ True) (fun snapshot n' hn => ?_)
    (served_read fun answer w hw => ?_)
  · rw [hn.1]
    refine served_onStore fun σ hentry => ?_
    obtain ⟨σ', hσ', -⟩ := saveSnapshot_frame (hsession hentry) snapshot
    exact ⟨σ', hσ', calm_modifySession hσ' fun _ => rfl⟩
  · obtain ⟨session, hs⟩ := hasSession_iff.mp (hsession hw.entry)
    exact ⟨_, by simp only [getSession_eq hs, bind, Except.bind]; rfl, trivial⟩

theorem served_failAttempt {n : ℕ} (attempt : ℤ) (result : ToolResult) :
    StepServed a tool (fun _ n' => n' = n) (failAttempt a.plan a.step attempt result) n := by
  refine Served.bind (Q := fun _ n' => n' = n) (fun _ n' hn => ?_) served_mark
  rw [hn]
  exact served_saveSnapshot _ _

theorem served_markStepSuccess {n : ℕ} (result : ToolResult) (key : String) :
    StepServed a tool (fun _ n' => n' = n) (markStepSuccess a.plan a.step result key) n := by
  refine Served.atomic fun answer w hw => ?_
  obtain ⟨step, hstep⟩ := Option.isSome_iff_exists.mp hw.entry
  obtain ⟨σ', hσ', -⟩ := modifyStep_frame hstep fun step =>
    { step with status := .success, result := some result, error := none, idempotencyKey := key }
  have hmark : w.store.markStepSuccess a.plan.sessionId a.step.stepId result key = .ok σ' := hσ'
  refine ⟨(), { w with
    store := σ'
    trace := w.trace ++ [.markStepSuccess a.plan.sessionId a.step.stepId key] }, n,
    by simp only [hmark, bind, Except.bind]; rfl,
    ⟨?_, fun hold => World.calm_of_eq hold rfl (calm_modifyStep hσ')⟩, rfl⟩
  simp [invocations]

/-- The tool is called, and answers this call. -/
theorem served_invokeTool {n : ℕ} (payload : Json) (timeoutSeconds : ℤ) :
    StepServed a tool (fun result n' => n' = n + 1
        ∧ result = E.toolResult a.step.toolId timeoutSeconds (tool (n + 1)))
      (E.invokeToolWithTimeout a.plan a.step payload timeoutSeconds) n := by
  refine Served.bind (Q := fun _ n' => n' = n + 1) (fun _ n' hn => ?_) ?_
  · subst hn
    exact Served.await fun answer w hw => ⟨.refl w _, _, rfl, rfl, by rw [hw.reply]⟩
  · refine Served.atomic fun answer w hw => ⟨(), _, n + 1, rfl,
      ⟨?_, fun hold => World.calm_of_eq hold rfl rfl⟩, rfl⟩
    simp only [invocations, List.countP_append, List.countP_singleton, decide_true, if_true]
    omega

theorem served_logStepEvent {n : ℕ} :
    StepServed a tool (fun _ n' => n' = n) logStepEvent n :=
  Served.await fun answer w hw => ⟨.refl w n, (), by simp [hw.audit], rfl⟩

theorem toolResult_transient {E : Executor} {toolId : String} {reply : ToolReply}
    {definition : ToolDefinition}
    (hdefined : E.toolRegistry.definitions.get? toolId = some definition)
    (h : reply.Transient) (timeoutSeconds : ℤ) :
    (E.toolResult toolId timeoutSeconds reply).success = false
      ∧ (E.toolResult toolId timeoutSeconds reply).retryable = true := by
  unfold toolResult ToolRegistry.invoke ToolRegistry.get
  rw [hdefined]
  cases reply with
  | executionError code message retryable =>
    cases h
    exact ⟨rfl, rfl⟩
  | timeout => exact ⟨rfl, rfl⟩
  | returned data => exact h.elim
  | exception message => exact h.elim

theorem toolResult_returned {E : Executor} {toolId : String} {timeoutSeconds : ℤ} {data : Json}
    {definition : ToolDefinition}
    (hdefined : E.toolRegistry.definitions.get? toolId = some definition) :
    (E.toolResult toolId timeoutSeconds (.returned data)).success = true := by
  unfold toolResult ToolRegistry.invoke ToolRegistry.get
  rw [hdefined]
  rfl

theorem registered_of_checkSchema {E : Executor} {step : PlanStep} {payload : Json}
    (h : E.checkSchema step payload = .ok none) :
    ∃ definition, E.toolRegistry.definitions.get? step.toolId = some definition := by
  unfold checkSchema ToolRegistry.getSchemaPath ToolRegistry.get at h
  rcases hd : E.toolRegistry.definitions.get? step.toolId with _ | definition
  · simp only [hd, bind, Except.bind] at h
    cases h
  · exact ⟨definition, rfl⟩

/-- How a round of the retry loop ends that began after `n` calls. -/
def RoundEnds (failures n : ℕ) (ended : AttemptEnd) (n' : ℕ) : Prop :=
  n' = n + 1 ∧ match ended with
    | .done result => result.success = true ∧ n = failures
    | .retry _ => n < failures

section Guards

variable (htool : FailsFirst tool failures) (hpasses : E.Passes a.request a.step)
  (hpayload : a.step.payload.isObject)

include htool

theorem served_callTool {n : ℕ} (hn : n ≤ failures) {definition : ToolDefinition}
    (hdefined : E.toolRegistry.definitions.get? a.step.toolId = some definition) (attempt : ℤ)
    (payload : Json) :
    StepServed a tool (RoundEnds failures n) (E.callTool a attempt payload) n := by
  refine Served.bind (Q := fun _ n' => n' = n) (fun _ n' hn' => ?_) served_mark
  subst hn'
  refine Served.bind (fun result n' hresult => ?_) (served_invokeTool _ _)
  obtain ⟨rfl, rfl⟩ := hresult
  refine Served.bind (Q := fun _ n'' => n'' = n' + 1) (fun _ n'' hn'' => ?_) served_logStepEvent
  subst hn''
  rcases Nat.lt_or_eq_of_le hn with hlt | rfl
  · obtain ⟨hfailed, hretry⟩ := toolResult_transient hdefined
      (htool.transient (n' + 1) (Nat.le_add_left 1 n') hlt)
      (if a.step.timeoutSeconds > 0 then a.step.timeoutSeconds
        else a.control.defaultStepTimeoutSeconds)
    rw [hfailed, hretry]
    refine Served.bind (Q := fun _ n'' => n'' = n' + 1) (fun _ n'' hn'' => ?_)
      (served_failAttempt _ _)
    subst hn''
    exact Served.pure ⟨rfl, hlt⟩
  · obtain ⟨data, hdata⟩ := htool.returns
    rw [hdata, if_pos (toolResult_returned hdefined)]
    refine Served.bind (Q := fun _ n'' => n'' = n' + 1) (fun _ n'' hn'' => ?_)
      (served_markStepSuccess _ _)
    subst hn''
    refine Served.bind (Q := fun _ n'' => n'' = n' + 1) (fun _ n'' hn'' => ?_)
      (served_saveSnapshot _ _)
    subst hn''
    exact Served.pure ⟨rfl, toolResult_returned hdefined, rfl⟩

include hpasses hpayload

theorem served_runAttempt {n : ℕ} (hn : n ≤ failures) (attempt : ℤ) :
    StepServed a tool (RoundEnds failures n) (E.runAttempt a attempt) n := by
  obtain ⟨payload, hbuild⟩ : ∃ payload, buildPayloadWithContext a.context a.step = .ok payload := by
    unfold buildPayloadWithContext
    rcases hp : a.step.payload <;> rw [hp] at hpayload <;> first | exact ⟨_, rfl⟩ | cases hpayload
  have hschema := hpasses.schema _ _ hbuild
  obtain ⟨definition, hdefined⟩ := registered_of_checkSchema hschema
  refine Served.bind (Q := fun _ n' => n' = n) (fun _ n' hn' => ?_) served_mark
  subst hn'
  refine Served.bind (Q := fun _ n'' => n'' = n') (fun _ n'' hn'' => ?_) (served_saveSnapshot _ _)
  subst hn''
  refine Served.bind (fun policy n' hpolicy => ?_) (served_lift hpasses.policy)
  obtain ⟨rfl, rfl⟩ := hpolicy
  refine Served.bind (fun built n'' hbuilt => ?_) (served_lift hbuild)
  obtain ⟨rfl, rfl⟩ := hbuilt
  refine Served.bind (fun checked n' hchecked => ?_) (served_lift hschema)
  obtain ⟨rfl, rfl⟩ := hchecked
  exact served_callTool htool hn hdefined attempt _

/-- The loop has rounds enough left for the failures to come. -/
theorem served_attemptLoop : ∀ (remaining n : ℕ) (attempt : ℤ) (last : Option ToolResult),
    n ≤ failures → failures < n + remaining →
      StepServed a tool (fun result n' => result.success = true ∧ n' = failures + 1)
        (E.attemptLoop a remaining attempt last) n
  | 0, _, _, _, hn, hlt => absurd hlt (by omega)
  | remaining + 1, n, attempt, _, hn, hlt => by
    refine Served.bind (Q := fun cancelled n' => n' = n ∧ cancelled = false)
      (fun cancelled n' h => ?_) (served_read fun answer w hw => ⟨false, hw.calm, rfl⟩)
    obtain ⟨rfl, rfl⟩ := h
    refine Served.bind (fun ended n'' hended => ?_)
      (served_runAttempt htool hpasses hpayload hn attempt)
    obtain ⟨rfl, hended⟩ := hended
    cases ended with
    | done result => exact Served.pure ⟨hended.1, by rw [hended.2]⟩
    | retry result => exact served_attemptLoop remaining _ _ _ hended (by omega)

/-- The thread of a step whose tool was not called ends with a success, after one call more than
fail. -/
theorem served_executeSingleStep (hretry : (failures : ℤ) ≤ E.maxRetryAttempts) :
    StepServed a tool (fun result n => result.success = true ∧ n = failures + 1)
      (E.executeSingleStep a) 0 := by
  refine Served.bind (Q := fun skip n => n = 0 ∧ skip = false) (fun skip n h => ?_)
    (served_read fun answer w hw => ⟨false, ?_, rfl⟩)
  · obtain ⟨rfl, rfl⟩ := h
    refine served_attemptLoop htool hpasses hpayload _ 0 _ _ (Nat.zero_le _) ?_
    unfold maxAttempts
    omega
  · obtain ⟨step, hstep⟩ := Option.isSome_iff_exists.mp hw.entry
    have hstatus : step.status ≠ .success := fun h => hw.fresh rfl ⟨step, hstep, h⟩
    simp only [shouldSkipStep, getStep_eq hstep, bind, Except.bind, pure, Except.pure, hstatus,
      decide_false, Bool.false_and]

end Guards

end Step

/-! ## Runs -/

/-- An action of the executor, with the tools answering by themselves. -/
inductive Turn
  | loop (now : ℚ)
  | thread (index : ℕ)
  | collect (index : ℕ)
  | fold

/-- The threads of the batch at hand. -/
def Phase.threads : Phase → List Thread
  | .batch threads _ => threads
  | _ => []

/-- What a thread is answered: its step's tool replies to its latest call. -/
def Config.answer (tool : String → ℕ → ToolReply) (c : Config) (index : ℕ) : Answer :=
  match c.phase.threads[index]? with
  | some thread =>
    { reply := tool thread.step.stepId (invocations thread.step.stepId c.world.trace) }
  | none => {}

def Turn.action (tool : String → ℕ → ToolReply) (c : Config) : Turn → Action
  | .loop now => .loop now
  | .thread index => .thread index (c.answer tool index)
  | .collect index => .collect index
  | .fold => .fold

/-- No round of the loop finds the session timed out. -/
def Turn.inTime (c : Config) : Turn → Bool
  | .loop now => !c.world.control.isSessionTimedOut now
  | _ => true

/-- Takes the turns one after the other; `none` if one of them is not enabled or comes too late. -/
def Executor.runTurns (E : Executor) (tool : String → ℕ → ToolReply) (request : AgentRequest) :
    Config → List Turn → Option Config
  | c, [] => some c
  | c, turn :: turns =>
    if turn.inTime c then
      match c.step E request (turn.action tool c) with
      | some c' => runTurns E tool request c' turns
      | none => none
    else none

namespace Config

theorem completeAll_replanHistory : ∀ (os : List StepOutcome) (c : Config),
    (c.completeAll os).replanHistory = c.replanHistory
  | [], _ => rfl
  | o :: os, c => completeAll_replanHistory os (c.complete o)

end Config

section Masked

variable {E : Executor} {call : Call} {store : InMemoryStateStore}
  {tool : String → ℕ → ToolReply} {failures : String → ℕ} {hist : List Event}
  {initial : String → Prop} {solo clean : Prop} {tools : List String} {c c' : Config}

theorem invocations_append_of_ne {stepId : String} {trace es : List Event}
    (h : ∀ e ∈ es, e.stepId ≠ stepId) :
    invocations stepId (trace ++ es) = invocations stepId trace := by
  unfold invocations
  rw [List.countP_append, Nat.add_eq_left, List.countP_eq_zero]
  intro e he
  cases e with
  | invoke sid step payload => simpa [Event.stepId] using h _ he
  | markStepSuccess sid id key => simp

theorem invocations_pos {stepId sid : String} {trace : List Event}
    (h : Invoked trace sid stepId) : 0 < invocations stepId trace := by
  obtain ⟨step, payload, hmem, hid⟩ := h
  exact List.countP_pos_iff.mpr ⟨_, hmem, by simpa using hid⟩

theorem invocations_le_append (stepId : String) (trace es : List Event) :
    invocations stepId trace ≤ invocations stepId (trace ++ es) := by
  unfold invocations
  rw [List.countP_append]
  omega

/-- A step that a thread's action leaves `SUCCESS` was so before, or its tool was called. -/
theorem Moves.fresh {a : StepArgs} {P : Prop} {w w' : World}
    (h : Moves a solo clean w w') {id : String}
    (hold : w.store.Succeeded a.plan.sessionId id → P ∨ 0 < invocations id w.trace)
    (hnew : w'.store.Succeeded a.plan.sessionId id) : P ∨ 0 < invocations id w'.trace := by
  by_cases hbefore : w.store.Succeeded a.plan.sessionId id
  · obtain ⟨es, he, -⟩ := h.trace
    rw [he]
    exact (hold hbefore).imp_right fun hpos => hpos.trans_le (invocations_le_append id _ es)
  · by_cases hid : id = a.step.stepId
    · subst hid
      refine .inr ?_
      cases h with
      | silent hframe hsuccess =>
        obtain ⟨step, hs, hstatus⟩ := hnew
        exact absurd ⟨step, hsuccess step hs hstatus, hstatus⟩ hbefore
      | invoke payload _ =>
        have hinvoked : Invoked (w.trace ++ [.invoke a.plan.sessionId a.step payload])
            a.plan.sessionId a.step.stepId := ⟨a.step, payload, by simp, rfl⟩
        exact invocations_pos hinvoked
      | mark _ _ _ _ hinvoked => exact invocations_pos (hinvoked.append _)
    · exact absurd ((h.frame.succeeded fun hp => hid hp.2).mp hnew) hbefore

/-- The thread goes on to a success, from the calls its tool has had. -/
def ThreadServed (tool : String → ℕ → ToolReply) (failures : String → ℕ) (c : Config)
    (thread : Thread) : Prop :=
  ∃ a : StepArgs, a.plan = c.plan ∧ a.step = thread.step
    ∧ StepServed a (tool thread.step.stepId)
      (fun result n => result.success = true ∧ n = failures thread.step.stepId + 1) thread.prog
      (invocations thread.step.stepId c.world.trace)

/-- Nothing has gone wrong where the main thread is. -/
def Phase.Masked (tool : String → ℕ → ToolReply) (failures : String → ℕ) (c : Config) :
    Phase → Prop
  | .looping => c.world.isCancelled c.plan.sessionId = .ok false
  | .batch threads _ => c.world.isCancelled c.plan.sessionId = .ok false
      ∧ ∀ thread ∈ threads, ThreadServed tool failures c thread
  | .returned result => result.success = true ∧ result.replanHistory = []
  | .raised _ => False

/-- No failure shows: the plan is the one of the call, and the steps that it has completed, other
than those that were `SUCCESS` before, had one call more than fail. -/
structure Masked (call : Call) (store : InMemoryStateStore) (tool : String → ℕ → ToolReply)
    (failures : String → ℕ) (c : Config) : Prop where
  plan : c.plan = call.plan
  replanHistory : c.replanHistory = []
  initial : ∀ id, store.Succeeded call.plan.sessionId id → id ∈ c.completed
  calls : ∀ id, (∀ thread ∈ c.phase.threads, thread.step.stepId ≠ id) →
    invocations id c.world.trace
      = if id ∈ c.completed ∧ ¬ store.Succeeded call.plan.sessionId id then failures id + 1 else 0
  fresh : ∀ id, c.world.store.Succeeded call.plan.sessionId id →
    id ∈ c.completed ∨ 0 < invocations id c.world.trace
  phase : c.phase.Masked tool failures c

theorem Masked.loop (hplan : Planner.Accepted call.plan tools)
    (hpasses : ∀ step ∈ call.plan.steps, E.Passes call.request step)
    (htool : ∀ step ∈ call.plan.steps, FailsFirst (tool step.stepId) (failures step.stepId)
      ∧ (failures step.stepId : ℤ) ≤ E.maxRetryAttempts)
    (h : Inv call hist initial solo clean c) (hm : Masked call store tool failures c)
    (hphase : c.phase = .looping) {now : ℚ}
    (htime : c.world.control.isSessionTimedOut now = false) :
    Masked call store tool failures (c.loop E call.request now) := by
  have hcalm : c.world.isCancelled c.plan.sessionId = .ok false := by
    have := hm.phase
    rwa [hphase] at this
  have hcalls : ∀ id, invocations id c.world.trace = if id ∈ c.completed
      ∧ ¬ store.Succeeded call.plan.sessionId id then failures id + 1 else 0 := by
    refine fun id => hm.calls id ?_
    simp [hphase, Phase.threads]
  unfold Config.loop
  rw [hcalm]
  simp only [htime, Bool.false_eq_true, if_false]
  by_cases hpending : c.pendingSteps = []
  · obtain ⟨store', hp, he⟩ := c.succeed_eq (h.sessionId ▸ h.hasSession)
    simp only [hpending, List.isEmpty_nil, if_true, he]
    refine ⟨hm.plan, hm.replanHistory, hm.initial, fun id _ => hcalls id, fun id hid => ?_,
      rfl, hm.replanHistory⟩
    obtain ⟨step, hstep, hsuccess⟩ := hid
    exact hm.fresh id ⟨step, (hp.step _ id).symm.trans hstep, hsuccess⟩
  · have hready : c.readySteps ≠ [] := by
      obtain ⟨step, hmem⟩ := List.exists_mem_of_ne_nil _ hpending
      rw [Config.mem_pendingSteps, hm.plan] at hmem
      obtain ⟨ready, hr, hnot, hdeps⟩ := hplan.exists_ready (· ∈ c.completed) ⟨step, hmem⟩
      exact List.ne_nil_of_mem (Config.mem_readySteps.mpr ⟨⟨hm.plan ▸ hr, hnot⟩, hdeps⟩)
    rw [if_neg (by simpa using hpending), if_neg (by simpa using hready)]
    refine ⟨hm.plan, hm.replanHistory, hm.initial, fun id _ => hcalls id, hm.fresh, hcalm,
      fun thread hthread => ?_⟩
    obtain ⟨step, hs, rfl⟩ := List.mem_map.mp hthread
    have hready' := Config.mem_readySteps.mp ((sliceTo_sublist _ _).subset hs)
    have hmem : step ∈ call.plan.steps := hm.plan ▸ hready'.1.1
    refine ⟨⟨c.plan, step, call.request, c.context, c.world.control⟩, rfl, rfl, ?_⟩
    have hzero : invocations step.stepId c.world.trace = 0 := by
      rw [hcalls, if_neg fun hin => hready'.1.2 hin.1]
    show StepServed _ _ _ (E.executeSingleStep _) (invocations step.stepId c.world.trace)
    rw [hzero]
    exact served_executeSingleStep (htool step hmem).1 (hpasses step hmem)
      (hplan.fields step hmem).payload (htool step hmem).2

/-- A thread that was served stays so while another step is at work. -/
theorem ThreadServed.of_trace {thread : Thread} (h : ThreadServed tool failures c thread)
    (hplan : c'.plan = c.plan)
    (htrace : invocations thread.step.stepId c'.world.trace
      = invocations thread.step.stepId c.world.trace) : ThreadServed tool failures c' thread := by
  obtain ⟨a, ha, hstep, hserved⟩ := h
  exact ⟨a, ha.trans hplan.symm, hstep, htrace ▸ hserved⟩

/-- A thread that has ended has succeeded, after one call more than fail. -/
theorem ThreadServed.result {thread : Thread} (h : ThreadServed tool failures c thread)
    {result : ToolResult} (hresult : thread.result? = some result) :
    result.success = true ∧ invocations thread.step.stepId c.world.trace
      = failures thread.step.stepId + 1 := by
  obtain ⟨a, -, -, hserved⟩ := h
  unfold Thread.result? at hresult
  rcases hprog : thread.prog with r | x | ⟨upd, next⟩ <;> rw [hprog] at hserved hresult <;>
    cases hresult
  · exact hserved
  · exact hserved.elim

theorem Masked.served (hm : Masked call store tool failures c) {threads : List Thread}
    {results : Dict String StepOutcome} (hphase : c.phase = .batch threads results) :
    c.world.isCancelled c.plan.sessionId = .ok false
      ∧ ∀ thread ∈ threads, ThreadServed tool failures c thread := by
  have := hm.phase
  rwa [hphase] at this

/-- The calls of the steps that no thread is at work on, whatever has become of the threads. -/
theorem Masked.calls_of_steps (hm : Masked call store tool failures c)
    {threads threads' : List Thread} {results : Dict String StepOutcome}
    (hphase : c.phase = .batch threads results)
    {id : String} (hid : ∀ thread ∈ threads', thread.step.stepId ≠ id)
    (hsteps : threads'.map Thread.step = threads.map Thread.step) :
    (∀ thread ∈ threads, thread.step.stepId ≠ id) ∧ invocations id c.world.trace
      = if id ∈ c.completed ∧ ¬ store.Succeeded call.plan.sessionId id then failures id + 1
        else 0 := by
  have hnot : ¬ ∃ thread ∈ threads, thread.step.stepId = id := by
    rw [← exists_step_iff hsteps]
    push Not
    exact hid
  push Not at hnot
  exact ⟨hnot, hm.calls id (by simpa [hphase, Phase.threads] using hnot)⟩

/-- What a thread of the batch is answered is fair to it. -/
theorem Masked.fair (h : Inv call hist initial solo clean c)
    (hm : Masked call store tool failures c) {threads : List Thread}
    {results : Dict String StepOutcome} (hphase : c.phase = .batch threads results) {i : ℕ}
    {thread : Thread} (hi : threads[i]? = some thread) {a : StepArgs} (hplan : a.plan = c.plan)
    (hstep : a.step = thread.step) :
    Fair a (tool thread.step.stepId) (invocations thread.step.stepId c.world.trace)
      (c.answer tool i) c.world := by
  have hready := Config.mem_readySteps.mp
    ((h.batch hphase).mem_readySteps (List.mem_of_getElem? hi))
  have hsid : a.plan.sessionId = call.plan.sessionId := hplan ▸ h.sessionId
  have hanswer : c.answer tool i
      = ⟨tool thread.step.stepId (invocations thread.step.stepId c.world.trace), none⟩ := by
    unfold Config.answer
    simp only [hphase, Phase.threads, hi]
  refine ⟨hplan ▸ (hm.served hphase).1, ?_, fun hzero hsucceeded => ?_, by rw [hanswer],
    by rw [hanswer]⟩
  · rw [hsid, hstep]
    exact h.registered _ (ExecutionPlan.mem_stepIds hready.1.1)
  · rw [hsid, hstep] at hsucceeded
    rcases hm.fresh _ hsucceeded with hcompleted | hpos
    · exact hready.1.2 hcompleted
    · omega

theorem Masked.thread (hd : call.plan.stepIds.Nodup)
    (h : Inv call hist initial solo clean c) (hm : Masked call store tool failures c)
    {threads : List Thread} {results : Dict String StepOutcome}
    (hphase : c.phase = .batch threads results) {i : ℕ} {thread : Thread}
    (hi : threads[i]? = some thread) {upd : Answer → World → World}
    {next : Answer → World → StepProg ToolResult} (hprog : thread.prog = .act upd next) :
    Masked call store tool failures { c with
      world := upd (c.answer tool i) c.world
      phase := .batch (threads.set i { thread with prog := next (c.answer tool i) c.world })
        results } := by
  have hb := h.batch hphase
  have hmem := List.mem_of_getElem? hi
  obtain ⟨hcalm, hthreads⟩ := hm.served hphase
  obtain ⟨a, hplan, hstep, hserved⟩ := hthreads thread hmem
  obtain ⟨a', hplan', hstep', hsafe⟩ := hb.safe i thread hi
  rw [hprog] at hsafe hserved
  have hmove := (hsafe c.world (Std.Refl.refl _) (c.answer tool i)).1
  obtain ⟨n, hcounts, hnext⟩ :=
    hserved (c.answer tool i) c.world (hm.fair h hphase hi hplan hstep)
  have hcount : invocations thread.step.stepId (upd (c.answer tool i) c.world).trace = n := by
    have := hcounts.invocations
    rw [hstep] at this
    omega
  have hother : ∀ id, id ≠ thread.step.stepId →
      invocations id (upd (c.answer tool i) c.world).trace = invocations id c.world.trace := by
    intro id hne
    obtain ⟨es, he, hes⟩ := hmove.trace
    rw [he]
    refine invocations_append_of_ne fun e hm => ?_
    rw [(hes e hm).2, hstep']
    exact hne.symm
  refine ⟨hm.plan, hm.replanHistory, hm.initial, fun id hid => ?_, fun id hid => ?_,
    hplan ▸ hcounts.calm (hplan ▸ hcalm), fun t ht => ?_⟩
  · obtain ⟨hnot, hcalls⟩ := hm.calls_of_steps hphase hid (map_set_eq hi rfl)
    exact (hother id (hnot thread hmem).symm).trans hcalls
  · have hsid : a'.plan.sessionId = call.plan.sessionId := hplan' ▸ h.sessionId
    exact hmove.fresh (hsid ▸ hm.fresh id) (hsid ▸ hid)
  · obtain ⟨j, hj⟩ := List.mem_iff_getElem?.mp ht
    by_cases hij : i = j
    · subst hij
      rw [List.getElem?_set_self (List.getElem?_eq_some_iff.mp hi).1] at hj
      cases hj
      exact ⟨a, hplan, hstep, hcount ▸ hnext⟩
    · rw [List.getElem?_set_ne hij] at hj
      refine (hthreads t (List.mem_of_getElem? hj)).of_trace rfl (hother _ ?_)
      exact hb.ne_of_ne (hm.plan ▸ hd) hj hi (Ne.symm hij)

theorem Masked.collect (hm : Masked call store tool failures c) {threads : List Thread}
    {results : Dict String StepOutcome} (hphase : c.phase = .batch threads results) {i : ℕ}
    {thread : Thread} (hi : threads[i]? = some thread) (results' : Dict String StepOutcome) :
    Masked call store tool failures { c with
      phase := .batch (threads.set i { thread with collected := true }) results' } := by
  obtain ⟨hcalm, hthreads⟩ := hm.served hphase
  refine ⟨hm.plan, hm.replanHistory, hm.initial, fun id hid => ?_, hm.fresh, hcalm,
    fun t ht => ?_⟩
  · exact (hm.calls_of_steps hphase hid (map_set_eq hi rfl)).2
  · rcases List.mem_or_eq_of_mem_set ht with ht | rfl
    · exact hthreads t ht
    · exact hthreads thread (List.mem_of_getElem? hi)

theorem Masked.fold (h : Inv call hist initial solo clean c)
    (hm : Masked call store tool failures c) {threads : List Thread}
    {results : Dict String StepOutcome} (hphase : c.phase = .batch threads results)
    (hall : threads.all (·.collected)) {os : List StepOutcome}
    (hos : Config.orderedResults results threads = .ok os) :
    Masked call store tool failures (Config.foldOutcomes E c os) := by
  have hb := h.batch hphase
  obtain ⟨hof, hto⟩ := h.outcomes hphase hall hos
  obtain ⟨hcalm, hthreads⟩ := hm.served hphase
  have houtcome : ∀ o ∈ os, o.result.success = true ∧ o.step.stepId ∉ c.completed
      ∧ invocations o.step.stepId c.world.trace = failures o.step.stepId + 1 := by
    intro o ho
    obtain ⟨thread, hmem, -, hstep, -, hresult⟩ := hb.outcome _ o (hof o ho)
    obtain ⟨hsuccess, hcount⟩ := (hthreads thread hmem).result hresult
    rw [← hstep]
    exact ⟨hsuccess, (Config.mem_readySteps.mp (hb.mem_readySteps hmem)).1.2, hcount⟩
  have hstep := h.foldStep hphase hall hos E
  generalize Config.foldOutcomes E c os = c₁ at hstep
  cases hstep with
  | completed hsucc =>
    refine ⟨(Config.completeAll_plan os c).trans hm.plan, ?_, fun id hid => ?_, fun id _ => ?_,
      fun id hid => ?_, ?_⟩
    · exact (Config.completeAll_replanHistory os c).trans hm.replanHistory
    · exact Config.mem_completeAll.mpr (.inl (hm.initial id hid))
    · show invocations id (c.completeAll os).world.trace = if id ∈ (c.completeAll os).completed
        ∧ ¬ store.Succeeded call.plan.sessionId id then failures id + 1 else 0
      simp only [Config.completeAll_world, Config.mem_completeAll]
      by_cases hin : ∃ o ∈ os, o.step.stepId = id
      · obtain ⟨o, ho, rfl⟩ := hin
        obtain ⟨-, hnot, hcount⟩ := houtcome o ho
        rw [hcount, if_pos ⟨.inr ⟨o, ho, rfl⟩, fun hold => hnot (hm.initial _ hold)⟩]
      · have hcalls := hm.calls id (by
          simp only [hphase, Phase.threads]
          rintro thread hmem rfl
          obtain ⟨o, ho, hget⟩ := hto thread hmem
          exact hin ⟨o, ho, (h.outcome hb hget).1⟩)
        simpa only [hin, or_false] using hcalls
    · show id ∈ (c.completeAll os).completed ∨ 0 < invocations id (c.completeAll os).world.trace
      rw [Config.completeAll_world]
      have hfresh := hm.fresh id (by simpa using hid)
      exact hfresh.imp_left fun hold => Config.mem_completeAll.mpr (.inl hold)
    · show (c.completeAll os).world.isCancelled (c.completeAll os).plan.sessionId = .ok false
      rw [Config.completeAll_world, Config.completeAll_plan]
      exact hcalm
  | @replanned done rest o _ _ hsplit _ ho _ _ _ =>
    have hsuccess := (houtcome o (by simp [hsplit])).1
    simp [ho] at hsuccess
  | @failed done rest o _ hsplit _ ho _ _ =>
    have hsuccess := (houtcome o (by simp [hsplit])).1
    simp [ho] at hsuccess

theorem Masked.step (hplan : Planner.Accepted call.plan tools)
    (hpasses : ∀ step ∈ call.plan.steps, E.Passes call.request step)
    (htool : ∀ step ∈ call.plan.steps, FailsFirst (tool step.stepId) (failures step.stepId)
      ∧ (failures step.stepId : ℤ) ≤ E.maxRetryAttempts)
    (h : Inv call hist initial solo clean c) (hm : Masked call store tool failures c) {turn : Turn}
    (htime : turn.inTime c = true)
    (hs : c.step E call.request (turn.action tool c) = some c') :
    Masked call store tool failures c' := by
  cases turn with
  | loop now =>
    cases Config.takes_of_step hs with
    | loop hphase _ =>
      exact hm.loop hplan hpasses htool h hphase (by simpa [Turn.inTime] using htime)
  | thread i =>
    cases Config.takes_of_step hs with
    | thread hphase hi hprog _ => exact hm.thread hplan.nodup h hphase hi hprog
  | collect i =>
    cases Config.takes_of_step hs with
    | collect hphase hi _ _ => exact hm.collect hphase hi _
  | fold =>
    cases Config.takes_of_step hs with
    | fold hphase hall hos => exact hm.fold h hphase hall hos
    | foldRaises hphase hall hos => exact absurd hos (h.orderedResults_ne_error hphase hall _)

theorem Masked.runTurns (hplan : Planner.Accepted call.plan tools)
    (hpasses : ∀ step ∈ call.plan.steps, E.Passes call.request step)
    (htool : ∀ step ∈ call.plan.steps, FailsFirst (tool step.stepId) (failures step.stepId)
      ∧ (failures step.stepId : ℤ) ≤ E.maxRetryAttempts) :
    ∀ {turns : List Turn} {c c' : Config}, Inv call hist initial True False c →
      Masked call store tool failures c → E.runTurns tool call.request c turns = some c' →
        Inv call hist initial True False c' ∧ Masked call store tool failures c'
  | [], _, _, h, hm, hrun => by
    cases hrun
    exact ⟨h, hm⟩
  | turn :: turns, c, _, h, hm, hrun => by
    rw [Executor.runTurns] at hrun
    split_ifs at hrun with htime
    rcases hs : c.step E call.request (turn.action tool c) with _ | c₁ <;> rw [hs] at hrun
    · cases hrun
    · have hnodup : c.plan.stepIds.Nodup := by
        rw [hm.plan]
        exact hplan.nodup
      exact Masked.runTurns hplan hpasses htool (h.step (fun _ => hnodup) False.elim hs)
        (hm.step hplan hpasses htool h htime hs) hrun

theorem Masked.start (tool : String → ℕ → ToolReply) (failures : String → ℕ) {c₀ : Config}
    (hstart : Executor.start call store = .ok c₀) (hs : Starts call store c₀)
    (hcontrol : call.control.cancelRequested = false)
    (hsession : (store.sessions.get? call.plan.sessionId).any (·.cancelRequested) = false) :
    Masked call store tool failures c₀ := by
  obtain ⟨store₁, store₂, hinit, hstatus, hworld, hhistory⟩ := start_ok hstart
  refine ⟨hs.plan, hhistory, fun id hid => (hs.completed id).mpr hid, fun id _ => ?_,
    fun id hid => .inl ((hs.completed id).mpr ((start_ops hstart).succeeded.mp hid)), ?_⟩
  · rw [hs.trace, if_neg fun h => h.2 ((hs.completed id).mp h.1)]
    rfl
  · rw [hs.phase]
    have hflag : store₂.isCancelRequested call.plan.sessionId = .ok false := by
      rw [calm_modifySession hstatus fun _ => rfl, initSession_isCancelRequested hinit, hsession]
    show c₀.world.isCancelled c₀.plan.sessionId = .ok false
    rw [hworld, hs.plan]
    unfold World.isCancelled ExecutionControl.isCancelled
    simpa [hcontrol] using hflag

end Masked

end AgentLearning
