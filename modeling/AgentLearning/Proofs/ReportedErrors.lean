import AgentLearning.Application
import AgentLearning.Proofs.Protocol

/-!
# Every failure is reported

An envelope is a success without an error or a failure whose error has a code and a message. It is
enough that the tools and the audit log, and the validator where it rejects, say something: the
executor's own failures and the exceptions of the store have texts, and what the store keeps of a
step is a success. So whatever the schedule, a result that `execute` returns is one or the other.

All of it is stated under `named`, the assumption that what comes from outside says something;
without it a failure may have any error, and what is left is that the store keeps successes only.
-/

namespace AgentLearning

open InMemoryStateStore Executor

theorem append_ne_empty {s t : String} (h : s ≠ "") : s ++ t ≠ "" := by
  simp [h]

/-- A success without an error, or a failure whose error has a code and a message. -/
def Reports (named : Prop) (success : Bool) (error : Option StepError) : Prop :=
  if success then error = none
  else named → ∃ e, error = some e ∧ e.code ≠ "" ∧ e.message ≠ ""

def ToolResult.Reported (named : Prop) (result : ToolResult) : Prop :=
  Reports named result.success result.error

theorem ToolResult.reported_failure {named : Prop} {code message : String} {retryable : Bool}
    (hcode : named → code ≠ "") (hmessage : named → message ≠ "") :
    (ToolResult.failure code message retryable).Reported named :=
  fun hnamed => ⟨_, rfl, hcode hnamed, hmessage hnamed⟩

theorem ToolResult.Reported.error_eq_none {named : Prop} {result : ToolResult}
    (h : result.Reported named) (hsuccess : result.success = true) : result.error = none := by
  unfold ToolResult.Reported Reports at h
  rwa [if_pos hsuccess] at h

/-! ## What comes from outside -/

def ToolReply.Named : ToolReply → Prop
  | .executionError code message _ => code ≠ "" ∧ message ≠ ""
  | .exception message => message ≠ ""
  | _ => True

structure Answer.Named (answer : Answer) : Prop where
  reply : answer.reply.Named
  audit : answer.auditError ≠ some ""

def ValidationFailure.text : ValidationFailure → String
  | .contract message => message
  | .other error => error.str

/-- The validator says why it rejects. -/
def Executor.NamesFailures (E : Executor) : Prop :=
  ∀ path payload failure, E.validate path payload = some failure → failure.text ≠ ""

/-! ## What the store keeps -/

/-- The results of the steps in the store are successes without an error. -/
def KeepsSuccesses (σ : InMemoryStateStore) : Prop :=
  ∀ sid id step result, σ.step? sid id = some step → step.result = some result →
    result.success = true ∧ result.error = none

section KeepsSuccesses

variable {σ σ' : InMemoryStateStore}

theorem KeepsSuccesses.of_step_eq (h : KeepsSuccesses σ)
    (hstep : ∀ t id, σ'.step? t id = σ.step? t id) : KeepsSuccesses σ' :=
  fun t id step result hs => h t id step result ((hstep t id).symm.trans hs)

theorem KeepsSuccesses.mainOp (h : KeepsSuccesses σ) (hop : MainOp σ σ') : KeepsSuccesses σ' := by
  rcases hop.registers_or_step_eq with ⟨sid, steps, hr⟩ | hstep
  · intro t id step result hs hresult
    rcases hold : σ.step? t id with _ | old
    · obtain ⟨-, d, -, -, rfl⟩ := hr.fresh t id step hold hs
      cases hresult
    · rw [hr.keep t id old hold] at hs
      cases hs
      exact h t id _ result hold hresult
  · exact h.of_step_eq hstep

theorem KeepsSuccesses.mainOps (h : KeepsSuccesses σ) (hops : MainOps σ σ') :
    KeepsSuccesses σ' := by
  induction hops with
  | refl => exact h
  | tail _ hop ih => exact ih.mainOp hop

theorem KeepsSuccesses.modifyStep (h : KeepsSuccesses σ) {sid id : String}
    {f : StepState → StepState} (hs : σ.modifyStep sid id f = .ok σ')
    (hf : ∀ step result, (f step).result = some result →
      step.result = some result ∨ result.success = true ∧ result.error = none) :
    KeepsSuccesses σ' := by
  obtain ⟨step, hstep, hframe, hnew⟩ := modifyStep_ok hs
  intro t x step' result hs' hr
  by_cases hx : t = sid ∧ x = id
  · obtain ⟨rfl, rfl⟩ := hx
    rw [hnew] at hs'
    cases hs'
    rcases hf step result hr with hold | hresult
    · exact h _ _ step result hstep hold
    · exact hresult
  · rw [hframe.step t x hx] at hs'
    exact h t x step' result hs' hr

end KeepsSuccesses

/-! ## The exceptions of the store -/

theorem PyError.keyError_str_ne (message : String) : (PyError.keyError message).str ≠ "" := by
  simp [PyError.str]

theorem getSession_error_str {σ : InMemoryStateStore} {sid : String} {error : PyError}
    (h : σ.getSession sid = .error error) : error.str ≠ "" := by
  unfold getSession at h
  split at h <;> cases h
  exact PyError.keyError_str_ne _

theorem modifySession_error_str {σ : InMemoryStateStore} {sid : String}
    {f : SessionState → SessionState} {error : PyError}
    (h : σ.modifySession sid f = .error error) : error.str ≠ "" := by
  unfold modifySession at h
  rcases hs : σ.getSession sid with e | session <;> rw [hs] at h <;> cases h
  exact getSession_error_str hs

theorem getStep_error_str {σ : InMemoryStateStore} {sid id : String} {error : PyError}
    (h : σ.getStep sid id = .error error) : error.str ≠ "" := by
  unfold getStep at h
  rcases hs : σ.getSession sid with e | session <;> simp only [hs, bind, Except.bind] at h
  · cases h
    exact getSession_error_str hs
  · split at h <;> cases h
    exact PyError.keyError_str_ne _

theorem step?_of_getStep {σ : InMemoryStateStore} {sid id : String} {step : StepState}
    (h : σ.getStep sid id = .ok step) : σ.step? sid id = some step := by
  unfold getStep getSession at h
  rcases hs : σ.sessions.get? sid with _ | session <;> simp only [hs, bind, Except.bind] at h
  · cases h
  · rw [step?_eq hs]
    split at h <;> cases h
    assumption

theorem modifyStep_error_str {σ : InMemoryStateStore} {sid id : String}
    {f : StepState → StepState} {error : PyError}
    (h : σ.modifyStep sid id f = .error error) : error.str ≠ "" := by
  unfold InMemoryStateStore.modifyStep at h
  rcases hs : σ.getStep sid id with e | step <;> simp only [hs, bind, Except.bind] at h
  · cases h
    exact getStep_error_str hs
  · exact modifySession_error_str h

/-! ## One step -/

namespace Executor

open Prog (Follows)

variable {E : Executor} {a : StepArgs} {named : Prop}

/-- On a store that keeps successes, the program keeps it so and ends in `Q` or with an exception,
which has a text. -/
abbrev StepReports {α : Type} (named : Prop) (Q : α → Prop) (p : StepProg α) : Prop :=
  Follows (γ := Unit) (fun answer w => (named → answer.Named) ∧ KeepsSuccesses w.store)
    (fun _ w w' _ => KeepsSuccesses w.store → KeepsSuccesses w'.store)
    (fun error _ => named → error.str ≠ "") (fun a _ => Q a) p ()

theorem reports_onStore {f : InMemoryStateStore → Except PyError InMemoryStateStore}
    (hok : ∀ σ σ', f σ = .ok σ' → KeepsSuccesses σ → KeepsSuccesses σ')
    (herror : ∀ σ error, f σ = .error error → error.str ≠ "") :
    StepReports named (fun _ => True) (onStore f) := by
  refine Follows.atomic (fun answer w _ w' _ h => ?_) fun answer w x _ h => ?_
  all_goals rcases hs : f w.store with error | store <;> simp only [hs, bind, Except.bind] at h <;>
    cases h
  · exact ⟨(), hok _ _ hs, trivial⟩
  · exact ⟨(), id, fun _ => herror _ _ hs⟩

theorem reports_read {α : Type} {Q : α → Prop} {f : World → Except PyError α}
    (hok : ∀ w v, f w = .ok v → KeepsSuccesses w.store → Q v)
    (herror : ∀ w error, f w = .error error → error.str ≠ "") :
    StepReports named Q
      (.atomic fun world => do
        let v ← f world
        pure (v, world)) := by
  refine Follows.atomic (fun answer w v w' hw h => ?_) fun answer w x _ h => ?_
  all_goals rcases hs : f w with error | v <;> simp only [hs, bind, Except.bind] at h <;> cases h
  · exact ⟨(), id, hok _ _ hs hw.2⟩
  · exact ⟨(), id, fun _ => herror _ _ hs⟩

theorem reports_lift {α : Type} {e : Except PyError α}
    (herror : ∀ error, e = .error error → named → error.str ≠ "") :
    StepReports named (fun v => e = .ok v) (lift e) := by
  cases e with
  | ok v => exact rfl
  | error x => exact herror x rfl

/-- Marking the step with something that is not a result. -/
theorem reports_mark {sid id : String} {f : StepState → StepState}
    (hf : ∀ step, (f step).result = step.result) :
    StepReports named (fun _ => True) (onStore fun store => store.modifyStep sid id f) :=
  reports_onStore (fun _ _ hs h => h.modifyStep hs fun step _ hr => .inl ((hf step).symm.trans hr))
    fun _ _ => modifyStep_error_str

theorem reports_saveSnapshot (plan : ExecutionPlan) (stepId : String) (phase : SnapshotPhase)
    (payload : SnapshotPayload) :
    StepReports named (fun _ => True) (saveSnapshot plan stepId phase payload) := by
  refine Follows.bind (Q := fun _ _ => True) (fun snapshot _ _ => ?_) (reports_read ?_ ?_)
  · exact reports_onStore (fun _ _ hs h => h.of_step_eq (saveSnapshot_step_eq hs))
      fun _ _ => modifySession_error_str
  · exact fun _ _ _ _ => trivial
  · intro w error h
    rcases hs : w.store.getSession plan.sessionId with e | session <;>
      simp only [hs, bind, Except.bind] at h <;> cases h
    exact getSession_error_str hs

theorem reports_failAttempt (plan : ExecutionPlan) (step : PlanStep) (attempt : ℤ)
    (result : ToolResult) :
    StepReports named (fun _ => True) (failAttempt plan step attempt result) :=
  Follows.bind (fun _ _ _ => reports_saveSnapshot _ _ _ _) (reports_mark fun _ => rfl)

theorem reports_isCancelled (sid : String) :
    StepReports named (fun _ => True) (isCancelled sid) := by
  refine reports_read (fun _ _ _ _ => trivial) fun w error h => ?_
  unfold World.isCancelled at h
  split_ifs at h
  unfold isCancelRequested at h
  rcases hs : w.store.getSession sid with e | session <;>
    simp only [hs, bind, Except.bind] at h <;> cases h
  exact getSession_error_str hs

/-- The envelope of a reply that says something. -/
theorem toolResult_reported (E : Executor) (toolId : String) (timeoutSeconds : ℤ)
    {reply : ToolReply} (h : named → reply.Named) :
    (E.toolResult toolId timeoutSeconds reply).Reported named := by
  unfold toolResult ToolRegistry.invoke ToolRegistry.get
  rcases E.toolRegistry.definitions.get? toolId with _ | definition
  · exact ToolResult.reported_failure (fun _ => by decide) fun _ => append_ne_empty (by decide)
  · cases reply with
    | returned data => exact rfl
    | executionError code message retryable =>
      exact ToolResult.reported_failure (fun hn => (h hn).1) fun hn => (h hn).2
    | exception message => exact ToolResult.reported_failure (fun _ => by decide) h
    | timeout =>
      exact ToolResult.reported_failure (fun _ => by decide)
        fun _ => append_ne_empty (append_ne_empty (by decide))

theorem reports_invokeTool (plan : ExecutionPlan) (step : PlanStep) (payload : Json)
    (timeoutSeconds : ℤ) : StepReports named (ToolResult.Reported named)
      (E.invokeToolWithTimeout plan step payload timeoutSeconds) := by
  refine Follows.bind (Q := fun _ _ => True) (fun _ _ _ => ?_) ?_
  · refine Follows.await (fun _ => id) (fun answer _ result hw h => ?_) fun _ _ _ _ h => by cases h
    cases h
    exact toolResult_reported E _ _ fun hnamed => (hw.1 hnamed).reply
  · refine Follows.atomic (fun _ w _ w' _ h => ?_) fun _ _ _ _ h => by cases h
    cases h
    exact ⟨(), id, trivial⟩

theorem reports_logStepEvent : StepReports named (fun _ => True) logStepEvent := by
  refine Follows.await (fun _ => id) (fun _ _ _ _ _ => trivial) fun answer w x hw h hnamed => ?_
  have haudit := (hw.1 hnamed).audit
  rcases he : answer.auditError with _ | message <;> rw [he] at h haudit <;> cases h
  simpa [PyError.str] using haudit

theorem reports_markStepSuccess {result : ToolResult} (hsuccess : result.success = true)
    (herror : result.error = none) (key : String) :
    StepReports named (fun _ => True) (markStepSuccess a.plan a.step result key) := by
  refine Follows.atomic (fun _ w _ w' _ h => ?_) fun _ w x _ h => ?_
  all_goals
    rcases hs : w.store.markStepSuccess a.plan.sessionId a.step.stepId result key with e | store <;>
      simp only [hs, bind, Except.bind] at h <;> cases h
  · refine ⟨(), fun hw => hw.modifyStep hs fun step r hr => .inr ?_, trivial⟩
    cases hr
    exact ⟨hsuccess, herror⟩
  · exact ⟨(), id, fun _ => modifyStep_error_str hs⟩

theorem reports_callTool (attempt : ℤ) (payload : Json) :
    StepReports named (fun ended => ended.result.Reported named)
      (E.callTool a attempt payload) := by
  refine Follows.bind (fun _ _ _ => ?_) (reports_mark fun _ => rfl)
  refine Follows.bind (fun result _ hresult => ?_) (reports_invokeTool _ _ _ _)
  refine Follows.bind (fun _ _ _ => ?_) reports_logStepEvent
  by_cases hsuccess : result.success = true
  · rw [if_pos hsuccess]
    refine Follows.bind (fun _ _ _ => ?_)
      (reports_markStepSuccess hsuccess (hresult.error_eq_none hsuccess) _)
    exact Follows.bind (fun _ _ _ => Follows.pure hresult) (reports_saveSnapshot _ _ _ _)
  · rw [if_neg hsuccess]
    refine Follows.bind (fun _ _ _ => ?_) (reports_failAttempt _ _ _ _)
    cases result.retryable <;> exact Follows.pure hresult

theorem checkPolicy_reported {step : PlanStep} {request : AgentRequest} {result : ToolResult}
    (h : E.checkPolicy step request = .ok (some result)) : result.Reported named := by
  unfold checkPolicy at h
  rcases hp : E.policyEngine.isToolAllowed step.toolId request with e | (_ | _) <;>
    simp only [hp, bind, Except.bind] at h <;> cases h
  exact ToolResult.reported_failure (fun _ => by decide) fun _ => append_ne_empty (by decide)

theorem checkPolicy_error_str {step : PlanStep} {request : AgentRequest} {error : PyError}
    (h : E.checkPolicy step request = .error error) : error.str ≠ "" := by
  unfold checkPolicy at h
  rcases hp : E.policyEngine.isToolAllowed step.toolId request with e | (_ | _) <;>
    simp only [hp, bind, Except.bind] at h <;> cases h
  unfold ToolPolicyEngine.isToolAllowed at hp
  split_ifs at hp
  split at hp
  · cases hp
  · split_ifs at hp
    split at hp <;> cases hp
    simp [PyError.str]

theorem getSchemaPath_error_str {registry : ToolRegistry} {toolId : String} {error : PyError}
    (h : registry.getSchemaPath toolId = .error error) : error.str ≠ "" := by
  unfold ToolRegistry.getSchemaPath ToolRegistry.get at h
  rcases hd : registry.definitions.get? toolId with _ | definition <;>
    simp only [hd, bind, Except.bind] at h <;> cases h
  exact append_ne_empty (by decide)

section Names

variable (hE : named → E.NamesFailures)

include hE

theorem checkSchema_reported {step : PlanStep} {payload : Json} {result : ToolResult}
    (h : E.checkSchema step payload = .ok (some result)) : result.Reported named := by
  unfold checkSchema at h
  rcases hp : E.toolRegistry.getSchemaPath step.toolId with e | path <;>
    simp only [hp, bind, Except.bind] at h
  · cases h
  · rcases hv : E.validate path payload with _ | (message | error) <;> simp only [hv] at h <;>
      cases h
    exact ToolResult.reported_failure (fun _ => by decide) fun hnamed => hE hnamed _ _ _ hv

theorem checkSchema_error_str {step : PlanStep} {payload : Json} {error : PyError}
    (h : E.checkSchema step payload = .error error) (hnamed : named) : error.str ≠ "" := by
  unfold checkSchema at h
  rcases hp : E.toolRegistry.getSchemaPath step.toolId with e | path <;>
    simp only [hp, bind, Except.bind] at h
  · cases h
    exact getSchemaPath_error_str hp
  · rcases hv : E.validate path payload with _ | (message | e) <;> simp only [hv] at h <;> cases h
    exact hE hnamed _ _ _ hv

theorem reports_runAttempt (attempt : ℤ) :
    StepReports named (fun ended => ended.result.Reported named) (E.runAttempt a attempt) := by
  refine Follows.bind (fun _ _ _ => ?_) (reports_mark fun _ => rfl)
  refine Follows.bind (fun _ _ _ => ?_) (reports_saveSnapshot _ _ _ _)
  refine Follows.bind (fun policy _ hpolicy => ?_)
    (reports_lift fun _ h _ => checkPolicy_error_str h)
  cases policy with
  | some result =>
    refine Follows.bind (fun _ _ _ => ?_) (reports_failAttempt _ _ _ _)
    exact Follows.pure (checkPolicy_reported hpolicy)
  | none =>
    refine Follows.bind (fun payload _ _ => ?_) (reports_lift fun error h _ => ?_)
    · refine Follows.bind (fun schema _ hschema => ?_)
        (reports_lift fun _ => checkSchema_error_str hE)
      cases schema with
      | some result =>
        refine Follows.bind (fun _ _ _ => ?_) (reports_failAttempt _ _ _ _)
        exact Follows.pure (checkSchema_reported hE hschema)
      | none => exact reports_callTool attempt payload
    · unfold buildPayloadWithContext at h
      split at h <;> cases h
      simp [PyError.str]

theorem reports_attemptLoop : ∀ (remaining : ℕ) (attempt : ℤ) (last : Option ToolResult),
    StepReports named (ToolResult.Reported named) (E.attemptLoop a remaining attempt last)
  | 0, _, _ => by
    refine Follows.bind (fun _ _ _ => ?_) (reports_failAttempt _ _ _ _)
    exact Follows.pure fun _ => ⟨_, rfl, by simp, append_ne_empty (by decide)⟩
  | remaining + 1, attempt, _ => by
    refine Follows.bind (fun cancelled _ _ => ?_) (reports_isCancelled _)
    cases cancelled with
    | true =>
      refine Follows.bind (fun _ _ _ => ?_) (reports_mark fun _ => rfl)
      exact Follows.pure fun _ => ⟨_, rfl, by simp, append_ne_empty (by decide)⟩
    | false =>
      refine Follows.bind (fun ended _ hended => ?_) (reports_runAttempt hE attempt)
      cases ended with
      | done result => exact hended
      | retry result => exact reports_attemptLoop remaining (attempt + 1) (some result)

/-- A step's thread ends with an envelope that reports its failure, or an exception with a text. -/
theorem executeSingleStep_reports :
    StepReports named (ToolResult.Reported named) (E.executeSingleStep a) := by
  refine Follows.bind (Q := fun _ _ => True) (fun skip _ _ => ?_) (reports_read ?_ ?_)
  · cases skip with
    | true =>
      refine Follows.bind
        (Q := fun (cached : Option ToolResult) _ => ∀ r, cached = some r → r.Reported named)
        (fun cached _ hcached => ?_) (reports_read ?_ ?_)
      · cases cached with
        | none => exact rfl
        | some r => exact hcached r rfl
      · intro w cached h hkeeps r hr
        unfold getStepResult at h
        rcases hs : w.store.getStep a.plan.sessionId a.step.stepId with e | step <;>
          simp only [hs, bind, Except.bind] at h <;> cases h
        obtain ⟨hsuccess, herror⟩ := hkeeps _ _ step r (step?_of_getStep hs) hr
        simpa [ToolResult.Reported, Reports, hsuccess] using herror
      · intro w error h
        unfold getStepResult at h
        rcases hs : w.store.getStep a.plan.sessionId a.step.stepId with e | step <;>
          simp only [hs, bind, Except.bind] at h <;> cases h
        exact getStep_error_str hs
    | false => exact reports_attemptLoop hE _ _ _
  · exact fun _ _ _ _ => trivial
  · intro w error h
    unfold shouldSkipStep at h
    rcases hs : w.store.getStep a.plan.sessionId a.step.stepId with e | step <;>
      simp only [hs, bind, Except.bind] at h <;> cases h
    exact getStep_error_str hs

end Names

end Executor

/-! ## Whole runs -/

def ExecutionResult.Reported (named : Prop) (result : ExecutionResult) : Prop :=
  Reports named result.success result.error

/-- The threads at hand report what they end with, and so does what has been collected. -/
def Phase.Reported (named : Prop) : Phase → Prop
  | .batch threads results =>
      (∀ thread ∈ threads, StepReports named (ToolResult.Reported named) thread.prog)
      ∧ ∀ id outcome, results.get? id = some outcome → outcome.result.Reported named
  | .returned result => result.Reported named
  | _ => True

structure Config.Reported (named : Prop) (c : Config) : Prop where
  keeps : KeepsSuccesses c.world.store
  phase : c.phase.Reported named

/-- A thread's answer says something. -/
def Action.Named : Action → Prop
  | .thread _ answer => answer.Named
  | _ => True

section Runs

variable {E : Executor} {request : AgentRequest} {c c' : Config} {named : Prop}

theorem Config.withStore_phase_reported {f : InMemoryStateStore → Except PyError InMemoryStateStore}
    {next : Config → Config} (hnext : ∀ c : Config, (next c).phase.Reported named) :
    (c.withStore f next).phase.Reported named := by
  unfold withStore
  split
  · exact hnext _
  · trivial

theorem Config.fail_phase_reported {status : ExecutionStatus} {code message : String}
    {lastError : Option ToolError} (hcode : named → code ≠ "")
    (hmessage : named → message ≠ "") :
    (c.fail status (some ⟨⟨code, message⟩, lastError⟩)).phase.Reported named :=
  Config.withStore_phase_reported fun _ hnamed => ⟨_, rfl, hcode hnamed, hmessage hnamed⟩

theorem Config.succeed_phase_reported : c.succeed.phase.Reported named :=
  Config.withStore_phase_reported fun _ => Config.withStore_phase_reported fun _ => rfl

theorem Config.adopt_phase_reported (outcome : ReplanOutcome) :
    (c.adopt outcome).phase.Reported named :=
  Config.withStore_phase_reported
    (c := { c with
      plan := outcome.plan
      replanCount := c.replanCount + 1
      replanHistory := c.replanHistory ++ [buildReplanHistoryItem outcome] })
    fun _ => trivial

theorem Config.loop_phase_reported (hE : named → E.NamesFailures) (now : ℚ) :
    (c.loop E request now).phase.Reported named := by
  unfold loop
  rcases c.world.isCancelled c.plan.sessionId with error | (_ | _)
  · trivial
  · simp only
    split_ifs
    · exact fail_phase_reported (fun _ => by decide) fun _ => by decide
    · exact succeed_phase_reported
    · rcases E.replanForMissingDependency c.plan c.pendingSteps c.replanCount with
        error | (_ | outcome)
      · trivial
      · exact fail_phase_reported (fun _ => by decide) fun _ => by decide
      · exact adopt_phase_reported outcome
    · refine ⟨fun thread hthread => ?_, fun id outcome h => by cases h⟩
      obtain ⟨step, -, rfl⟩ := List.mem_map.mp hthread
      exact executeSingleStep_reports hE
  · exact fail_phase_reported (fun _ => by decide) fun _ => by decide

theorem Config.foldOutcomes_phase_reported : ∀ (outcomes : List StepOutcome) (c : Config),
    (∀ outcome ∈ outcomes, outcome.result.Reported named) →
      (foldOutcomes E c outcomes).phase.Reported named
  | [], _, _ => trivial
  | outcome :: outcomes, c, h => by
    rw [foldOutcomes]
    by_cases hsuccess : outcome.result.success = true
    · simp only [hsuccess, if_true]
      exact foldOutcomes_phase_reported outcomes _ fun o ho => h o (List.mem_cons_of_mem _ ho)
    · simp only [if_neg hsuccess]
      rcases E.replanAfterFailure (c.record outcome).plan outcome.step outcome.result.error
        (c.record outcome).replanCount with error | (_ | replan)
      · trivial
      · have hreported := h outcome List.mem_cons_self
        unfold ToolResult.Reported Reports at hreported
        rw [if_neg hsuccess] at hreported
        exact withStore_phase_reported fun _ => hreported
      · exact adopt_phase_reported replan

theorem orderedResults_reported {results : Dict String StepOutcome}
    (h : ∀ id outcome, results.get? id = some outcome → outcome.result.Reported named) :
    ∀ {threads : List Thread} {outcomes : List StepOutcome},
      Config.orderedResults results threads = .ok outcomes →
        ∀ outcome ∈ outcomes, outcome.result.Reported named
  | [], outcomes, ho => by
    cases ho
    simp
  | thread :: threads, outcomes, ho => by
    unfold Config.orderedResults at ho
    rcases hget : results.get? thread.step.stepId with _ | first <;>
      simp only [hget, bind, Except.bind] at ho
    · cases ho
    · rcases hrest : Config.orderedResults results threads with error | rest <;>
        simp only [hrest] at ho <;> cases ho
      exact List.forall_mem_cons.mpr ⟨h _ _ hget, orderedResults_reported h hrest⟩

/-- A future that has ended reports. -/
theorem Thread.result?_reported {thread : Thread} {result : ToolResult}
    (h : StepReports named (ToolResult.Reported named) thread.prog)
    (hresult : thread.result? = some result) : result.Reported named := by
  unfold Thread.result? at hresult
  rcases hprog : thread.prog with r | x | ⟨upd, next⟩ <;> rw [hprog] at h hresult <;> cases hresult
  · exact h
  · exact ToolResult.reported_failure (fun _ => by decide) h

/-- Every action keeps the run reporting, if the answers say something. -/
theorem Config.Reported.step (hE : named → E.NamesFailures) (h : c.Reported named) {action : Action}
    (hnamed : named → action.Named) (hstep : c.step E request action = some c') :
    c'.Reported named := by
  have hphase := h.phase
  cases Config.takes_of_step hstep with
  | loop _ now =>
    exact ⟨h.keeps.mainOps (c.loop_ops request now), Config.loop_phase_reported hE now⟩
  | @thread threads results i thread upd next hp hi hprog answer =>
    rw [hp] at hphase
    have hthread := hphase.1 thread (List.mem_of_getElem? hi)
    rw [hprog] at hthread
    obtain ⟨_, hkeeps, hnext⟩ := hthread answer c.world ⟨hnamed, h.keeps⟩
    refine ⟨hkeeps h.keeps, fun t ht => ?_, hphase.2⟩
    rcases List.mem_or_eq_of_mem_set ht with ht | rfl
    · exact hphase.1 t ht
    · exact hnext
  | @collect threads results i thread result hp hi _ hresult =>
    rw [hp] at hphase
    have hthread := hphase.1 thread (List.mem_of_getElem? hi)
    refine ⟨h.keeps, fun t ht => ?_, fun id outcome hget => ?_⟩
    · rcases List.mem_or_eq_of_mem_set ht with ht | rfl
      · exact hphase.1 t ht
      · exact hthread
    · rw [Dict.get?_set] at hget
      split_ifs at hget
      · cases hget
        exact Thread.result?_reported hthread hresult
      · exact hphase.2 id outcome hget
  | fold hp _ houtcomes =>
    rw [hp] at hphase
    exact ⟨h.keeps.mainOps (Config.foldOutcomes_ops _ c),
      Config.foldOutcomes_phase_reported _ c (orderedResults_reported hphase.2 houtcomes)⟩
  | foldRaises => exact ⟨h.keeps, trivial⟩
  | requestCancel => exact ⟨h.keeps, hphase⟩
  | markCancelRequested _ hmark =>
    exact ⟨h.keeps.of_step_eq (markCancelRequested_step_eq hmark), hphase⟩

theorem Config.Reported.run (hE : named → E.NamesFailures) : ∀ {actions : List Action} {c : Config},
    c.Reported named → (named → ∀ action ∈ actions, action.Named) →
      E.run request c actions = some c' → c'.Reported named
  | [], c, h, _, hrun => by
    cases hrun
    exact h
  | action :: actions, c, h, hnamed, hrun => by
    rw [Executor.run] at hrun
    rcases hs : c.step E request action with _ | c₁ <;> rw [hs] at hrun
    · cases hrun
    · exact (h.step hE (fun hn => hnamed hn action List.mem_cons_self) hs).run hE
        (fun hn a ha => hnamed hn a (List.mem_cons_of_mem _ ha)) hrun

theorem Config.Reported.runs {P : Config → Prop} (h : c.Reported False)
    (hrun : E.Runs request P c c') : c'.Reported False := by
  induction hrun with
  | refl => exact h
  | tail _ hlast ih =>
    obtain ⟨-, action, hs⟩ := hlast
    exact ih.step False.elim False.elim hs

end Runs

/-- Whatever the tools of earlier calls answered, the store keeps successes only. -/
theorem Reachable.keepsSuccesses {hist : List Event} {store : InMemoryStateStore}
    (h : Reachable hist store) : KeepsSuccesses store := by
  induction h with
  | empty => exact fun sid id step result hs => by simp [step?] at hs
  | @call hist store E call c₀ c h hstart hrun _ ih =>
    obtain ⟨hs, -⟩ := h.start hstart False False
    have h₀ : c₀.Reported False := ⟨ih.mainOps (start_ops hstart), by rw [hs.phase]; trivial⟩
    exact (h₀.runs hrun).keeps
  | cancel _ hmark ih => exact ih.of_step_eq (markCancelRequested_step_eq hmark)

end AgentLearning
