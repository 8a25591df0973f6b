import AgentLearning.Proofs.Run

/-!
# What a thread owes

`Acts` is the protocol a step's thread follows, over a ghost state that says what it still owes: a
final status for the entry it has put in flight, and the snapshot it has built and not appended.
It owes nothing at its start and nothing when it ends with a result. Every tool call of the
protocol is one whose guards have passed, and what is kept of a success carries no error. `strict`
is the assumption that neither a guard nor an audit write raises; under it a thread does not end
with an exception.

Over a run each thread of a batch keeps its own ghost. A relation between the store and what the
threads owe holds throughout if the protocol, the main thread's operations and the start and the
end of a batch uphold it (`Upheld`).
-/

namespace AgentLearning

open InMemoryStateStore Executor

/-- The step has come to an end. -/
def ExecutionStatus.settled : ExecutionStatus → Bool
  | .success => true
  | .failed => true
  | .canceled => true
  | _ => false

/-! ## The protocol -/

/-- What a thread owes between two actions. -/
structure Ghost where
  owes : Bool := false
  pending : Option StepSnapshot := none

/-- The checks in front of a tool call have passed, on this payload. -/
structure Guarded (E : Executor) (request : AgentRequest) (context : ExecutionContext)
    (step : PlanStep) (payload : Json) : Prop where
  policy : E.checkPolicy step request = .ok none
  context : buildPayloadWithContext context step = .ok payload
  schema : E.checkSchema step payload = .ok none

/-- One of the checks in front of the tool call raises. -/
def Executor.guardsRaise (E : Executor) (request : AgentRequest) (context : ExecutionContext)
    (step : PlanStep) : Bool :=
  match E.checkPolicy step request with
  | .error _ => true
  | .ok (some _) => false
  | .ok none =>
    match buildPayloadWithContext context step with
    | .error _ => true
    | .ok payload => (E.checkSchema step payload).toOption.isNone

/-- What one action of the thread does, and what it owes then. -/
inductive Acts (E : Executor) (a : StepArgs) (g : Ghost) (w : World) : World → Ghost → Prop
  | read : Acts E a g w w g
  | mark (status : ExecutionStatus) (es : List Event) {f : StepState → StepState}
    {store : InMemoryStateStore} (hf : ∀ step, (f step).status = status)
    (hresult : ∀ step result, (f step).result = some result →
      step.result = some result ∨ result.error = none)
    (hs : w.store.modifyStep a.plan.sessionId a.step.stepId f = .ok store)
    (hes : ∀ sid step payload, .invoke sid step payload ∉ es) :
    Acts E a g w { w with store, trace := w.trace ++ es } { g with owes := !status.settled }
  | invoke {payload : Json} (hguard : Guarded E a.request a.context a.step payload) :
    Acts E a g w
      { w with trace := w.trace ++ [.invoke a.plan.sessionId a.step payload] } g
  | build {session : SessionState} (hs : w.store.sessions.get? a.plan.sessionId = some session)
    (phase : SnapshotPhase) (payload : SnapshotPayload) :
    Acts E a g w w
      { g with pending := some (SnapshotManager.create session a.step.stepId phase payload) }
  | append {snapshot : StepSnapshot} {store : InMemoryStateStore}
    (hp : g.pending = some snapshot)
    (hs : w.store.saveSnapshot a.plan.sessionId snapshot = .ok store) :
    Acts E a g w { w with store } { g with pending := none }

/-- The results kept in the store carry no error. -/
def ErrorFree (σ : InMemoryStateStore) : Prop :=
  ∀ sid id step result, σ.step? sid id = some step → step.result = some result →
    result.error = none

/-- A success carries no error. -/
def ToolResult.Consistent (result : ToolResult) : Prop :=
  result.success = true → result.error = none

theorem ToolResult.consistent_of_failure {result : ToolResult} (h : result.success = false) :
    result.Consistent := fun hs => by simp [h] at hs

/-- The thread's entry is there, and under `strict` the audit log does not raise. -/
structure Admits (a : StepArgs) (strict : Prop) (answer : Answer) (w : World) : Prop where
  entry : (w.store.step? a.plan.sessionId a.step.stepId).isSome
  errorFree : ErrorFree w.store
  audit : strict → answer.auditError = none

theorem Admits.session {a : StepArgs} {strict : Prop} {answer : Answer} {w : World}
    (h : Admits a strict answer w) :
    ∃ session, w.store.sessions.get? a.plan.sessionId = some session := by
  obtain ⟨step, hs⟩ := Option.isSome_iff_exists.mp h.entry
  exact hasSession_iff.mp (hasSession_of_step? hs)

/-! ## The thread follows it -/

namespace Executor

open Prog (Follows)

variable (E : Executor) (a : StepArgs) (strict : Prop)

/-- The program follows the protocol from here, and ends in `Q` or, without `strict`, with an
exception. -/
abbrev StepFollows {α : Type} (Q : α → Ghost → Prop) (p : StepProg α) (g : Ghost) : Prop :=
  Follows (Admits a strict) (Acts E a) (fun _ _ => ¬ strict) Q p g

variable {E a strict}

/-- A store call that does not raise. -/
theorem follows_onStore {f : InMemoryStateStore → Except PyError InMemoryStateStore}
    {g g' : Ghost} (h : ∀ answer w, Admits a strict answer w →
      ∃ store, f w.store = .ok store ∧ Acts E a g w { w with store } g') :
    StepFollows E a strict (fun _ g'' => g'' = g') (onStore f) g := by
  refine Follows.atomic (fun answer w _ w' hw hf => ?_) fun answer w x hw hf => ?_
  all_goals
    obtain ⟨store, hs, hact⟩ := h answer w hw
    rw [hs] at hf
    cases hf
  exact ⟨g', hact, rfl⟩

/-- Marking the step with a status. -/
theorem follows_mark (status : ExecutionStatus) {f : StepState → StepState}
    (hf : ∀ step, (f step).status = status) (hresult : ∀ step, (f step).result = step.result)
    (g : Ghost) : StepFollows E a strict (fun _ g' => g' = { g with owes := !status.settled })
      (onStore fun store => store.modifyStep a.plan.sessionId a.step.stepId f) g := by
  refine follows_onStore fun _ w hw => ?_
  obtain ⟨step, hstep⟩ := Option.isSome_iff_exists.mp hw.entry
  obtain ⟨store, hs, -⟩ := modifyStep_frame hstep f
  have hact := Acts.mark (E := E) (g := g) status [] hf
    (fun step result h => .inl (hresult step ▸ h)) hs (by simp)
  rw [List.append_nil] at hact
  exact ⟨store, hs, hact⟩

/-- An action that only reads and does not raise. -/
theorem follows_read {α : Type} {R : α → Prop} {f : World → Except PyError α}
    (h : ∀ answer w, Admits a strict answer w → ∃ v, f w = .ok v ∧ R v) (g : Ghost) :
    StepFollows E a strict (fun v g' => g' = g ∧ R v)
      (.atomic fun world => do
        let v ← f world
        pure (v, world)) g := by
  refine Follows.atomic (fun answer w _ w' hw hf => ?_) fun answer w x hw hf => ?_
  all_goals
    obtain ⟨v, hv, hR⟩ := h answer w hw
    rw [hv] at hf
    cases hf
  exact ⟨g, .read, rfl, hR⟩

theorem follows_saveSnapshot (phase : SnapshotPhase) (payload : SnapshotPayload) (owes : Bool) :
    StepFollows E a strict (fun _ g => g = { owes })
      (saveSnapshot a.plan a.step.stepId phase payload) { owes } := by
  refine Follows.bind (Q := fun snapshot g => g = { owes, pending := some snapshot })
    (fun snapshot g hg => ?_) ?_
  · subst hg
    refine follows_onStore fun _ w hw => ?_
    obtain ⟨store, hs, -⟩ := saveSnapshot_frame (hasSession_iff.mpr hw.session) snapshot
    exact ⟨store, hs, .append rfl hs⟩
  · refine Follows.atomic (fun _ w v w' hw h => ?_) fun _ w x hw h => ?_
    all_goals
      obtain ⟨session, hsession⟩ := hw.session
      simp only [getSession_eq hsession, bind, Except.bind, pure, Except.pure] at h
      cases h
    exact ⟨_, .build hsession phase payload, rfl⟩

theorem follows_failAttempt (attempt : ℤ) (result : ToolResult) (owes : Bool) :
    StepFollows E a strict (fun _ g => g = {}) (failAttempt a.plan a.step attempt result)
      { owes } := by
  refine Follows.bind (fun _ g hg => ?_)
    (follows_mark .failed (fun _ => rfl) (fun _ => by rfl) { owes })
  subst hg
  exact follows_saveSnapshot _ _ false

theorem follows_isCancelled (g : Ghost) :
    StepFollows E a strict (fun _ g' => g' = g ∧ True) (isCancelled a.plan.sessionId) g := by
  refine follows_read (fun _ w hw => ?_) g
  obtain ⟨session, hsession⟩ := hw.session
  unfold World.isCancelled isCancelRequested
  rw [getSession_eq hsession]
  split_ifs
  · exact ⟨true, rfl, trivial⟩
  · exact ⟨session.cancelRequested, rfl, trivial⟩

theorem follows_lift {α : Type} {e : Except PyError α} (he : strict → ∃ v, e = .ok v)
    (g : Ghost) :
    StepFollows E a strict (fun v g' => e = .ok v ∧ g' = g) (lift e) g := by
  cases e with
  | ok v => exact ⟨rfl, rfl⟩
  | error x =>
    intro hstrict
    obtain ⟨v, hv⟩ := he hstrict
    cases hv

theorem toolResult_consistent (E : Executor) (toolId : String) (timeoutSeconds : ℤ)
    (reply : ToolReply) : (E.toolResult toolId timeoutSeconds reply).Consistent := by
  unfold toolResult ToolRegistry.invoke
  rcases E.toolRegistry.get toolId with x | definition
  · exact fun h => by cases h
  · cases reply with
    | returned data => exact fun _ => rfl
    | _ => exact fun h => by cases h

theorem follows_invokeTool {payload : Json}
    (hguard : Guarded E a.request a.context a.step payload) (timeoutSeconds : ℤ) (g : Ghost) :
    StepFollows E a strict (fun result g' => g' = g ∧ result.Consistent)
      (E.invokeToolWithTimeout a.plan a.step payload timeoutSeconds) g := by
  refine Follows.bind (Q := fun _ g' => g' = g) (fun _ g' hg => ?_) ?_
  · refine Follows.await (fun _ => .read) (fun answer _ result _ h => ⟨hg, ?_⟩)
      fun _ _ _ _ h => by cases h
    cases h
    exact toolResult_consistent E _ _ _
  · refine Follows.atomic (fun _ w _ w' _ h => ?_) fun _ _ _ _ h => by cases h
    cases h
    exact ⟨g, .invoke hguard, rfl⟩

theorem follows_logStepEvent (g : Ghost) :
    StepFollows E a strict (fun _ g' => g' = g) logStepEvent g := by
  refine Follows.await (fun _ => .read) (fun _ _ _ _ _ => rfl) fun answer w x hw h hstrict => ?_
  rw [hw.audit hstrict] at h
  cases h

theorem follows_markStepSuccess {result : ToolResult} (hresult : result.error = none)
    (key : String) (g : Ghost) :
    StepFollows E a strict (fun _ g' => g' = { g with owes := false })
      (markStepSuccess a.plan a.step result key) g := by
  refine Follows.atomic (fun _ w _ w' hw h => ?_) fun _ w x hw h => ?_
  all_goals
    obtain ⟨step, hstep⟩ := Option.isSome_iff_exists.mp hw.entry
    obtain ⟨store, hs, -⟩ := modifyStep_frame hstep fun step =>
      { step with
        status := .success
        result := some result
        error := none
        idempotencyKey := key }
    rw [InMemoryStateStore.markStepSuccess, hs] at h
    cases h
  refine ⟨_, .mark .success _ (fun _ => rfl) (fun _ r hr => .inr ?_) hs (by simp), rfl⟩
  cases hr
  exact hresult

/-- How a round of the retry loop ended, as the result it has so far. -/
def AttemptEnd.result : AttemptEnd → ToolResult
  | .done result => result
  | .retry result => result

theorem follows_failDone {result : ToolResult} (hf : result.success = false) (attempt : ℤ)
    (owes : Bool) {ended : AttemptEnd} (hended : ended.result = result) :
    StepFollows E a strict (fun ended g => g = {} ∧ ended.result.Consistent)
      (do
        failAttempt a.plan a.step attempt result
        pure ended : StepProg Executor.AttemptEnd) { owes } := by
  refine Follows.bind (fun _ g hg => ?_) (follows_failAttempt attempt result owes)
  exact Follows.pure ⟨hg, hended ▸ ToolResult.consistent_of_failure hf⟩

theorem follows_callTool {payload : Json}
    (hguard : Guarded E a.request a.context a.step payload) (attempt : ℤ) (owes : Bool) :
    StepFollows E a strict (fun ended g => g = {} ∧ ended.result.Consistent)
      (E.callTool a attempt payload) { owes } := by
  refine Follows.bind (fun _ g hg => ?_)
    (follows_mark .waitingTool (fun _ => rfl) (fun _ => by rfl) { owes })
  subst hg
  refine Follows.bind (fun result g hg => ?_) (follows_invokeTool hguard _ _)
  obtain ⟨rfl, hconsistent⟩ := hg
  refine Follows.bind (fun _ g hg => ?_) (follows_logStepEvent _)
  subst hg
  split_ifs with hsuccess hretry
  · refine Follows.bind (fun _ g hg => ?_) (follows_markStepSuccess (hconsistent hsuccess) _ _)
    subst hg
    refine Follows.bind (fun _ g hg => ?_) (follows_saveSnapshot _ _ false)
    exact Follows.pure ⟨hg, hconsistent⟩
  · exact follows_failDone (by simpa using hsuccess) attempt _ rfl
  · exact follows_failDone (by simpa using hsuccess) attempt _ rfl

section Guards

variable (hguards : strict → E.guardsRaise a.request a.context a.step = false)

include hguards

theorem follows_runAttempt (attempt : ℤ) :
    StepFollows E a strict (fun ended g => g = {} ∧ ended.result.Consistent)
      (E.runAttempt a attempt) {} := by
  refine Follows.bind (fun _ g hg => ?_)
    (follows_mark .running (fun _ => rfl) (fun _ => by rfl) {})
  subst hg
  refine Follows.bind (fun _ g hg => ?_) (follows_saveSnapshot _ _ true)
  subst hg
  refine Follows.bind (fun policy g hg => ?_) (follows_lift (fun hstrict => ?_) _)
  · obtain ⟨hpolicy, rfl⟩ := hg
    cases policy with
    | some result => exact follows_failDone (E.checkPolicy_failure hpolicy) attempt true rfl
    | none =>
      refine Follows.bind (fun payload g hg => ?_) (follows_lift (fun hstrict => ?_) _)
      · obtain ⟨hpayload, rfl⟩ := hg
        refine Follows.bind (fun schema g hg => ?_) (follows_lift (fun hstrict => ?_) _)
        · obtain ⟨hschema, rfl⟩ := hg
          cases schema with
          | some result => exact follows_failDone (E.checkSchema_failure hschema) attempt true rfl
          | none => exact follows_callTool ⟨hpolicy, hpayload, hschema⟩ attempt true
        · have := hguards hstrict
          rw [guardsRaise, hpolicy] at this
          simp only [hpayload] at this
          rcases hs : E.checkSchema a.step payload with x | v <;> rw [hs] at this
          · cases this
          · exact ⟨v, rfl⟩
      · have := hguards hstrict
        rw [guardsRaise, hpolicy] at this
        rcases hb : buildPayloadWithContext a.context a.step with x | v <;> rw [hb] at this
        · cases this
        · exact ⟨v, rfl⟩
  · have := hguards hstrict
    rw [guardsRaise] at this
    rcases hp : E.checkPolicy a.step a.request with x | v <;> rw [hp] at this
    · cases this
    · exact ⟨v, rfl⟩

theorem follows_attemptLoop : ∀ (remaining : ℕ) (attempt : ℤ) (last : Option ToolResult),
    StepFollows E a strict (fun result g => g = {} ∧ result.Consistent)
      (E.attemptLoop a remaining attempt last) {}
  | 0, _, last => by
    refine Follows.bind (fun _ g hg => ?_) (follows_failAttempt _ _ false)
    exact Follows.pure ⟨hg, ToolResult.consistent_of_failure rfl⟩
  | remaining + 1, attempt, last => by
    refine Follows.bind (fun cancelled g hg => ?_) (follows_isCancelled {})
    obtain ⟨rfl, -⟩ := hg
    cases cancelled with
    | true =>
      refine Follows.bind (fun _ g hg => ?_)
        (follows_mark .canceled (fun _ => rfl) (fun _ => by rfl) {})
      exact Follows.pure ⟨hg, ToolResult.consistent_of_failure rfl⟩
    | false =>
      refine Follows.bind (fun ended g hg => ?_) (follows_runAttempt hguards attempt)
      obtain ⟨rfl, hconsistent⟩ := hg
      cases ended with
      | done result => exact Follows.pure ⟨rfl, hconsistent⟩
      | retry result => exact follows_attemptLoop remaining (attempt + 1) (some result)

/-- A step's thread follows the protocol, and owes nothing when it ends with a result. -/
theorem executeSingleStep_follows :
    StepFollows E a strict (fun result g => g = {} ∧ result.Consistent)
      (E.executeSingleStep a) {} := by
  refine Follows.bind (Q := fun _ g => g = {} ∧ True) (fun skip g hg => ?_)
    (follows_read (fun answer w hw => ?_) {})
  · obtain ⟨rfl, -⟩ := hg
    cases skip with
    | true =>
      refine Follows.bind (Q := fun cached g => g = {} ∧ ∀ r, cached = some r → r.error = none)
        (fun cached g hg => ?_) (follows_read (fun answer w hw => ?_) {})
      · refine Follows.pure ⟨hg.1, fun _ => ?_⟩
        cases cached with
        | none => rfl
        | some r => exact hg.2 r rfl
      · obtain ⟨step, hstep⟩ := Option.isSome_iff_exists.mp hw.entry
        exact ⟨step.result, by simp only [getStepResult, getStep_eq hstep]; rfl,
          fun r hr => hw.errorFree _ _ step r hstep hr⟩
    | false => exact follows_attemptLoop hguards _ _ _
  · obtain ⟨step, hstep⟩ := Option.isSome_iff_exists.mp hw.entry
    exact ⟨_, by simp only [shouldSkipStep, getStep_eq hstep]; rfl, trivial⟩

end Guards

end Executor

/-! ## The main thread's operations -/

/-- What the main thread does to the store, one operation at a time. -/
inductive MainOp (σ : InMemoryStateStore) : InMemoryStateStore → Prop
  | init {sid requestId traceId : String} {steps : List StepDict} {planVersion : ℤ}
    {σ' : InMemoryStateStore}
    (h : σ.initSession sid requestId steps planVersion traceId = .ok σ') : MainOp σ σ'
  | upsert {sid : String} {steps : List StepDict} {planVersion : ℤ} {σ' : InMemoryStateStore}
    (h : σ.upsertPlanSteps sid steps planVersion = .ok σ') : MainOp σ σ'
  | setStatus {sid : String} {status : ExecutionStatus} {σ' : InMemoryStateStore}
    (h : σ.setSessionStatus sid status = .ok σ') : MainOp σ σ'
  | finalSnapshot {sid : String} {session : SessionState} {payload : SnapshotPayload}
    {σ' : InMemoryStateStore} (hs : σ.getSession sid = .ok session)
    (h : σ.saveSnapshot sid (SnapshotManager.create session "final" .finalResponse payload)
      = .ok σ') : MainOp σ σ'

theorem saveSnapshot_step_eq {σ σ' : InMemoryStateStore} {sid : String} {snapshot : StepSnapshot}
    (h : σ.saveSnapshot sid snapshot = .ok σ') (t id : String) : σ'.step? t id = σ.step? t id := by
  have hframe := of_modifySession_ok (fun hs => saveSnapshot_frame hs _) h
  exact (hframe fun _ => False).step t id (by simp)

theorem markCancelRequested_step_eq {σ σ' : InMemoryStateStore} {sid : String}
    (h : σ.markCancelRequested sid = .ok σ') (t id : String) : σ'.step? t id = σ.step? t id := by
  have hframe := of_modifySession_ok (fun hs => markCancelRequested_frame hs) h
  exact (hframe fun _ => False).step t id (by simp)

/-- It registers steps, or leaves the entries of all steps as they are. -/
theorem MainOp.registers_or_step_eq {σ σ' : InMemoryStateStore} (h : MainOp σ σ') :
    (∃ sid steps, Registers sid steps σ σ') ∨ ∀ t id, σ'.step? t id = σ.step? t id := by
  cases h with
  | init hinit =>
    obtain ⟨σ₁, hσ₁, hr⟩ := initSession_registers σ _ _ _ _ _
    rw [hinit] at hσ₁
    cases hσ₁
    exact .inl ⟨_, _, hr⟩
  | upsert hupsert =>
    exact .inl ⟨_, _, of_modifySession_ok (fun hs => upsertPlanSteps_registers hs _ _) hupsert⟩
  | setStatus hset =>
    exact .inr (of_modifySession_ok (fun hs => setSessionStatus_persists hs _) hset).step
  | finalSnapshot _ hsave => exact .inr (saveSnapshot_step_eq hsave)

abbrev MainOps : InMemoryStateStore → InMemoryStateStore → Prop := Relation.ReflTransGen MainOp

namespace Config

variable {E : Executor} {c : Config}

theorem withStore_ops {f : InMemoryStateStore → Except PyError InMemoryStateStore}
    {next : Config → Config} (hf : ∀ σ σ', f σ = .ok σ' → MainOps σ σ')
    (hnext : ∀ c : Config, MainOps c.world.store (next c).world.store) :
    MainOps c.world.store (c.withStore f next).world.store := by
  unfold withStore
  rcases hs : f c.world.store with error | store
  · exact .refl
  · exact (hf _ _ hs).trans (hnext { c with world := { c.world with store } })

theorem fail_ops (status : ExecutionStatus) (error : Option StepError) :
    MainOps c.world.store (c.fail status error).world.store :=
  withStore_ops (fun _ _ h => .single (.setStatus h)) fun _ => .refl

theorem succeed_ops : MainOps c.world.store c.succeed.world.store := by
  refine withStore_ops (fun _ _ h => .single (.setStatus h)) fun c => ?_
  refine withStore_ops (fun σ σ' h => ?_) fun _ => .refl
  rcases hs : σ.getSession c.plan.sessionId with error | session <;> rw [hs] at h
  · cases h
  · exact .single (.finalSnapshot hs h)

theorem adopt_ops (outcome : ReplanOutcome) :
    MainOps c.world.store (c.adopt outcome).world.store :=
  withStore_ops (c := { c with
    plan := outcome.plan
    replanCount := c.replanCount + 1
    replanHistory := c.replanHistory ++ [buildReplanHistoryItem outcome] })
    (fun _ _ h => .single (.upsert h)) fun _ => .refl

theorem loop_ops (request : AgentRequest) (now : ℚ) :
    MainOps c.world.store (c.loop E request now).world.store := by
  unfold loop
  rcases c.world.isCancelled c.plan.sessionId with error | (_ | _)
  · exact .refl
  · simp only
    split_ifs
    · exact fail_ops _ _
    · exact succeed_ops
    · rcases E.replanForMissingDependency c.plan c.pendingSteps c.replanCount with
        error | (_ | outcome)
      · exact .refl
      · exact fail_ops _ _
      · exact adopt_ops _
    · exact .refl
  · exact fail_ops _ _

theorem foldOutcomes_ops : ∀ (os : List StepOutcome) (c : Config),
    MainOps c.world.store (foldOutcomes E c os).world.store
  | [], _ => .refl
  | o :: os, c => by
    rw [foldOutcomes]
    by_cases ho : o.result.success
    · simp only [ho, if_true]
      exact foldOutcomes_ops os { c.record o with completed := o.step.stepId :: c.completed }
    · simp only [if_neg ho]
      rcases E.replanAfterFailure (c.record o).plan o.step o.result.error
        (c.record o).replanCount with error | (_ | outcome)
      · exact .refl
      · exact fail_ops (c := c.record o) _ _
      · exact adopt_ops (c := c.record o) _

end Config

theorem start_ops {call : Call} {store : InMemoryStateStore} {c : Config}
    (h : Executor.start call store = .ok c) : MainOps store c.world.store := by
  unfold Executor.start at h
  rcases h₁ : store.initSession call.plan.sessionId call.plan.requestId
    (serializePlanSteps call.plan.steps) call.plan.planVersion call.plan.traceId with e | σ₁ <;>
    rw [h₁] at h
  · cases h
  rcases h₂ : σ₁.getSession call.plan.sessionId with e | session <;>
    simp only [bind, Except.bind, h₂] at h
  · cases h
  rcases h₃ : RecoveryService.findRecoveryPoint session with e | point <;> simp only [h₃] at h
  · cases h
  rcases h₄ : σ₁.setSessionStatus call.plan.sessionId .running with e | σ₂ <;>
    simp only [h₄] at h
  · cases h
  · cases h
    exact (Relation.ReflTransGen.single (.init h₁)).tail (.setStatus h₄)

/-! ## Results without an error -/

section ErrorFree

variable {σ σ' : InMemoryStateStore}

theorem ErrorFree.of_step_eq (h : ErrorFree σ) (hstep : ∀ t id, σ'.step? t id = σ.step? t id) :
    ErrorFree σ' := fun t id step result hs => h t id step result ((hstep t id).symm.trans hs)

theorem ErrorFree.registers (h : ErrorFree σ) {sid : String} {steps : List StepDict}
    (hr : Registers sid steps σ σ') : ErrorFree σ' := by
  intro t id step result hs hresult
  rcases hold : σ.step? t id with _ | old
  · obtain ⟨-, d, -, -, rfl⟩ := hr.fresh t id step hold hs
    cases hresult
  · rw [hr.keep t id old hold] at hs
    cases hs
    exact h t id _ result hold hresult

theorem ErrorFree.mainOp (h : ErrorFree σ) (hop : MainOp σ σ') : ErrorFree σ' := by
  rcases hop.registers_or_step_eq with ⟨sid, steps, hr⟩ | hstep
  · exact h.registers hr
  · exact h.of_step_eq hstep

theorem ErrorFree.mainOps (h : ErrorFree σ) (hops : MainOps σ σ') : ErrorFree σ' := by
  induction hops with
  | refl => exact h
  | tail _ hop ih => exact ih.mainOp hop

theorem ErrorFree.cancel (h : ErrorFree σ) {t : String} (hmark : σ.markCancelRequested t = .ok σ') :
    ErrorFree σ' := h.of_step_eq (markCancelRequested_step_eq hmark)

theorem ErrorFree.act {E : Executor} {a : StepArgs} {g g' : Ghost} {w w' : World}
    (h : ErrorFree w.store) (hact : Acts E a g w w' g') : ErrorFree w'.store := by
  cases hact with
  | mark _ _ _ hresult hs _ =>
    obtain ⟨step, hstep, hframe, hnew⟩ := modifyStep_ok hs
    intro t id step' result hs' hr
    by_cases hx : t = a.plan.sessionId ∧ id = a.step.stepId
    · obtain ⟨rfl, rfl⟩ := hx
      rw [hnew] at hs'
      cases hs'
      exact (hresult step result hr).elim (h _ _ step result hstep) id
    · rw [hframe.step t id hx] at hs'
      exact h t id step' result hs' hr
  | append _ hs => exact h.of_step_eq (saveSnapshot_step_eq hs)
  | _ => exact h

end ErrorFree

/-! ## The threads of a batch -/

/-- The thread of a step follows the protocol from here on, owing this much. -/
def ThreadFollows (E : Executor) (request : AgentRequest) (strict : Prop) (c : Config)
    (thread : Thread) (g : Ghost) : Prop :=
  ∃ control, StepFollows E ⟨c.plan, thread.step, request, c.context, control⟩ strict
    (fun result g => g = {} ∧ result.Consistent) thread.prog g

/-- A relation between the store and what the threads of a batch, by step id, owe. -/
abbrev Ledger := InMemoryStateStore → List (String × Ghost) → Prop

/-- The protocol and the main thread uphold the relation; under `solo` the ids of a batch are
distinct, and under `strict` the threads owe nothing at its end. -/
structure Upheld (E : Executor) (sid : String) (strict solo : Prop) (J : Ledger) : Prop where
  act : ∀ {a g w w' g'} {ws : List (String × Ghost)} {i : ℕ}, J w.store ws →
    ws[i]? = some (a.step.stepId, g) → a.plan.sessionId = sid → Acts E a g w w' g' →
    J w'.store (ws.set i (a.step.stepId, g'))
  spawn : ∀ {σ} {ids : List String}, J σ [] → (solo → ids.Nodup) →
    J σ (ids.map fun id => (id, {}))
  drop : ∀ {σ ws}, J σ ws → (strict → ∀ p ∈ ws, p.2 = {}) → J σ []
  main : ∀ {σ σ'}, J σ [] → MainOp σ σ' → J σ' []
  cancel : ∀ {σ σ' ws t}, J σ ws → σ.markCancelRequested t = .ok σ' → J σ' ws

theorem Upheld.mainOps {E : Executor} {sid : String} {strict solo : Prop} {J : Ledger}
    (hJ : Upheld E sid strict solo J) {σ σ' : InMemoryStateStore} (h : MainOps σ σ')
    (hσ : J σ []) : J σ' [] := by
  induction h with
  | refl => exact hσ
  | tail _ hop ih => exact hJ.main ih hop

/-- The threads at hand, each with what it owes, are in the relation with the store. -/
structure Crew (E : Executor) (request : AgentRequest) (strict : Prop) (J : Ledger) (c : Config)
    (threads : List Thread) (crew : List (Thread × Ghost)) : Prop where
  threads : crew.map Prod.fst = threads
  follows : ∀ p ∈ crew, ThreadFollows E request strict c p.1 p.2
  ended : ∀ p ∈ crew, p.1.collected = true → p.1.result?.isSome
  ledger : J c.world.store (crew.map fun p => (p.1.step.stepId, p.2))

def Manned (E : Executor) (request : AgentRequest) (strict : Prop) (J : Ledger) (c : Config) :
    Prop :=
  match c.phase with
  | .batch threads _ => ∃ crew, Crew E request strict J c threads crew
  | _ => J c.world.store []

section Crew

variable {E : Executor} {request : AgentRequest} {strict solo : Prop} {J : Ledger} {c : Config}
  {threads : List Thread} {results : Dict String StepOutcome} {crew : List (Thread × Ghost)}

theorem Manned.exists_crew (h : Manned E request strict J c)
    (hphase : c.phase = .batch threads results) :
    ∃ crew, Crew E request strict J c threads crew := by
  unfold Manned at h
  rwa [hphase] at h

theorem Manned.ledger (h : Manned E request strict J c) (hphase : c.phase = .looping) :
    J c.world.store [] := by
  unfold Manned at h
  rwa [hphase] at h

/-- The world changes beside the threads. -/
theorem Manned.withWorld (h : Manned E request strict J c) {world : World}
    (hJ : ∀ ws, J c.world.store ws → J world.store ws) :
    Manned E request strict J { c with world } := by
  unfold Manned at h ⊢
  rcases hp : c.phase with _ | ⟨threads, results⟩ | result | error <;> rw [hp] at h
  · exact hJ _ h
  · obtain ⟨crew, hcrew⟩ := h
    exact ⟨crew, hcrew.threads, hcrew.follows, hcrew.ended, hJ _ hcrew.ledger⟩
  · exact hJ _ h
  · exact hJ _ h

/-- Whatever the phase, the store is in the relation with some threads. -/
theorem Manned.exists_ledger (h : Manned E request strict J c) : ∃ ws, J c.world.store ws := by
  unfold Manned at h
  rcases hp : c.phase with _ | ⟨threads, results⟩ | result | error <;> rw [hp] at h
  · exact ⟨_, h⟩
  · obtain ⟨crew, hcrew⟩ := h
    exact ⟨_, hcrew.ledger⟩
  · exact ⟨_, h⟩
  · exact ⟨_, h⟩

theorem Manned.of_ops {sid : String} (hJ : Upheld E sid strict solo J) {c' : Config}
    (h : J c.world.store []) (hops : MainOps c.world.store c'.world.store)
    (hphase : ∀ threads results, c'.phase ≠ .batch threads results) :
    Manned E request strict J c' := by
  unfold Manned
  rcases hp : c'.phase with _ | ⟨threads, results⟩ | result | error
  · exact hJ.mainOps hops h
  · exact absurd hp (hphase threads results)
  · exact hJ.mainOps hops h
  · exact hJ.mainOps hops h

theorem Crew.get (h : Crew E request strict J c threads crew) {i : ℕ} {thread : Thread}
    (hi : threads[i]? = some thread) :
    ∃ g, crew[i]? = some (thread, g) ∧ ThreadFollows E request strict c thread g := by
  rw [← h.threads, List.getElem?_map, Option.map_eq_some_iff] at hi
  obtain ⟨⟨t, g⟩, hp, rfl⟩ := hi
  exact ⟨g, hp, h.follows _ (List.mem_of_getElem? hp)⟩

/-- A thread that has ended owes nothing, if it cannot have raised. -/
theorem ThreadFollows.idle {thread : Thread} {g : Ghost}
    (h : ThreadFollows E request strict c thread g) (hended : thread.result?.isSome)
    (hstrict : strict) : g = {} := by
  obtain ⟨control, hfollows⟩ := h
  unfold Thread.result? at hended
  rcases hp : thread.prog with r | x | ⟨upd, next⟩ <;> rw [hp] at hended hfollows
  · exact hfollows.1
  · exact absurd hstrict hfollows
  · cases hended

/-- What a thread does is an act of the protocol. -/
theorem Crew.act (h : Crew E request strict J c threads crew) {i : ℕ} {thread : Thread}
    (hi : threads[i]? = some thread) {upd : Answer → World → World}
    {next : Answer → World → StepProg ToolResult} (hprog : thread.prog = .act upd next)
    (answer : Answer)
    (hentry : (c.world.store.step? c.plan.sessionId thread.step.stepId).isSome)
    (hfree : ErrorFree c.world.store) (haudit : strict → answer.auditError = none) :
    ∃ a g g', a.plan = c.plan ∧ a.step = thread.step ∧ a.request = request
      ∧ a.context = c.context ∧ crew[i]? = some (thread, g)
      ∧ Acts E a g c.world (upd answer c.world) g'
      ∧ ThreadFollows E request strict c { thread with prog := next answer c.world } g' := by
  obtain ⟨g, hcrew, control, hfollows⟩ := h.get hi
  rw [hprog] at hfollows
  obtain ⟨g', hact, hnext⟩ := hfollows answer c.world ⟨hentry, hfree, haudit⟩
  exact ⟨_, g, g', rfl, rfl, rfl, rfl, hcrew, hact, control, hnext⟩

/-- One thread of the batch changes, or what it owes. -/
theorem Crew.set (h : Crew E request strict J c threads crew) {i : ℕ} {thread : Thread} {g : Ghost}
    (hfollows : ThreadFollows E request strict c thread g)
    (hended : thread.collected = true → thread.result?.isSome) {world : World} {phase : Phase}
    (hledger : J world.store
      ((crew.map fun p => (p.1.step.stepId, p.2)).set i (thread.step.stepId, g))) :
    Crew E request strict J { c with world, phase } (threads.set i thread)
      (crew.set i (thread, g)) := by
  refine ⟨?_, fun p hp => ?_, fun p hp hcol => ?_, ?_⟩
  · rw [List.map_set, h.threads]
  · rcases List.mem_or_eq_of_mem_set hp with hp | rfl
    · exact h.follows p hp
    · exact hfollows
  · rcases List.mem_or_eq_of_mem_set hp with hp | rfl
    · exact h.ended p hp hcol
    · exact hended hcol
  · rw [List.map_set]
    exact hledger

theorem Crew.thread {sid : String} (hJ : Upheld E sid strict solo J)
    (h : Crew E request strict J c threads crew) (hsid : c.plan.sessionId = sid) {i : ℕ}
    {thread : Thread} (hi : threads[i]? = some thread) {upd : Answer → World → World}
    {next : Answer → World → StepProg ToolResult} (hprog : thread.prog = .act upd next)
    {answer : Answer}
    (hentry : (c.world.store.step? c.plan.sessionId thread.step.stepId).isSome)
    (hfree : ErrorFree c.world.store) (haudit : strict → answer.auditError = none) :
    Manned E request strict J { c with
      world := upd answer c.world
      phase := .batch (threads.set i { thread with prog := next answer c.world }) results } := by
  obtain ⟨a, g, g', hplan, hstep, -, -, hcrew, hact, hnext⟩ :=
    h.act hi hprog answer hentry hfree haudit
  refine ⟨_, h.set hnext (fun hcol => ?_) ?_⟩
  · have := h.ended _ (List.mem_of_getElem? hcrew) hcol
    simp [Thread.result?, hprog] at this
  · have := hJ.act (i := i) h.ledger (by simp [hcrew, hstep]) (hplan ▸ hsid) hact
    rwa [hstep] at this

theorem Crew.collect (h : Crew E request strict J c threads crew) {i : ℕ} {thread : Thread}
    (hi : threads[i]? = some thread) {result : ToolResult}
    (hresult : thread.result? = some result) (results : Dict String StepOutcome) :
    Manned E request strict J { c with
      phase := .batch (threads.set i { thread with collected := true }) results } := by
  obtain ⟨g, hcrew, hfollows⟩ := h.get hi
  have hfollows' : ThreadFollows E request strict c { thread with collected := true } g := hfollows
  refine ⟨_, h.set hfollows' (fun _ => Option.isSome_iff_exists.mpr ⟨result, hresult⟩) ?_⟩
  have hself : (crew.set i ({ thread with collected := true }, g)).map
      (fun p => (p.1.step.stepId, p.2)) = crew.map fun p => (p.1.step.stepId, p.2) :=
    map_set_eq hcrew rfl
  rw [List.map_set] at hself
  rw [hself]
  exact h.ledger

theorem Crew.drop {sid : String} (hJ : Upheld E sid strict solo J)
    (h : Crew E request strict J c threads crew) (hall : threads.all (·.collected)) :
    J c.world.store [] := by
  refine hJ.drop h.ledger fun hstrict q hq => ?_
  obtain ⟨p, hp, rfl⟩ := List.mem_map.mp hq
  have hmem : p.1 ∈ threads := h.threads ▸ List.mem_map_of_mem hp
  exact (h.follows p hp).idle (h.ended p hp (List.all_eq_true.mp hall _ hmem)) hstrict

theorem Manned.spawn {sid : String} (hJ : Upheld E sid strict solo J)
    (h : J c.world.store []) (hnodup : solo → c.plan.stepIds.Nodup)
    (hguards : strict → ∀ step ∈ c.runnableSteps, E.guardsRaise request c.context step = false) :
    Manned E request strict J
      { c with phase := .batch (c.runnableSteps.map (c.spawn E request)) ∅ } := by
  refine ⟨c.runnableSteps.map fun step => (c.spawn E request step, {}), ?_, fun p hp => ?_,
    fun p hp hcol => ?_, ?_⟩
  · simp [List.map_map, Function.comp_def]
  · obtain ⟨step, hs, rfl⟩ := List.mem_map.mp hp
    exact ⟨c.world.control, executeSingleStep_follows fun hstrict => hguards hstrict step hs⟩
  · obtain ⟨step, hs, rfl⟩ := List.mem_map.mp hp
    simp [Config.spawn] at hcol
  · have hsub : (c.runnableSteps.map PlanStep.stepId).Sublist c.plan.stepIds :=
      ((sliceTo_sublist _ _).trans (List.filter_sublist.trans List.filter_sublist)).map _
    have := hJ.spawn h fun hsolo => hsub.nodup (hnodup hsolo)
    simpa [List.map_map, Function.comp_def, Config.spawn] using this

end Crew

/-! ## Whole runs -/

/-- What a run has to meet, before each action and in the action. -/
structure Config.Admits (E : Executor) (request : AgentRequest) (strict solo : Prop) (c : Config)
    (action : Action) : Prop where
  nodup : solo → c.plan.stepIds.Nodup
  guards : strict → c.phase = .looping →
    ∀ step ∈ c.runnableSteps, E.guardsRaise request c.context step = false
  audit : strict → ∀ i answer, action = .thread i answer → answer.auditError = none

section Runs

variable {E : Executor} {call : Call} {hist : List Event} {initial : String → Prop}
  {strict solo solo' clean : Prop} {J : Ledger} {c c' : Config} {action : Action}

/-- The entry of a thread's step is there. -/
theorem Inv.entry_isSome (hinv : Inv call hist initial solo' clean c) {threads : List Thread}
    {results : Dict String StepOutcome} (hphase : c.phase = .batch threads results) {i : ℕ}
    {thread : Thread} (hi : threads[i]? = some thread) :
    (c.world.store.step? c.plan.sessionId thread.step.stepId).isSome := by
  rw [hinv.sessionId]
  exact hinv.registered _ (ExecutionPlan.mem_stepIds (Config.mem_readySteps.mp
    ((hinv.batch hphase).mem_readySteps (List.mem_of_getElem? hi))).1.1)

theorem Manned.step (hJ : Upheld E call.plan.sessionId strict solo J)
    (hinv : Inv call hist initial solo' clean c) (hfree : ErrorFree c.world.store)
    (hadmits : c.Admits E call.request strict solo action)
    (hstep : c.step E call.request action = some c')
    (h : Manned E call.request strict J c) : Manned E call.request strict J c' := by
  cases Config.takes_of_step hstep with
  | loop hphase now =>
    have hops := c.loop_ops (E := E) call.request now
    have hloop := c.loop_step (E := E) (hinv.sessionId ▸ hinv.hasSession) call.request now
    have hledger := h.ledger hphase
    generalize c.loop E call.request now = c₁ at hloop hops
    cases hloop with
    | batch hready =>
      exact .spawn hJ hledger hadmits.nodup fun hstrict => hadmits.guards hstrict hphase
    | _ => exact .of_ops hJ hledger hops (by intros; simp [Config.goTo, Config.replanTo])
  | @thread threads results i thread upd next hphase hi hprog answer =>
    obtain ⟨crew, hcrew⟩ := h.exists_crew hphase
    exact hcrew.thread hJ hinv.sessionId hi hprog (hinv.entry_isSome hphase hi) hfree
      fun hstrict => hadmits.audit hstrict i answer rfl
  | collect hphase hi _ hresult =>
    obtain ⟨crew, hcrew⟩ := h.exists_crew hphase
    exact hcrew.collect hi hresult _
  | @fold threads results os hphase hall hos =>
    obtain ⟨crew, hcrew⟩ := h.exists_crew hphase
    have hfold := hinv.foldStep hphase hall hos E
    refine .of_ops hJ (hcrew.drop hJ hall) (Config.foldOutcomes_ops os c) ?_
    generalize Config.foldOutcomes E c os = c₁ at hfold
    cases hfold <;> simp [Config.goTo, Config.replanTo]
  | foldRaises hphase hall hos =>
    obtain ⟨crew, hcrew⟩ := h.exists_crew hphase
    exact .of_ops hJ (hcrew.drop hJ hall) .refl (by simp [Config.raise])
  | requestCancel _ => exact h.withWorld fun _ hws => hws
  | markCancelRequested _ hmark => exact h.withWorld fun _ hws => hJ.cancel hws hmark

/-- Every action keeps the results in the store free of errors. -/
theorem Manned.errorFree_step (hinv : Inv call hist initial solo' clean c)
    (hfree : ErrorFree c.world.store) (hadmits : c.Admits E call.request strict solo action)
    (hstep : c.step E call.request action = some c')
    (h : Manned E call.request strict J c) : ErrorFree c'.world.store := by
  cases Config.takes_of_step hstep with
  | loop hphase now => exact hfree.mainOps (c.loop_ops call.request now)
  | @thread threads results i thread upd next hphase hi hprog answer =>
    obtain ⟨crew, hcrew⟩ := h.exists_crew hphase
    obtain ⟨a, g, g', -, -, -, -, -, hact, -⟩ := hcrew.act hi hprog answer
      (hinv.entry_isSome hphase hi) hfree fun hstrict => hadmits.audit hstrict i answer rfl
    exact hfree.act hact
  | fold hphase hall hos => exact hfree.mainOps (Config.foldOutcomes_ops _ c)
  | markCancelRequested _ hmark => exact hfree.cancel hmark
  | _ => exact hfree

/-- A run each of whose actions meets `P` in the state it starts from. -/
def Executor.RunsBy (E : Executor) (request : AgentRequest) (P : Config → Action → Prop) :
    Config → Config → Prop :=
  Relation.ReflTransGen fun c c' => ∃ action, P c action ∧ c.step E request action = some c'

theorem Executor.RunsBy.runs {request : AgentRequest} {P : Config → Action → Prop} {c₀ : Config}
    (h : E.RunsBy request P c₀ c) : E.Runs request (fun _ => True) c₀ c :=
  Relation.ReflTransGen.mono (fun _ _ ⟨action, _, hs⟩ => ⟨trivial, action, hs⟩) _ _ h

theorem Executor.runsBy_of_runWhile {request : AgentRequest} {p : Config → Bool}
    {q : Action → Bool} : ∀ {actions : List Action} {c c' : Config},
      E.runWhile request p c actions = some c' → actions.all q = true →
      E.RunsBy request (fun c action => p c = true ∧ q action = true) c c'
  | [], c, c', h, _ => by
    cases h
    exact .refl
  | action :: actions, c, c', h, hq => by
    rw [Executor.runWhile] at h
    rw [List.all_cons, Bool.and_eq_true] at hq
    split_ifs at h with hp
    rcases hs : c.step E request action with _ | c₁ <;> rw [hs] at h
    · cases h
    · exact .head ⟨action, ⟨hp, hq.1⟩, hs⟩ (runsBy_of_runWhile h hq.2)

/-- Along a run that meets what the relation needs, the threads at hand are in it. -/
theorem Manned.runs {P : Config → Action → Prop} {c₀ : Config}
    (hJ : Upheld E call.plan.sessionId strict solo J)
    (hinv : Inv call hist initial False False c₀)
    (hP : ∀ c action, P c action → c.Admits E call.request strict solo action)
    (h₀ : Manned E call.request strict J c₀) (hfree : ErrorFree c₀.world.store)
    (hrun : E.RunsBy call.request P c₀ c) :
    Manned E call.request strict J c ∧ ErrorFree c.world.store := by
  induction hrun with
  | refl => exact ⟨h₀, hfree⟩
  | tail hprev hlast ih =>
    obtain ⟨action, hp, hs⟩ := hlast
    have hc := hinv.runs (fun c _ => c.meets_false E) (RunsBy.runs hprev)
    exact ⟨ih.1.step hJ hc ih.2 (hP _ _ hp) hs, ih.1.errorFree_step hc ih.2 (hP _ _ hp) hs⟩

/-- A call starts with no thread, in the relation if the store before it is. -/
theorem Manned.start {store : InMemoryStateStore} {c₀ : Config}
    (hJ : Upheld E call.plan.sessionId strict solo J) (hstart : Executor.start call store = .ok c₀)
    (hphase : c₀.phase = .looping) (h : J store []) : Manned E call.request strict J c₀ := by
  unfold Manned
  rw [hphase]
  exact hJ.mainOps (start_ops hstart) h

theorem Executor.Runs.runsBy {request : AgentRequest} {P : Config → Prop} {c₀ : Config}
    (h : E.Runs request P c₀ c) : E.RunsBy request (fun c _ => P c) c₀ c :=
  Relation.ReflTransGen.mono (fun _ _ ⟨hp, action, hs⟩ => ⟨action, hp, hs⟩) _ _ h

theorem upheld_true (E : Executor) (sid : String) : Upheld E sid False False fun _ _ => True :=
  ⟨fun _ _ _ _ => trivial, fun _ _ => trivial, fun _ _ => trivial, fun _ _ => trivial,
    fun _ _ => trivial⟩

theorem Config.admits_false (E : Executor) (request : AgentRequest) (c : Config)
    (action : Action) : c.Admits E request False False action :=
  ⟨False.elim, False.elim, False.elim⟩

theorem Reachable.errorFree {store : InMemoryStateStore} (h : Reachable hist store) :
    ErrorFree store := by
  induction h with
  | empty => exact fun sid id step result hs => by simp [step?] at hs
  | @call hist store E call c₀ c h hstart hrun _ ih =>
    obtain ⟨hs, hinv⟩ := h.start hstart False False
    exact (Manned.runs (upheld_true E _) hinv (fun c action _ => c.admits_false E _ action)
      (.start (upheld_true E _) hstart hs.phase trivial) (ih.mainOps (start_ops hstart))
      hrun.runsBy).2
  | cancel _ hmark ih => exact ih.cancel hmark

/-- A call after earlier ones, along a run that meets what the relation needs. -/
theorem Reachable.manned {store : InMemoryStateStore} {P : Config → Action → Prop} {c₀ : Config}
    (h : Reachable hist store) (hJ : Upheld E call.plan.sessionId strict solo J)
    (hstart : Executor.start call store = .ok c₀) (h₀ : J store [])
    (hP : ∀ c action, P c action → c.Admits E call.request strict solo action)
    (hrun : E.RunsBy call.request P c₀ c) :
    Manned E call.request strict J c ∧ ErrorFree c.world.store := by
  obtain ⟨hs, hinv⟩ := h.start hstart False False
  exact Manned.runs hJ hinv hP (.start hJ hstart hs.phase h₀)
    (h.errorFree.mainOps (start_ops hstart)) hrun

end Runs

end AgentLearning
