import AgentLearning.Executor
import AgentLearning.Proofs.StoreOps

/-!
# The thread of one step

`Moves` lists what an action of a step's thread can do: rewrite the step's own entry without
making it `SUCCESS`, call the tool, or mark the success, which it does only after a call. `Rely` is
what the other threads and a cancel request may do meanwhile. `executeSingleStep_safe` says that
every action of the thread is such a move and what holds when it ends.

All of it is stated several times in one: `solo` is the assumption that no other thread works on
this step or on one it depends on. Under it the dependencies are `SUCCESS` at every call of the
tool, and a thread that ends in success leaves its step `SUCCESS`. `clean` is the assumption that
the step has not been marked before; under both, the tool is not called after the step's success
was marked.
-/

namespace AgentLearning

open InMemoryStateStore

def Event.sessionId : Event → String
  | .invoke sessionId _ _ => sessionId
  | .markStepSuccess sessionId _ _ => sessionId

def Event.stepId : Event → String
  | .invoke _ step _ => step.stepId
  | .markStepSuccess _ stepId _ => stepId

/-- The trace has a call of the step's tool. -/
def Invoked (trace : List Event) (sid stepId : String) : Prop :=
  ∃ step payload, .invoke sid step payload ∈ trace ∧ step.stepId = stepId

instance (trace : List Event) (sid stepId : String) : Decidable (Invoked trace sid stepId) :=
  decidable_of_iff (trace.any (fun
    | .invoke sid' step _ => sid' = sid && step.stepId = stepId
    | .markStepSuccess _ _ _ => false) = true) (by
    rw [List.any_eq_true]
    constructor
    · rintro ⟨e, he, h⟩
      cases e with
      | invoke sid' step payload =>
        simp only [Bool.and_eq_true, decide_eq_true_eq] at h
        exact ⟨step, payload, h.1 ▸ he, h.2⟩
      | markStepSuccess _ _ _ => cases h
    · rintro ⟨step, payload, he, h⟩
      exact ⟨_, he, by simp [h]⟩)

/-- Every `SUCCESS` entry was marked with its key, in this trace or before. -/
def Keyed (hist : List Event) (w : World) : Prop :=
  ∀ t id step, w.store.step? t id = some step → step.status = .success →
    .markStepSuccess t id step.idempotencyKey ∈ hist ++ w.trace

theorem Invoked.append {trace : List Event} {sid stepId : String} (h : Invoked trace sid stepId)
    (es : List Event) : Invoked (trace ++ es) sid stepId := by
  obtain ⟨step, payload, hm, hid⟩ := h
  exact ⟨step, payload, List.mem_append_left _ hm, hid⟩

/-! ## What the others may do -/

/-- The others change entries of steps in `others` of the session, log events of these steps, and
keep every `SUCCESS` entry accounted for. -/
structure Rely (sid : String) (others : String → Prop) (hist : List Event) (w w' : World) :
    Prop where
  frame : Frame sid others w.store w'.store
  trace : ∃ es, w'.trace = w.trace ++ es ∧ ∀ e ∈ es, e.sessionId = sid ∧ others e.stepId
  keyed : Keyed hist w → Keyed hist w'

section Rely

variable {sid : String} {others : String → Prop} {hist : List Event}

instance : Std.Refl (Rely sid others hist) :=
  ⟨fun _ => ⟨Frame.refl _, ⟨[], by simp, by simp⟩, id⟩⟩

instance : IsTrans World (Rely sid others hist) where
  trans w w' w'' h h' := by
    obtain ⟨es, he, hes⟩ := h.trace
    obtain ⟨es', he', hes'⟩ := h'.trace
    refine ⟨h.frame.trans h'.frame, ⟨es ++ es', by rw [he', he, List.append_assoc], ?_⟩,
      fun hk => h'.keyed (h.keyed hk)⟩
    intro e hm
    exact (List.mem_append.mp hm).elim (hes e) (hes' e)

theorem Rely.invoked {w w' : World} {stepId : String} (h : Rely sid others hist w w')
    (hi : Invoked w.trace sid stepId) : Invoked w'.trace sid stepId := by
  obtain ⟨es, he, -⟩ := h.trace
  rw [he]
  exact hi.append es

end Rely

/-! ## What the thread may do -/

section Moves

variable (a : Executor.StepArgs) (solo clean : Prop)

/-- The step's success has not been marked, if that is so from the start. -/
def Unmarked (w : World) : Prop :=
  clean → ∀ k, .markStepSuccess a.plan.sessionId a.step.stepId k ∉ w.trace

/-- The step's dependencies are `SUCCESS`, and it is not marked itself. -/
structure Clear (w : World) : Prop where
  dependsOn : ∀ d ∈ a.step.dependsOn, w.store.Succeeded a.plan.sessionId d
  unmarked : Unmarked a clean w

/-- What one action of the thread can do. -/
inductive Moves (w : World) : World → Prop
  | silent {store : InMemoryStateStore}
    (hframe : Frame a.plan.sessionId (· = a.step.stepId) w.store store)
    (hsuccess : ∀ step, store.step? a.plan.sessionId a.step.stepId = some step →
      step.status = .success → w.store.step? a.plan.sessionId a.step.stepId = some step) :
    Moves w { w with store }
  | invoke (payload : Json) (hclear : solo → Clear a clean w) :
    Moves w { w with trace := w.trace ++ [.invoke a.plan.sessionId a.step payload] }
  | mark {store : InMemoryStateStore} {step : StepState}
    (hframe : Frame a.plan.sessionId (· = a.step.stepId) w.store store)
    (hstep : store.step? a.plan.sessionId a.step.stepId = some step)
    (hsuccess : step.status = .success) (hkey : step.idempotencyKey = a.idempotencyKey)
    (hinvoked : Invoked w.trace a.plan.sessionId a.step.stepId) :
    Moves w { w with
      store
      trace := w.trace ++
        [.markStepSuccess a.plan.sessionId a.step.stepId a.idempotencyKey] }

variable {a solo clean} {w w' : World}

instance : Std.Refl (Moves a solo clean) := ⟨fun _ => .silent (Frame.refl _) fun _ h _ => h⟩

theorem Moves.frame (h : Moves a solo clean w w') :
    Frame a.plan.sessionId (· = a.step.stepId) w.store w'.store := by
  cases h with
  | silent hframe _ => exact hframe
  | invoke _ _ => exact Frame.refl _
  | mark hframe _ _ _ _ => exact hframe

theorem Moves.control (h : Moves a solo clean w w') : w'.control = w.control := by
  cases h <;> rfl

theorem Moves.trace (h : Moves a solo clean w w') : ∃ es, w'.trace = w.trace ++ es
    ∧ ∀ e ∈ es, e.sessionId = a.plan.sessionId ∧ e.stepId = a.step.stepId := by
  cases h with
  | silent _ _ => exact ⟨[], by simp, by simp⟩
  | invoke payload _ => exact ⟨_, rfl, by simp [Event.sessionId, Event.stepId]⟩
  | mark _ _ _ _ _ => exact ⟨_, rfl, by simp [Event.sessionId, Event.stepId]⟩

theorem Keyed.of_frame {hist : List Event} {sid x : String} (hk : Keyed hist w)
    (hframe : Frame sid (· = x) w.store w'.store) (htrace : ∃ es, w'.trace = w.trace ++ es)
    (hx : ∀ step, w'.store.step? sid x = some step → step.status = .success →
      .markStepSuccess sid x step.idempotencyKey ∈ hist ++ w'.trace) : Keyed hist w' := by
  intro t id step hstep hsuccess
  by_cases ht : t = sid ∧ id = x
  · obtain ⟨rfl, rfl⟩ := ht
    exact hx step hstep hsuccess
  · rw [hframe.step t id ht] at hstep
    obtain ⟨es, he⟩ := htrace
    rw [he, ← List.append_assoc]
    exact List.mem_append_left _ (hk t id step hstep hsuccess)

theorem Moves.keyed (h : Moves a solo clean w w') {hist : List Event} (hk : Keyed hist w) :
    Keyed hist w' := by
  cases h with
  | silent hframe hsuccess =>
    exact hk.of_frame hframe ⟨[], by simp⟩ fun step hs hsucc => hk _ _ step (hsuccess step hs hsucc)
      hsucc
  | invoke payload _ =>
    exact hk.of_frame (Frame.refl _ : Frame a.plan.sessionId (· = a.step.stepId) _ _) ⟨_, rfl⟩
      fun step hs hsucc => by
        rw [← List.append_assoc]
        exact List.mem_append_left _ (hk _ _ step hs hsucc)
  | mark hframe hstep hsuccess hkey _ =>
    refine hk.of_frame hframe ⟨_, rfl⟩ fun step hs _ => ?_
    rw [hstep] at hs
    cases hs
    simp [hkey]

/-- A tool is called by its own step's thread, and under `solo` with a clear way. -/
theorem Moves.logs_invoke (h : Moves a solo clean w w') {sid : String} {step : PlanStep}
    {payload : Json} (hcall : .invoke sid step payload ∈ w'.trace.drop w.trace.length) :
    sid = a.plan.sessionId ∧ step = a.step ∧ (solo → Clear a clean w) := by
  cases h with
  | silent _ _ => simp at hcall
  | invoke _ hclear =>
    simp only [List.drop_left, List.mem_singleton, Event.invoke.injEq] at hcall
    exact ⟨hcall.1, hcall.2.1, hclear⟩
  | mark _ _ _ _ _ => simp at hcall

/-- A move of another thread of the session, as the others see it. -/
theorem Moves.rely (h : Moves a solo clean w w') {sid : String} {others : String → Prop}
    {hist : List Event} (hsid : a.plan.sessionId = sid) (hx : others a.step.stepId) :
    Rely sid others hist w w' := by
  subst hsid
  obtain ⟨es, he, hes⟩ := h.trace
  refine ⟨h.frame.mono fun id hid => hid ▸ hx, ⟨es, he, fun e hm => ?_⟩, h.keyed⟩
  obtain ⟨h1, h2⟩ := hes e hm
  exact ⟨h1, h2 ▸ hx⟩

end Moves

/-! ## Between its actions -/

section Assertions

variable (a : Executor.StepArgs) (others : String → Prop) (solo : Prop) (hist : List Event)
  (clean : Prop)

/-- The others work neither on the step nor on what it depends on. -/
structure Apart : Prop where
  self : ¬ others a.step.stepId
  dependsOn : ∀ d ∈ a.step.dependsOn, d ≠ a.step.stepId ∧ ¬ others d

/-- The step may be run. -/
structure Ready (w : World) : Prop where
  entry : (w.store.step? a.plan.sessionId a.step.stepId).isSome
  keyed : Keyed hist w
  clear : solo → Clear a clean w

/-- The tool was called. -/
structure Called (w : World) : Prop extends Ready a solo hist clean w where
  invoked : Invoked w.trace a.plan.sessionId a.step.stepId

/-- The step counts as a success: its tool was called, or its success was marked with the key of
this request and plan version. -/
structure Finished (w : World) : Prop where
  entry : (w.store.step? a.plan.sessionId a.step.stepId).isSome
  accounted : Invoked w.trace a.plan.sessionId a.step.stepId
    ∨ .markStepSuccess a.plan.sessionId a.step.stepId a.idempotencyKey ∈ hist ++ w.trace
  success : solo → w.store.Succeeded a.plan.sessionId a.step.stepId

/-- How the thread may end. -/
structure Ends (result : ToolResult) (w : World) : Prop where
  success : result.success = true → Finished a solo hist w
  failure : result.success = false → solo → Unmarked a clean w

/-- An assertion that the others and the thread's snapshots keep. -/
structure Steady (A : World → Prop) : Prop where
  rely : ∀ {w w'}, A w → Rely a.plan.sessionId others hist w w' → A w'
  snapshot : ∀ {w store}, A w → (∀ P, Frame a.plan.sessionId P w.store store) →
    A { w with store }
  entry : ∀ {w}, A w → (w.store.step? a.plan.sessionId a.step.stepId).isSome

variable {a others solo hist clean} {w w' : World}

theorem Unmarked.rely (h : Unmarked a clean w) (hself : ¬ others a.step.stepId)
    (hr : Rely a.plan.sessionId others hist w w') : Unmarked a clean w' := by
  intro hclean k hk
  obtain ⟨es, he, hes⟩ := hr.trace
  rw [he] at hk
  rcases List.mem_append.mp hk with hk | hk
  · exact h hclean k hk
  · exact absurd (hes _ hk).2 hself

theorem Clear.rely (h : Clear a clean w) (hapart : Apart a others)
    (hr : Rely a.plan.sessionId others hist w w') : Clear a clean w' where
  dependsOn d hd := (hr.frame.succeeded fun hp => (hapart.dependsOn d hd).2 hp.2).mpr
    (h.dependsOn d hd)
  unmarked := h.unmarked.rely hapart.self hr

/-- The thread's own changes to its entry do not touch what it depends on. -/
theorem Clear.own (h : Clear a clean w) (hapart : Apart a others) {store : InMemoryStateStore}
    (hframe : Frame a.plan.sessionId (· = a.step.stepId) w.store store) :
    Clear a clean { w with store } where
  dependsOn d hd := (hframe.succeeded fun hp => (hapart.dependsOn d hd).1 hp.2).mpr
    (h.dependsOn d hd)
  unmarked := h.unmarked

theorem keyed_snapshot (h : Keyed hist w) {store : InMemoryStateStore} {sid : String}
    (hframe : ∀ P, Frame sid P w.store store) : Keyed hist { w with store } := by
  intro t id step hstep hsuccess
  rw [(hframe fun _ => False).step t id (by simp)] at hstep
  exact h t id step hstep hsuccess

theorem steady_ready (hapart : solo → Apart a others) :
    Steady a others hist (Ready a solo hist clean) where
  rely h hr := ⟨by rw [hr.frame.isSome]; exact h.entry, hr.keyed h.keyed,
    fun hsolo => (h.clear hsolo).rely (hapart hsolo) hr⟩
  snapshot h hframe := ⟨by rw [(hframe fun _ => True).isSome]; exact h.entry,
    keyed_snapshot h.keyed hframe, fun hsolo => (h.clear hsolo).own (hapart hsolo) (hframe _)⟩
  entry h := h.entry

theorem steady_called (hapart : solo → Apart a others) :
    Steady a others hist (Called a solo hist clean) where
  rely h hr := ⟨(steady_ready hapart).rely h.toReady hr, hr.invoked h.invoked⟩
  snapshot h hframe := ⟨(steady_ready hapart).snapshot h.toReady hframe, h.invoked⟩
  entry h := h.entry

theorem steady_finished (hapart : solo → Apart a others) :
    Steady a others hist (Finished a solo hist) where
  rely h hr := by
    refine ⟨by rw [hr.frame.isSome]; exact h.entry, ?_, fun hsolo => ?_⟩
    · refine h.accounted.imp hr.invoked fun hm => ?_
      obtain ⟨es, he, -⟩ := hr.trace
      rw [he, ← List.append_assoc]
      exact List.mem_append_left _ hm
    · exact (hr.frame.succeeded fun hp => (hapart hsolo).self hp.2).mpr (h.success hsolo)
  snapshot h hframe := ⟨by rw [(hframe fun _ => True).isSome]; exact h.entry, h.accounted,
    fun hsolo => ((hframe fun _ => False).succeeded (by simp)).mpr (h.success hsolo)⟩
  entry h := h.entry

theorem Ends.rely (hapart : solo → Apart a others) {result : ToolResult}
    (h : Ends a solo hist clean result w) (hr : Rely a.plan.sessionId others hist w w') :
    Ends a solo hist clean result w' where
  success hs := (steady_finished hapart).rely (h.success hs) hr
  failure hf hsolo := (h.failure hf hsolo).rely (hapart hsolo).self hr

end Assertions

/-! ## Its program -/

namespace Executor

open Prog (Safe)

variable (E : Executor) (a : StepArgs) (others : String → Prop) (solo : Prop) (hist : List Event)
  (clean : Prop)

/-- Every action of the program is a move of the step's thread, and it ends in `Q`; by an exception
it ends unmarked. -/
abbrev StepSafe {α : Type} (Q : α → World → Prop) (p : StepProg α) (w : World) : Prop :=
  Safe (Rely a.plan.sessionId others hist) (Moves a solo clean)
    (fun _ w => solo → Unmarked a clean w) Q p w

variable {a others solo hist clean} {w : World}

theorem safe_onStore {A A' : World → Prop} (hA : Steady a others hist A)
    (hA' : Steady a others hist A') {f : InMemoryStateStore → Except PyError InMemoryStateStore}
    (h : ∀ w, A w → ∃ store, f w.store = .ok store ∧ Moves a solo clean w { w with store }
      ∧ A' { w with store }) (hw : A w) :
    StepSafe a others solo hist clean (fun _ => A') (onStore f) w := by
  refine Safe.atomic (fun w₁ _ w₂ hr hf => ?_) fun w₁ x hr hf => ?_
  · obtain ⟨store, hs, hm, ha⟩ := h w₁ (hA.rely hw hr)
    rw [hs] at hf
    cases hf
    exact ⟨hm, fun t ht => hA'.rely ha ht⟩
  · obtain ⟨store, hs, -⟩ := h w₁ (hA.rely hw hr)
    rw [hs] at hf
    cases hf

/-- An action that only reads. -/
theorem safe_read {α : Type} {A : World → Prop} {Q : α → World → Prop}
    (hA : Steady a others hist A)
    (hQ : ∀ {v w w'}, Q v w → Rely a.plan.sessionId others hist w w' → Q v w')
    {f : World → Except PyError α} (h : ∀ w, A w → ∃ v, f w = .ok v ∧ Q v w) (hw : A w) :
    StepSafe a others solo hist clean Q
      (.atomic fun world => do
        let v ← f world
        pure (v, world)) w := by
  refine Safe.atomic (fun w₁ v' w₂ hr hf => ?_) fun w₁ x hr hf => ?_
  · obtain ⟨v, hv, hq⟩ := h w₁ (hA.rely hw hr)
    rw [hv] at hf
    cases hf
    exact ⟨Std.Refl.refl w₁, fun t ht => hQ hq ht⟩
  · obtain ⟨v, hv, -⟩ := h w₁ (hA.rely hw hr)
    rw [hv] at hf
    cases hf

theorem exists_session {A : World → Prop} (hA : Steady a others hist A) (hw : A w) :
    w.store.HasSession a.plan.sessionId := by
  obtain ⟨step, hs⟩ := Option.isSome_iff_exists.mp (hA.entry hw)
  exact hasSession_of_step? hs

theorem safe_saveSnapshot {A : World → Prop} (hA : Steady a others hist A) (stepId : String)
    (phase : SnapshotPhase) (payload : SnapshotPayload) (hw : A w) :
    StepSafe a others solo hist clean (fun _ => A)
      (saveSnapshot a.plan stepId phase payload) w := by
  refine Safe.bind (Q := fun _ => A) (fun snapshot w₁ hw₁ => ?_) ?_
  · refine safe_onStore hA hA (fun w₂ hw₂ => ?_) hw₁
    obtain ⟨store, hs, hframe⟩ := saveSnapshot_frame (exists_session hA hw₂) snapshot
    refine ⟨store, hs, .silent (hframe _) fun step hstep _ => ?_, hA.snapshot hw₂ hframe⟩
    rwa [(hframe fun _ => False).step _ _ (by simp)] at hstep
  · refine safe_read hA hA.rely (fun w₂ hw₂ => ?_) hw
    obtain ⟨session, hs⟩ := hasSession_iff.mp (exists_session hA hw₂)
    exact ⟨SnapshotManager.create session stepId phase payload,
      by simp [getSession_eq hs, bind, Except.bind, pure, Except.pure], hw₂⟩

theorem safe_isCancelled {A : World → Prop} (hA : Steady a others hist A) (hw : A w) :
    StepSafe a others solo hist clean (fun _ => A) (isCancelled a.plan.sessionId) w := by
  refine safe_read hA hA.rely (fun w₁ hw₁ => ?_) hw
  obtain ⟨session, hs⟩ := hasSession_iff.mp (exists_session hA hw₁)
  by_cases hc : w₁.control.isCancelled
  · exact ⟨true, by simp [World.isCancelled, hc], hw₁⟩
  · exact ⟨session.cancelRequested, by simp [World.isCancelled, hc, isCancelRequested,
      getSession_eq hs, bind, Except.bind, pure, Except.pure], hw₁⟩

theorem safe_lift {α : Type} {A : World → Prop} {Q : α → World → Prop}
    (hA : Steady a others hist A) {e : Except PyError α}
    (hX : ∀ {w}, A w → solo → Unmarked a clean w) (hQ : ∀ {v w}, e = .ok v → A w → Q v w)
    (hw : A w) : StepSafe a others solo hist clean Q (lift e) w := by
  cases e with
  | ok v => exact fun w' hr => hQ rfl (hA.rely hw hr)
  | error x => exact fun w' hr => hX (hA.rely hw hr)

section Attempt

variable (hapart : solo → Apart a others)

include hapart

/-- Marking the step with a status other than `SUCCESS`. -/
theorem safe_modifyStep {f : StepState → StepState} (hf : ∀ step, (f step).status ≠ .success)
    (hw : Ready a solo hist clean w) :
    StepSafe a others solo hist clean (fun _ => Ready a solo hist clean)
      (onStore fun store => store.modifyStep a.plan.sessionId a.step.stepId f) w := by
  refine safe_onStore (steady_ready hapart) (steady_ready hapart) (fun w₁ hw₁ => ?_) hw
  obtain ⟨step, hstep⟩ := Option.isSome_iff_exists.mp hw₁.entry
  obtain ⟨store, hs, hframe, hnew⟩ := modifyStep_frame hstep f
  have hmove : Moves a solo clean w₁ { w₁ with store } := by
    refine .silent hframe fun step' hstep' hsuccess => ?_
    rw [hnew] at hstep'
    cases hstep'
    exact absurd hsuccess (hf step)
  exact ⟨store, hs, hmove, by simp [hnew], hmove.keyed hw₁.keyed,
    fun hsolo => (hw₁.clear hsolo).own (hapart hsolo) hframe⟩

theorem safe_failAttempt (attempt : ℤ) (result : ToolResult) (hw : Ready a solo hist clean w) :
    StepSafe a others solo hist clean (fun _ => Ready a solo hist clean)
      (failAttempt a.plan a.step attempt result) w := by
  refine Safe.bind (Q := fun _ => Ready a solo hist clean) (fun _ w₁ hw₁ => ?_) ?_
  · exact safe_saveSnapshot (steady_ready hapart) _ _ _ hw₁
  · exact safe_modifyStep hapart (by simp) hw

theorem safe_invokeTool (payload : Json) (timeoutSeconds : ℤ)
    (hw : Ready a solo hist clean w) :
    StepSafe a others solo hist clean (fun _ => Called a solo hist clean)
      (E.invokeToolWithTimeout a.plan a.step payload timeoutSeconds) w := by
  have hsteady : Steady a others hist (Called a solo hist clean) := steady_called hapart
  refine Safe.bind (Q := fun _ => Called a solo hist clean) (fun _ w₁ hw₁ => ?_) ?_
  · exact Safe.await (fun _ _ t _ hr => hsteady.rely hw₁ hr)
      fun _ _ t h => by cases h
  · refine Safe.atomic (fun w₁ _ w₂ hr hf => ?_) fun w₁ x hr hf => by cases hf
    cases hf
    have hw₁ := (steady_ready hapart).rely hw hr
    have hmove : Moves a solo clean w₁ { w₁ with
        trace := w₁.trace ++ [.invoke a.plan.sessionId a.step payload] } :=
      .invoke payload hw₁.clear
    have hclear : solo → Clear a clean { w₁ with
        trace := w₁.trace ++ [.invoke a.plan.sessionId a.step payload] } := by
      refine fun hsolo => ⟨(hw₁.clear hsolo).dependsOn, fun hclean k hk => ?_⟩
      rcases List.mem_append.mp hk with hk | hk
      · exact (hw₁.clear hsolo).unmarked hclean k hk
      · simp at hk
    have hcalled : Called a solo hist clean { w₁ with
        trace := w₁.trace ++ [.invoke a.plan.sessionId a.step payload] } :=
      ⟨⟨hw₁.entry, hmove.keyed hw₁.keyed, hclear⟩, a.step, payload, by simp, rfl⟩
    exact ⟨hmove, fun t ht => hsteady.rely hcalled ht⟩

theorem safe_logStepEvent (hw : Called a solo hist clean w) :
    StepSafe a others solo hist clean (fun _ => Called a solo hist clean) logStepEvent w := by
  have hsteady : Steady a others hist (Called a solo hist clean) := steady_called hapart
  exact Safe.await (fun _ _ t _ hr => hsteady.rely hw hr)
    fun _ _ t _ hr hsolo => ((hsteady.rely hw hr).clear hsolo).unmarked

theorem safe_markStepSuccess (result : ToolResult) (hw : Called a solo hist clean w) :
    StepSafe a others solo hist clean (fun _ => Finished a solo hist)
      (markStepSuccess a.plan a.step result a.idempotencyKey) w := by
  refine Safe.atomic (fun w₁ _ w₂ hr hf => ?_) fun w₁ x hr hf => ?_
  all_goals
    have hw₁ := (steady_called hapart).rely hw hr
    obtain ⟨step, hstep⟩ := Option.isSome_iff_exists.mp hw₁.entry
    obtain ⟨store, hs, hframe, hnew⟩ := modifyStep_frame hstep fun step =>
      { step with
        status := .success
        result := some result
        error := none
        idempotencyKey := a.idempotencyKey }
    rw [InMemoryStateStore.markStepSuccess, hs] at hf
  · cases hf
    refine ⟨.mark hframe hnew rfl rfl hw₁.invoked, fun t ht =>
      (steady_finished hapart).rely ⟨?_, .inl (hw₁.invoked.append _), fun _ => ⟨_, hnew, rfl⟩⟩ ht⟩
    simp [hnew]
  · cases hf

/-- How a round of the retry loop may end. -/
def AttemptEnds (a : StepArgs) (solo : Prop) (hist : List Event) (clean : Prop) :
    AttemptEnd → World → Prop
  | .done result, w => Ends a solo hist clean result w
  | .retry _, w => Ready a solo hist clean w

omit hapart in
theorem Ready.ends {result : ToolResult} (hw : Ready a solo hist clean w)
    (hf : result.success = false) : Ends a solo hist clean result w :=
  ⟨fun h => by simp [hf] at h, fun _ hsolo => (hw.clear hsolo).unmarked⟩

theorem safe_done {result : ToolResult} (hw : Ready a solo hist clean w)
    (hf : result.success = false) :
    StepSafe a others solo hist clean (AttemptEnds a solo hist clean)
      (pure (.done result)) w :=
  Safe.pure fun _ hr => Ready.ends ((steady_ready hapart).rely hw hr) hf

theorem safe_callTool (attempt : ℤ) (payload : Json) (hw : Ready a solo hist clean w) :
    StepSafe a others solo hist clean (AttemptEnds a solo hist clean)
      (E.callTool a attempt payload) w := by
  refine Safe.bind (Q := fun _ => Ready a solo hist clean) (fun _ w₁ hw₁ => ?_)
    (safe_modifyStep hapart (by simp) hw)
  refine Safe.bind (fun result w₂ hw₂ => ?_) (safe_invokeTool E hapart payload _ hw₁)
  refine Safe.bind (fun _ w₃ hw₃ => ?_) (safe_logStepEvent hapart hw₂)
  by_cases hsuccess : result.success
  · rw [if_pos hsuccess]
    refine Safe.bind (fun _ w₄ hw₄ => ?_) (safe_markStepSuccess hapart result hw₃)
    refine Safe.bind (fun _ w₅ hw₅ => ?_)
      (safe_saveSnapshot (steady_finished hapart) _ _ _ hw₄)
    refine Safe.pure fun w₆ hr => ⟨fun _ => (steady_finished hapart).rely hw₅ hr, fun hf => ?_⟩
    simp [hsuccess] at hf
  · rw [if_neg hsuccess]
    refine Safe.bind (fun _ w₄ hw₄ => ?_) (safe_failAttempt hapart attempt result hw₃.toReady)
    by_cases hretry : result.retryable
    · rw [if_pos hretry]
      exact Safe.pure fun w₅ hr => (steady_ready hapart).rely hw₄ hr
    · rw [if_neg hretry]
      exact safe_done hapart hw₄ (by simpa using hsuccess)

omit hapart in
theorem checkPolicy_failure {step : PlanStep} {request : AgentRequest} {result : ToolResult}
    (h : E.checkPolicy step request = .ok (some result)) : result.success = false := by
  unfold checkPolicy at h
  rcases hp : E.policyEngine.isToolAllowed step.toolId request with x | allowed <;> rw [hp] at h
  · cases h
  · cases allowed
    · cases h
      rfl
    · cases h

omit hapart in
/-- A payload passes the check of its schema, or does not conform to it. -/
theorem checkSchema_eq_ok {step : PlanStep} {payload : Json} {rejection : Option ToolResult}
    (h : E.checkSchema step payload = .ok rejection) :
    ∃ path, E.toolRegistry.getSchemaPath step.toolId = .ok path
      ∧ ((E.validate path payload = none ∧ rejection = none)
        ∨ ∃ message, E.validate path payload = some (.contract message)
          ∧ rejection = some (.failure "schema_validation_error" message false)) := by
  unfold checkSchema at h
  rcases hp : E.toolRegistry.getSchemaPath step.toolId with x | path <;> rw [hp] at h
  · cases h
  · rcases hv : E.validate path payload with _ | message | error <;>
      simp only [bind, Except.bind, hv] at h <;> cases h
    · exact ⟨path, rfl, .inl ⟨hv, rfl⟩⟩
    · exact ⟨path, rfl, .inr ⟨message, hv, rfl⟩⟩

omit hapart in
theorem checkSchema_failure {step : PlanStep} {payload : Json} {result : ToolResult}
    (h : E.checkSchema step payload = .ok (some result)) : result.success = false := by
  obtain ⟨path, -, ⟨-, hpassed⟩ | ⟨message, -, hrejected⟩⟩ := E.checkSchema_eq_ok h
  · cases hpassed
  · cases hrejected
    rfl

/-- A guard in front of the tool call, and the end of the round if it rejects. -/
theorem safe_guard {e : Except PyError (Option ToolResult)} (attempt : ℤ)
    {next : StepProg Executor.AttemptEnd}
    (he : ∀ result, e = .ok (some result) → result.success = false)
    (hnext : ∀ w, Ready a solo hist clean w →
      StepSafe a others solo hist clean (AttemptEnds a solo hist clean) next w)
    (hw : Ready a solo hist clean w) :
    StepSafe a others solo hist clean (AttemptEnds a solo hist clean)
      (do
        match ← lift e with
        | some result => do
          failAttempt a.plan a.step attempt result
          pure (.done result)
        | none => next) w := by
  refine Safe.bind (Q := fun guard w => e = .ok guard ∧ Ready a solo hist clean w)
    (fun guard w₁ hw₁ => ?_) (safe_lift (steady_ready hapart)
      (fun h hsolo => (h.clear hsolo).unmarked) (fun hv h => ⟨hv, h⟩) hw)
  cases guard with
  | some result =>
    refine Safe.bind (fun _ w₂ hw₂ => ?_) (safe_failAttempt hapart attempt result hw₁.2)
    exact safe_done hapart hw₂ (he result hw₁.1)
  | none => exact hnext w₁ hw₁.2

theorem safe_runAttempt (attempt : ℤ) (hw : Ready a solo hist clean w) :
    StepSafe a others solo hist clean (AttemptEnds a solo hist clean)
      (E.runAttempt a attempt) w := by
  have hsteady : Steady a others hist (Ready a solo hist clean) := steady_ready hapart
  refine Safe.bind (Q := fun _ => Ready a solo hist clean) (fun _ w₁ hw₁ => ?_)
    (safe_modifyStep hapart (by simp) hw)
  refine Safe.bind (fun _ w₂ hw₂ => ?_) (safe_saveSnapshot hsteady _ _ _ hw₁)
  refine safe_guard hapart attempt (fun _ => E.checkPolicy_failure) (fun w₃ hw₃ => ?_) hw₂
  refine Safe.bind (Q := fun _ => Ready a solo hist clean) (fun payload w₄ hw₄ => ?_)
    (safe_lift hsteady (fun h hsolo => (h.clear hsolo).unmarked) (fun _ h => h) hw₃)
  exact safe_guard hapart attempt (fun _ => E.checkSchema_failure)
    (fun w₅ hw₅ => safe_callTool E hapart attempt payload hw₅) hw₄

theorem safe_cancelStep (hw : Ready a solo hist clean w) :
    StepSafe a others solo hist clean (Ends a solo hist clean) (cancelStep a) w := by
  refine Safe.bind (Q := fun _ => Ready a solo hist clean) (fun _ w₁ hw₁ => ?_)
    (safe_modifyStep hapart (by simp) hw)
  exact Safe.pure fun _ hr => Ready.ends ((steady_ready hapart).rely hw₁ hr) rfl

theorem safe_exhaustStep (maxAttempts : ℤ) (last : Option ToolResult)
    (hw : Ready a solo hist clean w) :
    StepSafe a others solo hist clean (Ends a solo hist clean)
      (exhaustStep a maxAttempts last) w := by
  refine Safe.bind (fun _ w₁ hw₁ => ?_) (safe_failAttempt hapart maxAttempts _ hw)
  exact Safe.pure fun _ hr => Ready.ends ((steady_ready hapart).rely hw₁ hr) rfl

theorem safe_attemptLoop : ∀ (remaining : ℕ) (attempt : ℤ) (last : Option ToolResult) {w : World},
    Ready a solo hist clean w →
      StepSafe a others solo hist clean (Ends a solo hist clean)
        (E.attemptLoop a remaining attempt last) w
  | 0, _, last, w, hw => safe_exhaustStep hapart _ last hw
  | remaining + 1, attempt, last, w, hw => by
    refine Safe.bind (fun cancelled w₁ hw₁ => ?_) (safe_isCancelled (steady_ready hapart) hw)
    cases cancelled with
    | true => exact safe_cancelStep hapart hw₁
    | false =>
      refine Safe.bind (fun ended w₂ hw₂ => ?_) (safe_runAttempt E hapart attempt hw₁)
      cases ended with
      | done result => exact Safe.pure fun _ hr => Ends.rely hapart hw₂ hr
      | retry result => exact safe_attemptLoop remaining (attempt + 1) (some result) hw₂

/-- The thread of a step that may be run takes only moves of its own, and ends as `Ends` says. -/
theorem executeSingleStep_safe (hw : Ready a solo hist clean w) :
    StepSafe a others solo hist clean (Ends a solo hist clean) (E.executeSingleStep a) w := by
  have hready : Steady a others hist (Ready a solo hist clean) := steady_ready hapart
  have hskip : Steady a others hist fun w =>
      Ready a solo hist clean w ∧ Finished a solo hist w := by
    have hfinished : Steady a others hist (Finished a solo hist) := steady_finished hapart
    exact ⟨fun h hr => ⟨hready.rely h.1 hr, hfinished.rely h.2 hr⟩,
      fun h hf => ⟨hready.snapshot h.1 hf, hfinished.snapshot h.2 hf⟩, fun h => h.1.entry⟩
  refine Safe.bind (Q := fun skip w => Ready a solo hist clean w
    ∧ (skip = true → Finished a solo hist w)) (fun skip w₁ hw₁ => ?_) ?_
  · cases skip with
    | false => exact safe_attemptLoop E hapart _ _ _ hw₁.1
    | true =>
      refine Safe.bind (Q := fun _ w => Ready a solo hist clean w ∧ Finished a solo hist w)
        (fun cached w₂ hw₂ => ?_) ?_
      · refine Safe.pure fun w₃ hr => ⟨fun _ => (hskip.rely hw₂ hr).2, fun _ hsolo => ?_⟩
        exact ((hskip.rely hw₂ hr).1.clear hsolo).unmarked
      · refine safe_read hskip hskip.rely (fun w₂ hw₂ => ?_) ⟨hw₁.1, hw₁.2 rfl⟩
        obtain ⟨step, hstep⟩ := Option.isSome_iff_exists.mp hw₂.1.entry
        exact ⟨step.result, by simp [getStepResult, getStep_eq hstep, bind, Except.bind, pure,
          Except.pure], hw₂⟩
  · refine safe_read hready (fun h hr => ⟨hready.rely h.1 hr, fun hs =>
      (steady_finished hapart).rely (h.2 hs) hr⟩) (fun w₁ hw₁ => ?_) hw
    obtain ⟨step, hstep⟩ := Option.isSome_iff_exists.mp hw₁.entry
    refine ⟨step.status = .success && step.idempotencyKey ≠ "" &&
      step.idempotencyKey = a.idempotencyKey, ?_, hw₁, fun hs => ?_⟩
    · simp only [shouldSkipStep, getStep_eq hstep]
      rfl
    simp only [Bool.and_eq_true, decide_eq_true_eq] at hs
    refine ⟨hw₁.entry, .inr ?_, fun _ => ⟨step, hstep, hs.1.1⟩⟩
    rw [← hs.2]
    exact hw₁.keyed _ _ step hstep hs.1.1

end Attempt

end Executor

end AgentLearning
