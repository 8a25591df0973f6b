import Mathlib.Data.List.Induction
import AgentLearning.StoreProgram
import AgentLearning.Proofs.StoreOps

/-!
# The store over any sequence of calls

Statement by statement, every operation does what its function does, and where it raises it has
not written yet (`StoreOp.refines`). `Effect` lists what a call can do: raise, write the head of a
session, rewrite the entry of one step, or register steps. From it follow the invariants of every
sequence of calls: a session's sequence is the list of its keys, and an entry that is `SUCCESS`
has what the last `mark_step_success` on it stored.
-/

namespace AgentLearning

open InMemoryStateStore

/-! ## Programs and functions -/

namespace StoreM

variable {sid id : String}

theorem put_put (σ : InMemoryStateStore) (session session' : SessionState) :
    (σ.put sid session).put sid session' = σ.put sid session' := by
  simp [put, Dict.set_set]

theorem put_self {σ : InMemoryStateStore} {session : SessionState}
    (h : σ.sessions.get? sid = some session) : σ.put sid session = σ := by
  simp [put, Dict.set_eq_self h]

theorem get?_put_self (σ : InMemoryStateStore) (session : SessionState) :
    (σ.put sid session).sessions.get? sid = some session := by simp [get?_put]

theorem run_getSession {σ : InMemoryStateStore} {session : SessionState}
    (h : σ.sessions.get? sid = some session) : EStateM.run (getSession sid) σ = .ok session σ := by
  simp [getSession, h]

theorem run_getSession_none {σ : InMemoryStateStore} (h : σ.sessions.get? sid = none) :
    EStateM.run (getSession sid) σ = .error (.keyError s!"session not found: {sid}") σ := by
  simp only [getSession, EStateM.run_bind, EStateM.run_get, h]
  rfl

theorem run_assign (σ : InMemoryStateStore) (session : SessionState)
    (f : SessionState → SessionState) :
    EStateM.run (assign sid f) (σ.put sid session) = .ok () (σ.put sid (f session)) := by
  rw [assign, EStateM.run_modify]
  simp only [get?_put_self]
  rw [← put_put σ session (f session)]
  rfl

theorem run_touchSession (σ : InMemoryStateStore) (session : SessionState) :
    EStateM.run (touchSession sid) (σ.put sid session) = .ok () (σ.put sid session) := by
  rw [touchSession, EStateM.run_bind, run_getSession (get?_put_self _ _)]
  rfl

/-- The store with this entry of a step in a session. -/
def withStep (σ : InMemoryStateStore) (sid id : String) (session : SessionState)
    (step : StepState) : InMemoryStateStore :=
  σ.put sid { session with steps := session.steps.set id step }

theorem run_assignStep (σ : InMemoryStateStore) (session : SessionState) (step : StepState)
    (f : StepState → StepState) :
    EStateM.run (assignStep sid id f) (withStep σ sid id session step)
      = .ok () (withStep σ sid id session (f step)) := by
  rw [assignStep, withStep, run_assign]
  simp [withStep, Dict.set_set]

theorem run_touchSession_withStep (σ : InMemoryStateStore) (session : SessionState)
    (step : StepState) : EStateM.run (touchSession sid) (withStep σ sid id session step)
      = .ok () (withStep σ sid id session step) := run_touchSession _ _

theorem modifyStep_withStep {σ : InMemoryStateStore} {session : SessionState} {step : StepState}
    (hs : σ.sessions.get? sid = some session) (hstep : session.steps.get? id = some step)
    (f : StepState → StepState) :
    σ.modifyStep sid id f = .ok (withStep σ sid id session (f step)) := by
  simp [modifyStep, getStep_eq ((step?_eq hs id).trans hstep), modifySession_eq hs, bind,
    Except.bind, withStep]

theorem modifyStep_none {σ : InMemoryStateStore} {session : SessionState}
    (hs : σ.sessions.get? sid = some session) (hstep : session.steps.get? id = none)
    (f : StepState → StepState) :
    σ.modifyStep sid id f = .error (.keyError s!"step not found: {id}") := by
  simp only [modifyStep, InMemoryStateStore.getStep, InMemoryStateStore.getSession, hs, bind,
    Except.bind, hstep]
  rfl

/-- The program does what the function says, and where the function raises it raises the same and
has written nothing. -/
def Refines (p : StoreM Unit) (f : InMemoryStateStore → Except PyError InMemoryStateStore) :
    Prop :=
  ∀ σ, EStateM.run p σ = match f σ with
    | .ok σ' => .ok () σ'
    | .error e => .error e σ

theorem refines_session {q : StoreM Unit} {f : SessionState → SessionState}
    (hq : ∀ (σ : InMemoryStateStore) (session : SessionState),
      EStateM.run q (σ.put sid session) = .ok () (σ.put sid (f session))) :
    Refines (getSession sid >>= fun _ => q) (fun σ => σ.modifySession sid f) := by
  intro σ
  rcases hs : σ.sessions.get? sid with _ | session
  · rw [EStateM.run_bind, run_getSession_none hs]
    simp [modifySession, InMemoryStateStore.getSession, hs, bind, Except.bind]
  · have hrun := hq σ session
    rw [put_self hs] at hrun
    simp only [EStateM.run_bind, run_getSession hs, modifySession_eq hs]
    exact hrun

theorem refines_step {q : StoreM Unit} {f : StepState → StepState}
    (hq : ∀ σ session step, EStateM.run q (withStep σ sid id session step)
      = .ok () (withStep σ sid id session (f step))) :
    Refines (getStep sid id >>= fun _ => q) (fun σ => σ.modifyStep sid id f) := by
  intro σ
  rcases hs : σ.sessions.get? sid with _ | session
  · rw [EStateM.run_bind, getStep, EStateM.run_bind, run_getSession_none hs]
    simp [modifyStep, InMemoryStateStore.getStep, InMemoryStateStore.getSession, hs, bind,
      Except.bind]
  · rw [EStateM.run_bind, getStep, EStateM.run_bind, run_getSession hs]
    rcases hstep : session.steps.get? id with _ | step
    · simp only [modifyStep_none hs hstep, hstep]
      rfl
    · have hself : withStep σ sid id session step = σ := by
        rw [withStep, Dict.set_eq_self hstep]
        exact put_self hs
      have hrun := hq σ session step
      rw [hself] at hrun
      simp only [modifyStep_withStep hs hstep, hstep, EStateM.run_pure]
      exact hrun

theorem run_insertStep (σ : InMemoryStateStore) (session : SessionState) (d : StepDict) :
    EStateM.run (insertStep sid d) (σ.put sid session)
      = .ok () (σ.put sid (session.insertStep d)) := by
  rw [insertStep, EStateM.run_bind, run_getSession (get?_put_self _ _)]
  simp only [SessionState.insertStep]
  split_ifs with h
  · rfl
  · rw [EStateM.run_bind, run_assign]
    exact run_assign _ _ _

theorem run_forM_insertStep (σ : InMemoryStateStore) : ∀ (steps : List StepDict)
    (session : SessionState), EStateM.run (steps.forM (insertStep sid)) (σ.put sid session)
      = .ok () (σ.put sid (steps.foldl SessionState.insertStep session))
  | [], _ => rfl
  | d :: steps, session => by
    rw [List.forM, EStateM.run_bind, run_insertStep]
    exact run_forM_insertStep σ steps (session.insertStep d)

theorem refines_upsertPlanSteps (steps : List StepDict) (planVersion : ℤ) :
    Refines (upsertPlanSteps sid steps planVersion)
      (fun σ => σ.upsertPlanSteps sid steps planVersion) := by
  refine refines_session fun σ session => ?_
  rw [EStateM.run_bind, run_assign]
  simp only
  rw [EStateM.run_bind, run_forM_insertStep]
  exact run_touchSession _ _

/-- The session after steps were registered in it. -/
def register (session : SessionState) (steps : List StepDict) (planVersion : ℤ) : SessionState :=
  steps.foldl SessionState.insertStep
    { session with planVersion := max session.planVersion planVersion }

theorem upsertPlanSteps_put (σ : InMemoryStateStore) (session : SessionState)
    (steps : List StepDict) (planVersion : ℤ) :
    (σ.put sid session).upsertPlanSteps sid steps planVersion
      = .ok (σ.put sid (register session steps planVersion)) := by
  rw [InMemoryStateStore.upsertPlanSteps, modifySession_eq (get?_put_self _ _), put_put]
  rfl

theorem run_upsertPlanSteps (σ : InMemoryStateStore) (session : SessionState)
    (steps : List StepDict) (planVersion : ℤ) :
    EStateM.run (upsertPlanSteps sid steps planVersion) (σ.put sid session)
      = .ok () (σ.put sid (register session steps planVersion)) := by
  rw [refines_upsertPlanSteps]
  simp only [upsertPlanSteps_put]

/-- The session as `init_session` finds or makes it. -/
def opened (σ : InMemoryStateStore) (sid requestId : String) (planVersion : ℤ)
    (traceId : String) : SessionState :=
  match σ.sessions.get? sid with
  | some session => { session with
      requestId
      traceId := if traceId = "" then session.traceId else traceId
      planVersion := max session.planVersion planVersion }
  | none => { sessionId := sid, requestId, traceId, planVersion }

theorem initSession_eq (σ : InMemoryStateStore) (requestId : String) (steps : List StepDict)
    (planVersion : ℤ) (traceId : String) :
    σ.initSession sid requestId steps planVersion traceId = .ok (σ.put sid
      (register (opened σ sid requestId planVersion traceId) steps planVersion)) := by
  unfold InMemoryStateStore.initSession opened
  rcases σ.sessions.get? sid with _ | session <;> exact upsertPlanSteps_put _ _ _ _

theorem refines_initSession (requestId : String) (steps : List StepDict) (planVersion : ℤ)
    (traceId : String) : Refines (initSession sid requestId steps planVersion traceId)
      (fun σ => σ.initSession sid requestId steps planVersion traceId) := by
  intro σ
  simp only [initSession_eq]
  rw [initSession, EStateM.run_bind, EStateM.run_get, opened]
  rcases hs : σ.sessions.get? sid with _ | session
  · simp only [hs, Option.isSome_none, Bool.false_eq_true, if_false, EStateM.run_bind,
      EStateM.run_modify]
    exact run_upsertPlanSteps σ { sessionId := sid, requestId, traceId, planVersion } _ _
  · simp only [hs, Option.isSome_some, if_true]
    conv_lhs => rw [← put_self hs]
    rw [EStateM.run_bind, run_assign]
    simp only
    rw [EStateM.run_bind, run_assign]
    simp only
    rw [EStateM.run_bind, run_assign]
    simp only
    rw [EStateM.run_bind, run_upsertPlanSteps]
    exact run_touchSession _ _

end StoreM

namespace StoreOp

open StoreM

/-- The function of the operation. -/
def apply : StoreOp → InMemoryStateStore → Except PyError InMemoryStateStore
  | .initSession sid requestId steps planVersion traceId =>
    fun σ => σ.initSession sid requestId steps planVersion traceId
  | .upsertPlanSteps sid steps planVersion => fun σ => σ.upsertPlanSteps sid steps planVersion
  | .setSessionStatus sid status => fun σ => σ.setSessionStatus sid status
  | .markCancelRequested sid => fun σ => σ.markCancelRequested sid
  | .markStepRunning sid id => fun σ => σ.markStepRunning sid id
  | .markStepWaitingTool sid id => fun σ => σ.markStepWaitingTool sid id
  | .markStepSuccess sid id result key => fun σ => σ.markStepSuccess sid id result key
  | .markStepFailed sid id error => fun σ => σ.markStepFailed sid id error
  | .markStepCanceled sid id reason => fun σ => σ.markStepCanceled sid id reason
  | .saveSnapshot sid snapshot => fun σ => σ.saveSnapshot sid snapshot

theorem refines (op : StoreOp) : Refines op.run op.apply := by
  cases op with
  | initSession => exact refines_initSession _ _ _ _
  | upsertPlanSteps => exact refines_upsertPlanSteps _ _
  | setSessionStatus | markCancelRequested | saveSnapshot =>
    refine refines_session fun σ session => ?_
    rw [EStateM.run_bind, run_assign]
    exact run_touchSession _ _
  | markStepRunning | markStepWaitingTool | markStepSuccess | markStepFailed | markStepCanceled =>
    refine refines_step fun σ session step => ?_
    simp only [EStateM.run_bind, run_assignStep]
    exact run_touchSession_withStep _ _ _

/-- A call that raises has not changed the store. -/
theorem eq_of_raises {op : StoreOp} {σ σ' : InMemoryStateStore} {e : PyError}
    (h : EStateM.run op.run σ = .error e σ') : σ' = σ := by
  rw [refines op σ] at h
  split at h <;> cases h
  rfl

theorem exec_eq (op : StoreOp) (σ : InMemoryStateStore) :
    op.exec σ = match op.apply σ with
      | .ok σ' => σ'
      | .error _ => σ := by
  rw [exec, refines op σ]
  rcases op.apply σ with e | σ' <;> rfl

/-! ## What a call can do -/

/-- The call marks this step as successful, with this result and key. -/
def marks (op : StoreOp) (sid id : String) : Option (ToolResult × String) :=
  match op with
  | .markStepSuccess sid' id' result key =>
    if sid' = sid ∧ id' = id then some (result, key) else none
  | _ => none

/-- The call registers steps of a plan. -/
def RegistersPlan : StoreOp → Prop
  | .initSession .. => True
  | .upsertPlanSteps .. => True
  | _ => False

/-- The result and key of the last `mark_step_success` on a step. -/
def lastMark (ops : List StoreOp) (sid id : String) : Option (ToolResult × String) :=
  ops.reverse.findSome? (·.marks sid id)

/-- The entry is `SUCCESS` only with no error and this result and key. -/
def Records (step : StepState) (mark : Option (ToolResult × String)) : Prop :=
  step.status = .success → step.error = none ∧
    ∃ result key, mark = some (result, key) ∧ step.result = some result
      ∧ step.idempotencyKey = key

/-- The session keeps its entries, appends pending ones, and does not go back in version. -/
structure Grows (old new : SessionState) : Prop where
  keep : ∀ id step, old.steps.get? id = some step → new.steps.get? id = some step
  fresh : ∀ id step, old.steps.get? id = none → new.steps.get? id = some step →
    step.status = .pending
  seq : old.stepSequence = old.steps.keys → new.stepSequence = new.steps.keys
  version : old.planVersion ≤ new.planVersion

theorem Grows.trans {a b c : SessionState} (h : Grows a b) (h' : Grows b c) : Grows a c where
  keep id step hs := h'.keep id step (h.keep id step hs)
  fresh id step hn hs := by
    rcases hb : b.steps.get? id with _ | step'
    · exact h'.fresh id step hb hs
    · have hfresh := h.fresh id step' hn hb
      rw [h'.keep id step' hb] at hs
      cases hs
      exact hfresh
  seq hw := h'.seq (h.seq hw)
  version := Int.le_trans h.version h'.version

/-- Only the head of the session changed. -/
theorem Grows.of_head {old new : SessionState} (hsteps : new.steps = old.steps)
    (hseq : new.stepSequence = old.stepSequence) (hv : old.planVersion ≤ new.planVersion) :
    Grows old new where
  keep id step hs := by rwa [hsteps]
  fresh id step hn hs := by
    rw [hsteps, hn] at hs
    cases hs
  seq hw := by rw [hseq, hsteps, hw]
  version := hv

theorem grows_insertStep (session : SessionState) (d : StepDict) :
    Grows session (session.insertStep d) := by
  unfold SessionState.insertStep
  split_ifs with h
  · exact .of_head rfl rfl (Int.le_refl _)
  · rw [Option.not_isSome_iff_eq_none] at h
    refine ⟨fun id step hs => ?_, fun id step hn hs => ?_, fun hw => ?_, Int.le_refl _⟩
    · have hne : d.stepId ≠ id := by
        rintro rfl
        rw [h] at hs
        cases hs
      rwa [Dict.get?_set_ne _ _ hne]
    · rw [Dict.get?_set] at hs
      split_ifs at hs with heq
      · cases hs
        rfl
      · rw [hn] at hs
        cases hs
    · have hnew : d.stepId ∉ session.steps.keys := by simp [Dict.mem_keys_iff, h]
      simp [Dict.keys_set, hnew, hw]

theorem grows_register (steps : List StepDict) (planVersion : ℤ) (session : SessionState) :
    Grows session (register session steps planVersion) := by
  have hfold : ∀ (steps : List StepDict) (session : SessionState),
      Grows session (steps.foldl SessionState.insertStep session) := by
    intro steps
    induction steps with
    | nil => exact fun _ => .of_head rfl rfl (Int.le_refl _)
    | cons d steps ih => exact fun session => (grows_insertStep session d).trans (ih _)
  refine .trans ?_ (hfold steps _)
  exact .of_head rfl rfl (Int.le_max_left _ _)

/-- Everything a call can do to the store. -/
inductive Effect (op : StoreOp) (σ : InMemoryStateStore) : InMemoryStateStore → Prop
  | raised (h : ∀ sid id, (op.marks sid id).isSome → σ.step? sid id = none) : Effect op σ σ
  | grown (sid : String) (old new : SessionState) (hs : σ.sessions.get? sid = some old)
    (h : Grows old new) (hmark : ∀ t id, op.marks t id = none) : Effect op σ (σ.put sid new)
  | created (sid : String) (old new : SessionState) (hs : σ.sessions.get? sid = none)
    (hsteps : old.steps = ∅) (hseq : old.stepSequence = []) (h : Grows old new)
    (hmark : ∀ t id, op.marks t id = none) : Effect op σ (σ.put sid new)
  | wrote (sid id : String) (session : SessionState) (step new : StepState)
    (hs : σ.sessions.get? sid = some session) (hstep : session.steps.get? id = some step)
    (hnew : Records new (op.marks sid id)) (hreg : ¬ op.RegistersPlan)
    (hmark : ∀ t i, ¬ (t = sid ∧ i = id) → op.marks t i = none) :
    Effect op σ (withStep σ sid id session new)

section

variable {op : StoreOp} {σ : InMemoryStateStore} {sid id : String}

/-- An operation on a session that changes its head. -/
theorem effect_of_modifySession {f : SessionState → SessionState}
    (hop : op.apply σ = σ.modifySession sid f) (hf : ∀ session, Grows session (f session))
    (hmark : ∀ t id, op.marks t id = none) : Effect op σ (op.exec σ) := by
  rw [exec_eq, hop]
  rcases hs : σ.sessions.get? sid with _ | session
  · simp only [modifySession, InMemoryStateStore.getSession, hs, bind, Except.bind]
    exact .raised fun t id h => by simp [hmark] at h
  · simp only [modifySession_eq hs]
    exact .grown sid session _ hs (hf session) hmark

/-- An operation on the entry of a step. -/
theorem effect_of_modifyStep {f : StepState → StepState}
    (hop : op.apply σ = σ.modifyStep sid id f)
    (hf : ∀ step, Records (f step) (op.marks sid id)) (hreg : ¬ op.RegistersPlan)
    (hmark : ∀ t i, ¬ (t = sid ∧ i = id) → op.marks t i = none) : Effect op σ (op.exec σ) := by
  rw [exec_eq, hop]
  have hraised : σ.step? sid id = none → Effect op σ σ := fun hnone => .raised fun t i h => by
    by_cases hx : t = sid ∧ i = id
    · rw [hx.1, hx.2, hnone]
    · simp [hmark t i hx] at h
  rcases hs : σ.sessions.get? sid with _ | session
  · simp only [modifyStep, InMemoryStateStore.getStep, InMemoryStateStore.getSession, hs, bind,
      Except.bind]
    exact hraised (by simp [step?, hs])
  · rcases hstep : session.steps.get? id with _ | step
    · rw [modifyStep_none hs hstep]
      exact hraised ((step?_eq hs id).trans hstep)
    · simp only [modifyStep_withStep hs hstep]
      exact .wrote sid id session step _ hs hstep (hf step) hreg hmark

theorem effect_initSession (requestId : String) (steps : List StepDict) (planVersion : ℤ)
    (traceId : String) :
    Effect (.initSession sid requestId steps planVersion traceId) σ
      (exec (.initSession sid requestId steps planVersion traceId) σ) := by
  rw [exec_eq]
  simp only [apply, initSession_eq, opened]
  rcases hs : σ.sessions.get? sid with _ | session
  · exact .created sid { sessionId := sid, requestId, traceId, planVersion } _ hs rfl rfl
      (grows_register steps planVersion _) fun _ _ => rfl
  · refine .grown sid session _ hs (.trans ?_ (grows_register steps planVersion _)) fun _ _ => rfl
    exact .of_head rfl rfl (Int.le_max_left _ _)

theorem exec_effect (op : StoreOp) (σ : InMemoryStateStore) : Effect op σ (op.exec σ) := by
  cases op with
  | initSession sid requestId steps planVersion traceId =>
    exact effect_initSession requestId steps planVersion traceId
  | upsertPlanSteps sid steps planVersion =>
    exact effect_of_modifySession rfl (grows_register steps planVersion) fun _ _ => rfl
  | setSessionStatus | markCancelRequested | saveSnapshot =>
    exact effect_of_modifySession rfl (fun _ => .of_head rfl rfl (Int.le_refl _)) fun _ _ => rfl
  | markStepRunning | markStepWaitingTool | markStepFailed | markStepCanceled =>
    refine effect_of_modifyStep rfl (fun step h => ?_) not_false fun _ _ _ => rfl
    cases h
  | markStepSuccess sid id result key =>
    refine effect_of_modifyStep rfl (fun step _ => ?_) not_false fun t i hx => ?_
    · exact ⟨rfl, result, key, by simp [marks], rfl, rfl⟩
    · simp only [marks]
      exact if_neg fun h => hx ⟨h.1.symm, h.2.symm⟩

/-! ## Sequences of calls -/

variable {σ' : InMemoryStateStore}

/-- Every session's sequence is the list of its keys. -/
def Sequenced (σ : InMemoryStateStore) : Prop :=
  ∀ sid session, σ.sessions.get? sid = some session → session.stepSequence = session.steps.keys

theorem sequenced_put {new : SessionState} (h : Sequenced σ)
    (hnew : new.stepSequence = new.steps.keys) : Sequenced (σ.put sid new) := by
  intro t session hs
  rw [get?_put] at hs
  split_ifs at hs with heq
  · cases hs
    exact hnew
  · exact h t session hs

theorem Effect.sequenced (he : Effect op σ σ') (h : Sequenced σ) : Sequenced σ' := by
  cases he with
  | raised => exact h
  | grown sid old new hs hg => exact sequenced_put h (hg.seq (h sid old hs))
  | created sid old new hs hsteps hseq hg =>
    exact sequenced_put h (hg.seq (by rw [hsteps, hseq]; rfl))
  | wrote sid id session step new hs hstep =>
    have hmem : id ∈ session.steps.keys := by simp [Dict.mem_keys_iff, hstep]
    refine sequenced_put h ?_
    simp [Dict.keys_set, hmem, h sid session hs]

/-- What an entry has after the call it had before, or the call wrote it. -/
theorem Effect.entry (he : Effect op σ σ') {t : String} {new : StepState}
    (h : σ'.step? t id = some new) :
    (σ.step? t id = some new ∧ op.marks t id = none) ∨ Records new (op.marks t id) := by
  have hpending : new.status = .pending → Records new (op.marks t id) := by
    intro hp hs
    rw [hp] at hs
    cases hs
  cases he with
  | raised hr =>
    refine .inl ⟨h, Option.not_isSome_iff_eq_none.mp fun hm => ?_⟩
    rw [hr t id hm] at h
    cases h
  | grown sid old session hs hg hmark =>
    rw [step?_put] at h
    split_ifs at h with heq
    · subst heq
      rcases ho : old.steps.get? id with _ | step
      · exact .inr (hpending (hg.fresh id new ho h))
      · rw [hg.keep id step ho] at h
        exact .inl ⟨(step?_eq hs id).trans (ho.trans h), hmark sid id⟩
    · exact .inl ⟨h, hmark t id⟩
  | created sid old session hs hsteps hseq hg hmark =>
    rw [step?_put] at h
    split_ifs at h
    · exact .inr (hpending (hg.fresh id new (by simp [hsteps]) h))
    · exact .inl ⟨h, hmark t id⟩
  | wrote sid i session step written hs hstep hnew hreg hmark =>
    rw [withStep, step?_put] at h
    split_ifs at h with heq
    · subst heq
      rw [Dict.get?_set] at h
      split_ifs at h with hi
      · cases h
        subst hi
        exact .inr hnew
      · exact .inl ⟨(step?_eq hs id).trans h, hmark sid id fun hx => hi hx.2.symm⟩
    · exact .inl ⟨h, hmark t id fun hx => heq hx.1.symm⟩

theorem Effect.version (he : Effect op σ σ') {t : String} {session : SessionState}
    (h : σ.sessions.get? t = some session) :
    ∃ session', σ'.sessions.get? t = some session' ∧
      session.planVersion ≤ session'.planVersion := by
  have hput : ∀ sid new, (sid = t → session.planVersion ≤ new.planVersion) →
      ∃ session', (σ.put sid new).sessions.get? t = some session' ∧
        session.planVersion ≤ session'.planVersion := by
    intro sid new hv
    rw [get?_put]
    split_ifs with heq
    · exact ⟨new, rfl, hv heq⟩
    · exact ⟨session, h, Int.le_refl _⟩
  cases he with
  | raised => exact ⟨session, h, Int.le_refl _⟩
  | grown sid old new hs hg =>
    refine hput sid new ?_
    rintro rfl
    rw [h] at hs
    cases hs
    exact hg.version
  | created sid old new hs =>
    refine hput sid new ?_
    rintro rfl
    rw [h] at hs
    cases hs
  | wrote sid id old step new hs =>
    refine hput sid _ ?_
    rintro rfl
    rw [h] at hs
    cases hs
    exact Int.le_refl _

/-- Registering a plan keeps every entry there is. -/
theorem Effect.keep (he : Effect op σ σ') (hop : op.RegistersPlan) {t : String} {step : StepState}
    (h : σ.step? t id = some step) : σ'.step? t id = some step := by
  cases he with
  | raised => exact h
  | grown sid old new hs hg =>
    rw [step?_put]
    split_ifs with heq
    · subst heq
      exact hg.keep id step ((step?_eq hs id).symm.trans h)
    · exact h
  | created sid old new hs =>
    rw [step?_put]
    split_ifs with heq
    · subst heq
      simp [step?, hs] at h
    · exact h
  | wrote _ _ _ _ _ _ _ _ hreg => exact absurd hop hreg

end

theorem execAll_concat (ops : List StoreOp) (op : StoreOp) :
    execAll (ops ++ [op]) = op.exec (execAll ops) := by
  simp [execAll]

theorem lastMark_concat (ops : List StoreOp) (op : StoreOp) (sid id : String) :
    lastMark (ops ++ [op]) sid id = (op.marks sid id).or (lastMark ops sid id) := by
  rw [lastMark, lastMark, List.reverse_append, List.reverse_singleton, List.singleton_append,
    List.findSome?_cons]
  rcases op.marks sid id with _ | mark <;> rfl

theorem sequenced_execAll (ops : List StoreOp) : Sequenced (execAll ops) := by
  induction ops using List.reverseRecOn with
  | nil => intro sid session h; simp [execAll] at h
  | append_singleton ops op ih =>
    rw [execAll_concat]
    exact (exec_effect op _).sequenced ih

theorem records_execAll (ops : List StoreOp) {sid id : String} : ∀ {step : StepState},
    (execAll ops).step? sid id = some step → Records step (lastMark ops sid id) := by
  induction ops using List.reverseRecOn with
  | nil =>
    intro step h
    simp [execAll, step?] at h
  | append_singleton ops op ih =>
    intro step h
    rw [execAll_concat] at h
    rw [lastMark_concat]
    rcases (exec_effect op _).entry h with ⟨hold, hmark⟩ | hnew
    · rw [hmark]
      exact ih hold
    · intro hs
      obtain ⟨herror, result, key, hmark, hresult, hkey⟩ := hnew hs
      exact ⟨herror, result, key, by rw [hmark]; rfl, hresult, hkey⟩

theorem version_execAll (ops ops' : List StoreOp) {sid : String} {session : SessionState}
    (h : (execAll ops).sessions.get? sid = some session) :
    ∃ session', (execAll (ops ++ ops')).sessions.get? sid = some session' ∧
      session.planVersion ≤ session'.planVersion := by
  induction ops' using List.reverseRecOn with
  | nil => exact ⟨session, by simpa using h, Int.le_refl _⟩
  | append_singleton ops' op ih =>
    obtain ⟨session', h', hv⟩ := ih
    rw [← List.append_assoc, execAll_concat]
    obtain ⟨session'', h'', hv'⟩ := (exec_effect op _).version h'
    exact ⟨session'', h'', Int.le_trans hv hv'⟩

/-- What holds of a session after these calls. -/
structure Sound (ops : List StoreOp) (sid : String) (session : SessionState) : Prop where
  nodup : session.stepSequence.Nodup
  keys : ∀ id, id ∈ session.stepSequence ↔ id ∈ session.steps.keys
  completed : (execAll ops).completedStepIds sid
    = .ok (session.stepSequence.filter session.succeeded)
  pending : (execAll ops).pendingStepIds sid
    = .ok (session.stepSequence.filter fun id => !session.succeeded id)
  records : ∀ id step, session.steps.get? id = some step → Records step (lastMark ops sid id)
  recovery : RecoveryService.findRecoveryPoint session = .ok
    { sessionId := session.sessionId
      completedStepIds := session.stepSequence.filter session.succeeded
      resumeStepId := session.stepSequence.find? fun id => !session.succeeded id
      snapshotId := RecoveryService.findSnapshotId session
        (session.stepSequence.find? fun id => !session.succeeded id) }

theorem sound_execAll (ops : List StoreOp) {sid : String} {session : SessionState}
    (h : (execAll ops).sessions.get? sid = some session) : Sound ops sid session := by
  have hseq := sequenced_execAll ops sid session h
  have hw : ∀ id ∈ session.stepSequence, (session.steps.get? id).isSome := by
    intro id hid
    rwa [hseq, Dict.mem_keys_iff] at hid
  refine ⟨?_, fun id => by rw [hseq], ?_, ?_, fun id step hs => ?_,
    RecoveryService.findRecoveryPoint_eq hw⟩
  · rw [hseq]
    exact session.steps.nodup
  · simp [completedStepIds, getSession_eq h, bind, Except.bind,
      RecoveryService.stepIdsWhere_eq true hw]
  · simp [pendingStepIds, getSession_eq h, bind, Except.bind,
      RecoveryService.stepIdsWhere_eq false hw]
  · exact records_execAll ops ((step?_eq h id).trans hs)

/-- After any calls every session is sound. Whatever is called next, no version goes back, plans
that are registered keep the entries there are, and a call that raises changes nothing. -/
theorem store_invariant (ops : List StoreOp) :
    (∀ sid session, (execAll ops).sessions.get? sid = some session → Sound ops sid session) ∧
    (∀ ops' sid session, (execAll ops).sessions.get? sid = some session →
      ∃ session', (execAll (ops ++ ops')).sessions.get? sid = some session' ∧
        session.planVersion ≤ session'.planVersion) ∧
    (∀ (op : StoreOp) sid id step, op.RegistersPlan → (execAll ops).step? sid id = some step →
      (op.exec (execAll ops)).step? sid id = some step) ∧
    ∀ (op : StoreOp) e σ', EStateM.run op.run (execAll ops) = .error e σ' → σ' = execAll ops :=
  ⟨fun _ _ h => sound_execAll ops h, fun ops' _ _ h => version_execAll ops ops' h,
    fun op _ _ _ hop h => (exec_effect op _).keep hop h, fun _ _ _ h => eq_of_raises h⟩

end StoreOp

end AgentLearning
