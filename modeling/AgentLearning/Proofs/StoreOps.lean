import AgentLearning.Store

/-!
# What the store's operations change

The operations of a running step, and a cancel request, rewrite entries of steps that are there and
leave the head of the session alone (`Frame`). Those of the main thread set the session's status
or add entries for new steps. In a well-formed store a session's sequence lists exactly the steps
it has an entry for.
-/

namespace AgentLearning

/-- The session without its step entries, its snapshots and its cancel flag. -/
def SessionState.head (session : SessionState) : SessionState :=
  { session with steps := ∅, snapshots := [], cancelRequested := false }

/-- The step has an entry with status `SUCCESS`. -/
def SessionState.succeeded (session : SessionState) (stepId : String) : Bool :=
  (session.steps.get? stepId).any (·.status = .success)

namespace InMemoryStateStore

def HasSession (σ : InMemoryStateStore) (sid : String) : Prop := (σ.sessions.get? sid).isSome

/-- The entry of a step of a session. -/
def step? (σ : InMemoryStateStore) (sid stepId : String) : Option StepState :=
  (σ.sessions.get? sid).bind (·.steps.get? stepId)

def status? (σ : InMemoryStateStore) (sid : String) : Option ExecutionStatus :=
  (σ.sessions.get? sid).map (·.status)

def Succeeded (σ : InMemoryStateStore) (sid stepId : String) : Prop :=
  ∃ step, σ.step? sid stepId = some step ∧ step.status = .success

instance (σ : InMemoryStateStore) (sid stepId : String) : Decidable (σ.Succeeded sid stepId) :=
  decidable_of_iff ((σ.step? sid stepId).any (·.status = .success) = true) (by
    unfold Succeeded
    rcases σ.step? sid stepId with _ | step <;> simp)

/-- Every session's sequence lists exactly the steps with an entry. -/
def WellFormed (σ : InMemoryStateStore) : Prop :=
  ∀ sid session, σ.sessions.get? sid = some session →
    ∀ id, id ∈ session.stepSequence ↔ (session.steps.get? id).isSome

def put (σ : InMemoryStateStore) (sid : String) (session : SessionState) : InMemoryStateStore :=
  { σ with sessions := σ.sessions.set sid session }

variable {σ σ' σ'' : InMemoryStateStore} {sid id : String}

theorem get?_put (sid t : String) (session : SessionState) :
    (σ.put sid session).sessions.get? t = if sid = t then some session else σ.sessions.get? t :=
  Dict.get?_set ..

theorem step?_put (sid t id : String) (session : SessionState) :
    (σ.put sid session).step? t id = if sid = t then session.steps.get? id else σ.step? t id := by
  unfold step?
  rw [get?_put]
  split_ifs <;> rfl

theorem step?_eq {session : SessionState} (h : σ.sessions.get? sid = some session) (id : String) :
    σ.step? sid id = session.steps.get? id := by
  simp [step?, h]

theorem hasSession_iff : σ.HasSession sid ↔ ∃ session, σ.sessions.get? sid = some session :=
  Option.isSome_iff_exists

theorem hasSession_of_step? {step : StepState} (h : σ.step? sid id = some step) :
    σ.HasSession sid := by
  unfold step? at h
  rcases hs : σ.sessions.get? sid with _ | session <;> rw [hs] at h
  · cases h
  · simp [HasSession, hs]

theorem getSession_eq {session : SessionState} (h : σ.sessions.get? sid = some session) :
    σ.getSession sid = .ok session := by
  simp [getSession, h]

theorem modifySession_eq {session : SessionState} (h : σ.sessions.get? sid = some session)
    (f : SessionState → SessionState) : σ.modifySession sid f = .ok (σ.put sid (f session)) := by
  simp [modifySession, getSession_eq h, bind, Except.bind, pure, Except.pure, put]

/-- What an operation that raises only without the session does when it does not raise. -/
theorem of_modifySession_ok {f : SessionState → SessionState} {R : InMemoryStateStore → Prop}
    (h : σ.HasSession sid → ∃ σ', σ.modifySession sid f = .ok σ' ∧ R σ')
    (hσ' : σ.modifySession sid f = .ok σ') : R σ' := by
  rcases hs : σ.sessions.get? sid with _ | session
  · simp [modifySession, getSession, hs, bind, Except.bind] at hσ'
  · obtain ⟨σ₁, hσ₁, hR⟩ := h (hasSession_iff.mpr ⟨session, hs⟩)
    rw [hσ'] at hσ₁
    cases hσ₁
    exact hR

/-- An operation on a session that does not raise found it. -/
theorem modifySession_ok {f : SessionState → SessionState}
    (h : σ.modifySession sid f = .ok σ') :
    ∃ session, σ.sessions.get? sid = some session ∧ σ' = σ.put sid (f session) := by
  refine of_modifySession_ok (R := fun σ' => ∃ session, σ.sessions.get? sid = some session
    ∧ σ' = σ.put sid (f session)) (fun hs => ?_) h
  obtain ⟨session, hs⟩ := hasSession_iff.mp hs
  exact ⟨_, modifySession_eq hs f, session, hs, rfl⟩

theorem getStep_eq {step : StepState} (h : σ.step? sid id = some step) :
    σ.getStep sid id = .ok step := by
  obtain ⟨session, hs⟩ := hasSession_iff.mp (hasSession_of_step? h)
  rw [step?_eq hs] at h
  simp [getStep, getSession_eq hs, bind, Except.bind, h, pure, Except.pure]

/-! ## Frames -/

/-- Only entries of steps in `P` of the session changed, and none came or went. -/
structure Frame (sid : String) (P : String → Prop) (σ σ' : InMemoryStateStore) : Prop where
  head : ∀ t, (σ'.sessions.get? t).map SessionState.head
    = (σ.sessions.get? t).map SessionState.head
  step : ∀ t id, ¬ (t = sid ∧ P id) → σ'.step? t id = σ.step? t id
  isSome : ∀ t id, (σ'.step? t id).isSome = (σ.step? t id).isSome

variable {P P' : String → Prop}

theorem Frame.refl (σ : InMemoryStateStore) : Frame sid P σ σ :=
  ⟨fun _ => rfl, fun _ _ _ => rfl, fun _ _ => rfl⟩

theorem Frame.trans (h : Frame sid P σ σ') (h' : Frame sid P σ' σ'') : Frame sid P σ σ'' where
  head t := (h'.head t).trans (h.head t)
  step t id hn := (h'.step t id hn).trans (h.step t id hn)
  isSome t id := (h'.isSome t id).trans (h.isSome t id)

theorem Frame.mono (h : Frame sid P σ σ') (hP : ∀ id, P id → P' id) : Frame sid P' σ σ' where
  head := h.head
  step t id hn := h.step t id fun hp => hn ⟨hp.1, hP id hp.2⟩
  isSome := h.isSome

theorem Frame.hasSession (h : Frame sid P σ σ') (t : String) :
    σ'.HasSession t ↔ σ.HasSession t := by
  have := congrArg Option.isSome (h.head t)
  simpa [HasSession] using this

theorem Frame.status? (h : Frame sid P σ σ') (t : String) : σ'.status? t = σ.status? t := by
  have := congrArg (Option.map SessionState.status) (h.head t)
  simpa [InMemoryStateStore.status?, SessionState.head, Option.map_map, Function.comp_def]
    using this

theorem Frame.succeeded (h : Frame sid P σ σ') {t : String} (hn : ¬ (t = sid ∧ P id)) :
    σ'.Succeeded t id ↔ σ.Succeeded t id := by
  unfold Succeeded
  rw [h.step t id hn]

theorem Frame.wellFormed (h : Frame sid P σ σ') (hw : σ.WellFormed) : σ'.WellFormed := by
  intro t session' hs' id
  have hhead := h.head t
  rw [hs'] at hhead
  obtain ⟨session, hs, he⟩ := Option.map_eq_some_iff.mp hhead.symm
  have hseq : session'.stepSequence = session.stepSequence :=
    (congrArg SessionState.stepSequence he).symm
  have hsome := h.isSome t id
  rw [step?_eq hs', step?_eq hs] at hsome
  rw [hseq, hw t session hs id, hsome]

/-- Writing a session back with the same head and other entries for steps in `P`. -/
theorem frame_put {session session' : SessionState} (h : σ.sessions.get? sid = some session)
    (hhead : session'.head = session.head)
    (hstep : ∀ id, ¬ P id → session'.steps.get? id = session.steps.get? id)
    (hsome : ∀ id, (session'.steps.get? id).isSome = (session.steps.get? id).isSome) :
    Frame sid P σ (σ.put sid session') where
  head t := by
    rw [get?_put]
    split_ifs with ht
    · rw [← ht, h]
      simp [hhead]
    · rfl
  step t id hn := by
    rw [step?_put]
    split_ifs with ht
    · subst ht
      rw [step?_eq h]
      exact hstep id fun hp => hn ⟨rfl, hp⟩
    · rfl
  isSome t id := by
    rw [step?_put]
    split_ifs with ht
    · subst ht
      rw [step?_eq h, hsome]
    · rfl

/-- A change of a session that leaves its head and its entries. -/
theorem frame_modifySession {f : SessionState → SessionState}
    (hhead : ∀ session, (f session).head = session.head)
    (hsteps : ∀ session, (f session).steps = session.steps) (h : σ.HasSession sid) :
    ∃ σ', σ.modifySession sid f = .ok σ' ∧ ∀ P, Frame sid P σ σ' := by
  obtain ⟨session, hs⟩ := hasSession_iff.mp h
  refine ⟨_, modifySession_eq hs f, fun P => frame_put hs (hhead session) ?_ ?_⟩
  · intro id _
    rw [hsteps]
  · intro id
    rw [hsteps]

theorem saveSnapshot_frame (h : σ.HasSession sid) (snapshot : StepSnapshot) :
    ∃ σ', σ.saveSnapshot sid snapshot = .ok σ' ∧ ∀ P, Frame sid P σ σ' :=
  frame_modifySession (fun _ => rfl) (fun _ => rfl) h

theorem markCancelRequested_frame (h : σ.HasSession sid) :
    ∃ σ', σ.markCancelRequested sid = .ok σ' ∧ ∀ P, Frame sid P σ σ' :=
  frame_modifySession (fun _ => rfl) (fun _ => rfl) h

/-- Rewriting the entry of a step that is there. -/
theorem modifyStep_frame {step : StepState} (h : σ.step? sid id = some step)
    (f : StepState → StepState) :
    ∃ σ', σ.modifyStep sid id f = .ok σ' ∧ Frame sid (· = id) σ σ'
      ∧ σ'.step? sid id = some (f step) := by
  obtain ⟨session, hs⟩ := hasSession_iff.mp (hasSession_of_step? h)
  refine ⟨σ.put sid { session with steps := session.steps.set id (f step) }, ?_, ?_, ?_⟩
  · simp [modifyStep, getStep_eq h, bind, Except.bind, modifySession_eq hs]
  · rw [step?_eq hs] at h
    refine frame_put hs rfl (fun x hx => ?_) fun x => ?_
    · exact Dict.get?_set_ne _ _ (Ne.symm hx)
    · simp only [Dict.get?_set]
      split_ifs with hx
      · rw [← hx, h]
        rfl
      · rfl
  · rw [step?_put]
    simp

/-- An operation on a step that does not raise found it. -/
theorem modifyStep_ok {f : StepState → StepState} (h : σ.modifyStep sid id f = .ok σ') :
    ∃ step, σ.step? sid id = some step ∧ Frame sid (· = id) σ σ'
      ∧ σ'.step? sid id = some (f step) := by
  rcases hstep : σ.step? sid id with _ | step
  · unfold modifyStep getStep getSession at h
    unfold step? at hstep
    rcases hs : σ.sessions.get? sid with _ | session <;> rw [hs] at h hstep
    · cases h
    · simp only [Option.bind_some] at hstep
      simp only [bind, Except.bind, hstep] at h
      cases h
  · obtain ⟨σ₁, hσ₁, hframe, hnew⟩ := modifyStep_frame hstep f
    rw [h] at hσ₁
    cases hσ₁
    exact ⟨step, rfl, hframe, hnew⟩

/-! ## Operations of the main thread -/

/-- The session's status was set, and every entry stayed. -/
structure Persists (sid : String) (status : ExecutionStatus) (σ σ' : InMemoryStateStore) :
    Prop where
  step : ∀ t id, σ'.step? t id = σ.step? t id
  hasSession : ∀ t, σ'.HasSession t ↔ σ.HasSession t
  status : σ'.status? sid = some status
  wellFormed : σ.WellFormed → σ'.WellFormed

theorem setSessionStatus_persists (h : σ.HasSession sid) (status : ExecutionStatus) :
    ∃ σ', σ.setSessionStatus sid status = .ok σ' ∧ Persists sid status σ σ' := by
  obtain ⟨session, hs⟩ := hasSession_iff.mp h
  refine ⟨_, modifySession_eq hs _, fun t id => ?_, fun t => ?_, ?_, fun hw t session' hs' id => ?_⟩
  · rw [step?_put]
    split_ifs with ht
    · rw [← ht, step?_eq hs]
    · rfl
  · unfold HasSession
    rw [get?_put]
    split_ifs with ht
    · simp [← ht, hs]
    · rfl
  · simp [InMemoryStateStore.status?, get?_put]
  · rw [get?_put] at hs'
    split_ifs at hs' with ht
    · cases hs'
      exact hw sid session hs id
    · exact hw t session' hs' id

theorem Persists.frame {status : ExecutionStatus} (h : Persists sid status σ σ')
    (hf : ∀ P, Frame sid P σ' σ'') : Persists sid status σ σ'' where
  step t id := ((hf fun _ => False).step t id (by simp)).trans (h.step t id)
  hasSession t := ((hf fun _ => False).hasSession t).trans (h.hasSession t)
  status := ((hf fun _ => False).status? sid).trans h.status
  wellFormed hw := (hf fun _ => False).wellFormed (h.wellFormed hw)

end InMemoryStateStore

/-! ## Registering steps -/

namespace SessionState

variable {session : SessionState}

/-- What inserting steps does to a session's entries: those that are there stay, the new ones are
pending. -/
structure Inserts (steps : List StepDict) (session session' : SessionState) : Prop where
  keep : ∀ id step, session.steps.get? id = some step → session'.steps.get? id = some step
  fresh : ∀ id step, session.steps.get? id = none → session'.steps.get? id = some step →
    ∃ d ∈ steps, d.stepId = id ∧ step = d.toState
  mem : ∀ d ∈ steps, (session'.steps.get? d.stepId).isSome
  wellFormed : (∀ id, id ∈ session.stepSequence ↔ (session.steps.get? id).isSome) →
    ∀ id, id ∈ session'.stepSequence ↔ (session'.steps.get? id).isSome

theorem insertStep_inserts (d : StepDict) : Inserts [d] session (session.insertStep d) := by
  unfold insertStep
  split_ifs with h
  · exact ⟨fun _ _ h => h, fun id step hn hs => by simp [hn] at hs, by simpa using h,
      fun hw => hw⟩
  · rw [Option.not_isSome_iff_eq_none] at h
    refine ⟨fun id step hs => ?_, fun id step hn hs => ?_, by simp, fun hw id => ?_⟩
    · rw [Dict.get?_set_ne]
      · exact hs
      · rintro rfl
        simp [h] at hs
    · rw [Dict.get?_set] at hs
      split_ifs at hs with hid
      · cases hs
        exact ⟨d, by simp, hid, rfl⟩
      · simp [hn] at hs
    · rw [Dict.get?_set, List.mem_append, hw id, List.mem_singleton]
      split_ifs with hid
      · simp [hid]
      · simp [Ne.symm hid]

theorem foldl_insertStep_inserts : ∀ (steps : List StepDict) (session : SessionState),
    Inserts steps session (steps.foldl insertStep session)
  | [], session => ⟨fun _ _ h => h, fun id step hn hs => by simp [hn] at hs, by simp, fun hw => hw⟩
  | d :: steps, session => by
    have h1 : Inserts [d] session (session.insertStep d) := insertStep_inserts d
    have h2 := foldl_insertStep_inserts steps (session.insertStep d)
    refine ⟨fun id step hs => h2.keep id step (h1.keep id step hs), fun id step hn hs => ?_,
      fun d' hd' => ?_, fun hw => h2.wellFormed (h1.wellFormed hw)⟩
    · rcases hmid : (session.insertStep d).steps.get? id with _ | step'
      · obtain ⟨d', hd', h⟩ := h2.fresh id step hmid hs
        exact ⟨d', List.mem_cons_of_mem _ hd', h⟩
      · have heq := h2.keep id step' hmid
        rw [List.foldl_cons, heq] at hs
        cases hs
        obtain ⟨d', hd', h⟩ := h1.fresh id _ hn hmid
        rw [List.mem_singleton] at hd'
        exact ⟨d', by simp [hd'], h⟩
    · rcases List.mem_cons.mp hd' with rfl | hd'
      · obtain ⟨step, hs⟩ := Option.isSome_iff_exists.mp (h1.mem d' (by simp))
        rw [List.foldl_cons, h2.keep _ step hs]
        rfl
      · exact h2.mem d' hd'

end SessionState

namespace InMemoryStateStore

variable {σ σ' : InMemoryStateStore} {sid id : String}

/-- What registering steps in a session does to the store's entries. -/
structure Registers (sid : String) (steps : List StepDict) (σ σ' : InMemoryStateStore) : Prop where
  hasSession : σ'.HasSession sid
  keep : ∀ t id step, σ.step? t id = some step → σ'.step? t id = some step
  fresh : ∀ t id step, σ.step? t id = none → σ'.step? t id = some step →
    t = sid ∧ ∃ d ∈ steps, d.stepId = id ∧ step = d.toState
  mem : ∀ d ∈ steps, (σ'.step? sid d.stepId).isSome
  wellFormed : σ.WellFormed → σ'.WellFormed

/-- Writing a session back after inserting steps into one with the entries that were there. -/
theorem registers_put {session session' : SessionState} {steps : List StepDict}
    (h : SessionState.Inserts steps session session')
    (hsteps : ∀ id, session.steps.get? id = σ.step? sid id)
    (hseq : σ.WellFormed → ∀ id, id ∈ session.stepSequence ↔ (session.steps.get? id).isSome) :
    Registers sid steps σ (σ.put sid session') where
  hasSession := by simp [HasSession, get?_put]
  keep t id step hstep := by
    rw [step?_put]
    split_ifs with ht
    · subst ht
      exact h.keep id step ((hsteps id).trans hstep)
    · exact hstep
  fresh t id step hnone hstep := by
    rw [step?_put] at hstep
    split_ifs at hstep with ht
    · subst ht
      exact ⟨rfl, h.fresh id step ((hsteps id).trans hnone) hstep⟩
    · simp [hnone] at hstep
  mem d hd := by
    rw [step?_put, if_pos rfl]
    exact h.mem d hd
  wellFormed hw t session'' hs'' := by
    rw [get?_put] at hs''
    split_ifs at hs'' with ht
    · cases hs''
      exact h.wellFormed (hseq hw)
    · exact hw t session'' hs''

theorem upsertPlanSteps_registers (h : σ.HasSession sid) (steps : List StepDict)
    (planVersion : ℤ) :
    ∃ σ', σ.upsertPlanSteps sid steps planVersion = .ok σ' ∧ Registers sid steps σ σ' := by
  obtain ⟨session, hs⟩ := hasSession_iff.mp h
  refine ⟨_, modifySession_eq hs _, registers_put (SessionState.foldl_insertStep_inserts _ _)
    (fun id => ?_) fun hw id => ?_⟩
  · rw [step?_eq hs]
  · exact hw sid session hs id

theorem Registers.trans {σ'' : InMemoryStateStore} {steps : List StepDict}
    (h : Registers sid [] σ σ') (h' : Registers sid steps σ' σ'') :
    Registers sid steps σ σ'' where
  hasSession := h'.hasSession
  keep t id step hs := h'.keep t id step (h.keep t id step hs)
  fresh t id step hn hs := by
    rcases hmid : σ'.step? t id with _ | step'
    · exact h'.fresh t id step hmid hs
    · obtain ⟨-, d, hd, -⟩ := h.fresh t id step' hn hmid
      simp at hd
  mem := h'.mem
  wellFormed hw := h'.wellFormed (h.wellFormed hw)

theorem Registers.succeeded {t : String} {steps : List StepDict} (h : Registers sid steps σ σ') :
    σ'.Succeeded t id ↔ σ.Succeeded t id := by
  constructor
  · rintro ⟨step, hs, hsuccess⟩
    rcases hold : σ.step? t id with _ | old
    · obtain ⟨-, d, -, -, rfl⟩ := h.fresh t id step hold hs
      simp [StepDict.toState] at hsuccess
    · rw [h.keep t id old hold] at hs
      cases hs
      exact ⟨_, hold, hsuccess⟩
  · rintro ⟨step, hs, hsuccess⟩
    exact ⟨step, h.keep t id step hs, hsuccess⟩

theorem inserts_nil (session : SessionState) : SessionState.Inserts [] session session :=
  SessionState.foldl_insertStep_inserts [] session

theorem initSession_registers (σ : InMemoryStateStore) (sid requestId : String)
    (steps : List StepDict) (planVersion : ℤ) (traceId : String) :
    ∃ σ', σ.initSession sid requestId steps planVersion traceId = .ok σ'
      ∧ Registers sid steps σ σ' := by
  unfold initSession
  rcases hs : σ.sessions.get? sid with _ | session
  · have hreg : Registers sid [] σ
        (σ.put sid { sessionId := sid, requestId, traceId, planVersion }) :=
      registers_put (inserts_nil _) (fun id => by simp [step?, hs]) fun _ id => by simp
    obtain ⟨σ', hσ', hreg'⟩ := upsertPlanSteps_registers hreg.hasSession steps planVersion
    exact ⟨σ', hσ', hreg.trans hreg'⟩
  · have hreg : Registers sid [] σ (σ.put sid { session with
        requestId
        traceId := if traceId = "" then session.traceId else traceId
        planVersion := max session.planVersion planVersion }) :=
      registers_put (inserts_nil _) (fun id => by rw [step?_eq hs]) fun hw => hw sid session hs
    obtain ⟨σ', hσ', hreg'⟩ := upsertPlanSteps_registers hreg.hasSession steps planVersion
    exact ⟨σ', hσ', hreg.trans hreg'⟩

end InMemoryStateStore

/-! ## The recovery point -/

namespace RecoveryService

variable {session : SessionState}

theorem stepIdsWhere_eq (success : Bool) : ∀ {ids : List String},
    (∀ id ∈ ids, (session.steps.get? id).isSome) → stepIdsWhere session success ids
      = .ok (ids.filter fun id => session.succeeded id = success)
  | [], _ => rfl
  | id :: ids, h => by
    obtain ⟨step, hstep⟩ := Option.isSome_iff_exists.mp (h id (by simp))
    have ih := stepIdsWhere_eq success fun x hx => h x (List.mem_cons_of_mem _ hx)
    have hid : session.succeeded id = decide (step.status = .success) := by
      simp [SessionState.succeeded, hstep]
    rw [List.filter_cons, hid]
    by_cases hs : decide (step.status = .success) = success
    · simp [stepIdsWhere, hstep, ih, hs, bind, Except.bind, pure, Except.pure]
    · simp [stepIdsWhere, hstep, ih, hs, bind, Except.bind, pure, Except.pure]

theorem resumeStepId_eq : ∀ {ids : List String}, (∀ id ∈ ids, (session.steps.get? id).isSome) →
    resumeStepId session ids = .ok (ids.find? fun id => !session.succeeded id)
  | [], _ => rfl
  | id :: ids, h => by
    obtain ⟨step, hstep⟩ := Option.isSome_iff_exists.mp (h id (by simp))
    have ih := resumeStepId_eq fun x hx => h x (List.mem_cons_of_mem _ hx)
    by_cases hsucc : step.status = .success
    · simp [resumeStepId, hstep, hsucc, ih, SessionState.succeeded]
    · simp [resumeStepId, hstep, hsucc, SessionState.succeeded]

/-- In a well-formed session the recovery point lists the steps that succeeded, and resumes at the
first that did not. -/
theorem findRecoveryPoint_eq
    (hw : ∀ id ∈ session.stepSequence, (session.steps.get? id).isSome) :
    findRecoveryPoint session = .ok
      { sessionId := session.sessionId
        completedStepIds := session.stepSequence.filter session.succeeded
        resumeStepId := session.stepSequence.find? fun id => !session.succeeded id
        snapshotId := findSnapshotId session
          (session.stepSequence.find? fun id => !session.succeeded id) } := by
  simp [findRecoveryPoint, stepIdsWhere_eq true hw, resumeStepId_eq hw, bind, Except.bind, pure,
    Except.pure]

/-- In a well-formed session the completed ids are those of the entries with `SUCCESS`. -/
theorem findRecoveryPoint_ok
    (hw : ∀ id, id ∈ session.stepSequence ↔ (session.steps.get? id).isSome) :
    ∃ point, findRecoveryPoint session = .ok point ∧ ∀ id, id ∈ point.completedStepIds ↔
      ∃ step, session.steps.get? id = some step ∧ step.status = .success := by
  refine ⟨_, findRecoveryPoint_eq fun id hid => (hw id).mp hid, fun id => ?_⟩
  simp only [List.mem_filter, hw, SessionState.succeeded]
  rcases session.steps.get? id with _ | step <;> simp

end RecoveryService

end AgentLearning
