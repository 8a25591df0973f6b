import AgentLearning.Proofs.Snapshots
import AgentLearning.Proofs.StoreInvariant

/-!
# Idempotency keys

The last colon of a key separates the version and the step id is known, so the key of a step gives
its request and its version. After any calls a step is skipped under a key exactly if the last call
that changed its status marked it as successful with this key.
-/

namespace AgentLearning

open InMemoryStateStore

/-! ## Keys -/

section Keys

variable {requestId requestId' stepId : String} {version version' : ℤ}

theorem notMem_toString_int (n : ℤ) : ':' ∉ (toString n).toList := by
  rw [Int.toString_eq_repr]
  rcases n with k | k
  · exact Replanner.notMem_natRepr (by decide) k
  · intro h
    simp only [Int.repr, String.toList_append, List.mem_append] at h
    rcases h with h | h
    · exact absurd h (by decide)
    · exact Replanner.notMem_natRepr (by decide) _ h

theorem toList_buildIdempotencyKey : (buildIdempotencyKey requestId stepId version).toList
    = (requestId.toList ++ ':' :: stepId.toList) ++ ':' :: (toString version).toList := by
  have hcolon : ":".toList = [':'] := by decide
  simp [buildIdempotencyKey, hcolon]

theorem buildIdempotencyKey_inj
    (h : buildIdempotencyKey requestId stepId version
      = buildIdempotencyKey requestId' stepId version') :
    requestId = requestId' ∧ version = version' := by
  have hlist := congrArg String.toList h
  rw [toList_buildIdempotencyKey, toList_buildIdempotencyKey] at hlist
  obtain ⟨hfront, hversion⟩ := Replanner.append_cons_inj (notMem_toString_int version)
    (notMem_toString_int version') hlist
  refine ⟨String.toList_inj.mp (List.append_cancel_right hfront), ?_⟩
  rw [Int.toString_eq_repr, Int.toString_eq_repr] at hversion
  exact Int.repr_inj.mp (String.toList_inj.mp hversion)

theorem buildIdempotencyKey_ne_empty : buildIdempotencyKey requestId stepId version ≠ "" := by
  intro h
  have hlist := congrArg String.toList h
  rw [toList_buildIdempotencyKey] at hlist
  simp at hlist

end Keys

/-! ## The status of a step -/

namespace InMemoryStateStore

/-- The step is `SUCCESS`, and has this key. -/
def SucceededWith (σ : InMemoryStateStore) (sid id key : String) : Prop :=
  ∃ step, σ.step? sid id = some step ∧ step.status = .success ∧ step.idempotencyKey = key

variable {σ : InMemoryStateStore} {sid id key : String}

theorem getStep_of_none (h : σ.step? sid id = none) : ∃ e, σ.getStep sid id = .error e := by
  unfold getStep getSession
  rcases hs : σ.sessions.get? sid with _ | session
  · exact ⟨_, rfl⟩
  · rw [step?_eq hs] at h
    simp only [bind, Except.bind, h]
    exact ⟨_, rfl⟩

theorem shouldSkipStep_iff (hkey : key ≠ "") :
    σ.shouldSkipStep sid id key = .ok true ↔ σ.SucceededWith sid id key := by
  unfold shouldSkipStep SucceededWith
  rcases hstep : σ.step? sid id with _ | step
  · obtain ⟨e, he⟩ := getStep_of_none hstep
    simp [he, bind, Except.bind]
  · simp only [getStep_eq hstep, bind, Except.bind, pure, Except.pure]
    simp only [Except.ok.injEq, Bool.and_eq_true, decide_eq_true_eq, Option.some.injEq,
      exists_eq_left']
    constructor
    · rintro ⟨⟨hs, -⟩, hk⟩
      exact ⟨hs, hk⟩
    · rintro ⟨hs, rfl⟩
      exact ⟨⟨hs, hkey⟩, rfl⟩

end InMemoryStateStore

namespace StoreOp

open StoreM

/-- The call assigns a status to this step. -/
def setsStatus (sid id : String) : StoreOp → Bool
  | .markStepRunning sid' id' => sid' = sid && id' = id
  | .markStepWaitingTool sid' id' => sid' = sid && id' = id
  | .markStepSuccess sid' id' _ _ => sid' = sid && id' = id
  | .markStepFailed sid' id' _ => sid' = sid && id' = id
  | .markStepCanceled sid' id' _ => sid' = sid && id' = id
  | _ => false

/-- The calls that changed the status of a step. On a step that is not there they raise. -/
def statusCalls (sid id : String) : InMemoryStateStore → List StoreOp → List StoreOp
  | _, [] => []
  | σ, op :: ops =>
    let later := statusCalls sid id (op.exec σ) ops
    if op.setsStatus sid id && (σ.step? sid id).isSome then op :: later else later

/-- The last call, of a sequence on a new store, that changed the status of a step. -/
def lastStatusCall (sid id : String) (ops : List StoreOp) : Option StoreOp :=
  (statusCalls sid id {} ops).getLast?

variable {σ : InMemoryStateStore} {op : StoreOp} {sid id sid' id' key : String}

/-! ### One call -/

theorem succeededWith_modifyStep {f : StepState → StepState} {step : StepState}
    (hop : op.apply σ = σ.modifyStep sid id f) (h : σ.step? sid id = some step) :
    (op.exec σ).SucceededWith sid id key
      ↔ (f step).status = .success ∧ (f step).idempotencyKey = key := by
  obtain ⟨σ', hσ', -, hstep⟩ := modifyStep_frame h f
  rw [exec_eq, hop, hσ']
  simp [SucceededWith, hstep]

theorem step?_modifyStep_other {f : StepState → StepState}
    (hop : op.apply σ = σ.modifyStep sid' id' f)
    (h : ¬ (sid = sid' ∧ id = id') ∨ σ.step? sid' id' = none) :
    (op.exec σ).step? sid id = σ.step? sid id := by
  rw [exec_eq, hop]
  rcases hf : σ.modifyStep sid' id' f with e | σ'
  · rfl
  · obtain ⟨step, hstep, hframe, -⟩ := modifyStep_ok hf
    refine hframe.step sid id fun hid => ?_
    rcases h with h | h
    · exact h hid
    · rw [h] at hstep
      cases hstep

/-- A session that grows keeps its entries, and what it inserts is pending. -/
theorem succeededWith_put {old new : SessionState}
    (hold : ∀ id, σ.step? sid' id = old.steps.get? id) (h : Grows old new) :
    (σ.put sid' new).SucceededWith sid id key ↔ σ.SucceededWith sid id key := by
  unfold SucceededWith
  by_cases hsid : sid' = sid
  · subst hsid
    rw [step?_put, if_pos rfl, hold]
    constructor
    · rintro ⟨step, hstep, hs, hk⟩
      rcases ho : old.steps.get? id with _ | step'
      · rw [h.fresh id step ho hstep] at hs
        cases hs
      · rw [h.keep id step' ho] at hstep
        exact ⟨step, hstep, hs, hk⟩
    · rintro ⟨step, hstep, hs, hk⟩
      exact ⟨step, h.keep id step hstep, hs, hk⟩
  · rw [step?_put, if_neg hsid]

theorem succeededWith_of_modifySession {f : SessionState → SessionState}
    (hop : op.apply σ = σ.modifySession sid' f) (hf : ∀ session, Grows session (f session)) :
    (op.exec σ).SucceededWith sid id key ↔ σ.SucceededWith sid id key := by
  rw [exec_eq, hop]
  rcases hs : σ.sessions.get? sid' with _ | session
  · simp [modifySession, InMemoryStateStore.getSession, hs, bind, Except.bind]
  · simp only [modifySession_eq hs]
    exact succeededWith_put (step?_eq hs) (hf session)

theorem succeededWith_initSession (requestId : String) (steps : List StepDict) (planVersion : ℤ)
    (traceId : String) :
    (exec (.initSession sid' requestId steps planVersion traceId) σ).SucceededWith sid id key
      ↔ σ.SucceededWith sid id key := by
  rw [exec_eq]
  simp only [apply, initSession_eq, opened]
  rcases hs : σ.sessions.get? sid' with _ | session
  · let created : SessionState := { sessionId := sid', requestId, traceId, planVersion }
    have hcreated (id : String) : σ.step? sid' id = created.steps.get? id := by
      simp [step?, hs, created]
    exact succeededWith_put hcreated (grows_register steps planVersion _)
  · refine succeededWith_put (step?_eq hs) (.trans ?_ (grows_register steps planVersion _))
    exact .of_head rfl rfl (Int.le_max_left _ _)

/-- A call that does not set the status of the step, or raises because it is not there. -/
theorem succeededWith_exec_of_not
    (h : ¬ (op.setsStatus sid id && (σ.step? sid id).isSome) = true) :
    (op.exec σ).SucceededWith sid id key ↔ σ.SucceededWith sid id key := by
  have hstep {sid' id' : String} {f : StepState → StepState}
      (hop : op.apply σ = σ.modifyStep sid' id' f)
      (hsets : op.setsStatus sid id = (sid' = sid && id' = id)) :
      (op.exec σ).SucceededWith sid id key ↔ σ.SucceededWith sid id key := by
    unfold SucceededWith
    rw [step?_modifyStep_other hop]
    by_cases hid : sid = sid' ∧ id = id'
    · obtain ⟨rfl, rfl⟩ := hid
      rw [hsets] at h
      exact .inr (by simpa using h)
    · exact .inl hid
  cases op with
  | initSession => exact succeededWith_initSession _ _ _ _
  | upsertPlanSteps _ steps planVersion =>
    exact succeededWith_of_modifySession rfl (grows_register steps planVersion)
  | setSessionStatus | markCancelRequested | saveSnapshot =>
    exact succeededWith_of_modifySession rfl fun _ => .of_head rfl rfl (Int.le_refl _)
  | markStepRunning | markStepWaitingTool | markStepSuccess | markStepFailed | markStepCanceled =>
    exact hstep rfl rfl

/-- A call that sets the status of the step: only the one for success leaves it with a key. -/
theorem succeededWith_exec_of_setsStatus (hop : op.setsStatus sid id = true)
    (hstep : (σ.step? sid id).isSome) : (op.exec σ).SucceededWith sid id key
      ↔ ∃ result, op = .markStepSuccess sid id result key := by
  obtain ⟨step, hstep⟩ := Option.isSome_iff_exists.mp hstep
  cases op with
  | initSession | upsertPlanSteps | setSessionStatus | markCancelRequested | saveSnapshot =>
    simp [setsStatus] at hop
  | markStepRunning | markStepWaitingTool | markStepFailed | markStepCanceled =>
    simp only [setsStatus, Bool.and_eq_true, decide_eq_true_eq] at hop
    obtain ⟨rfl, rfl⟩ := hop
    rw [succeededWith_modifyStep rfl hstep]
    simp
  | markStepSuccess sid' id' result key' =>
    simp only [setsStatus, Bool.and_eq_true, decide_eq_true_eq] at hop
    obtain ⟨rfl, rfl⟩ := hop
    rw [succeededWith_modifyStep rfl hstep]
    simp

/-! ### A sequence of calls -/

/-- Skipping is decided by the last call that changed the status, or by the store before all. -/
theorem succeededWith_foldl (ops : List StoreOp) : ∀ σ : InMemoryStateStore,
    (ops.foldl (fun σ op => op.exec σ) σ).SucceededWith sid id key
      ↔ match (statusCalls sid id σ ops).getLast? with
        | some op => ∃ result, op = .markStepSuccess sid id result key
        | none => σ.SucceededWith sid id key := by
  induction ops with
  | nil => exact fun σ => Iff.rfl
  | cons op ops ih =>
    intro σ
    rw [List.foldl_cons, ih, statusCalls]
    split_ifs with hop
    · rw [Bool.and_eq_true] at hop
      rw [List.getLast?_cons]
      rcases (statusCalls sid id (op.exec σ) ops).getLast? with _ | last
      · exact succeededWith_exec_of_setsStatus hop.1 hop.2
      · exact Iff.rfl
    · rcases (statusCalls sid id (op.exec σ) ops).getLast? with _ | last
      · exact succeededWith_exec_of_not hop
      · exact Iff.rfl

theorem succeededWith_execAll (ops : List StoreOp) : (execAll ops).SucceededWith sid id key
    ↔ ∃ result, lastStatusCall sid id ops = some (.markStepSuccess sid id result key) := by
  unfold execAll lastStatusCall
  rw [succeededWith_foldl]
  rcases (statusCalls sid id {} ops).getLast? with _ | op
  · simp [SucceededWith, step?]
  · simp

end StoreOp

open StoreOp

/-- The key of a step tells requests and versions apart. So after any calls the step is skipped for
a request and a version exactly if the last call that changed its status was a `mark_step_success`
with the key of both. -/
theorem shouldSkipStep_iff_lastStatusCall (stepId : String) :
    Function.Injective (fun attempt : String × ℤ =>
      buildIdempotencyKey attempt.1 stepId attempt.2)
    ∧ ∀ (ops : List StoreOp) (sessionId requestId : String) (version : ℤ),
      (execAll ops).shouldSkipStep sessionId stepId
          (buildIdempotencyKey requestId stepId version) = .ok true
        ↔ ∃ result, lastStatusCall sessionId stepId ops = some (.markStepSuccess sessionId stepId
            result (buildIdempotencyKey requestId stepId version)) := by
  constructor
  · rintro ⟨requestId, version⟩ ⟨requestId', version'⟩ h
    obtain ⟨rfl, rfl⟩ := buildIdempotencyKey_inj h
    rfl
  · intro ops sessionId requestId version
    rw [shouldSkipStep_iff buildIdempotencyKey_ne_empty, succeededWith_execAll]

end AgentLearning
