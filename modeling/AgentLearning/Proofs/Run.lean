import AgentLearning.Lib.Trace
import AgentLearning.Proofs.MainThread
import AgentLearning.Proofs.SingleStep

/-!
# Whole runs

The invariant of a call between two actions. `Base` relates the plan at hand, the store, the ids
counted as completed and the trace; `Batch` adds that every thread of a batch is safe where it
stands. `Inv.step` is that every enabled action keeps it.

As for one step it comes in two strengths. Under `solo` the ids of the plan at hand are distinct,
so that completed steps are `SUCCESS` in the store. Under `clean` in addition no fold loses a
success, so that what was marked in this call is completed, and no tool is called again after its
step was marked.
-/

namespace AgentLearning

open InMemoryStateStore Executor

/-- A call of the tool of a step that was marked as a success. -/
def Event.Repeats : Event → Event → Prop
  | .markStepSuccess sid id _, .invoke sid' step _ => sid = sid' ∧ id = step.stepId
  | _, _ => False

instance : DecidableRel Event.Repeats
  | .markStepSuccess sid id _, .invoke sid' step _ =>
    inferInstanceAs (Decidable (sid = sid' ∧ id = step.stepId))
  | .markStepSuccess _ _ _, .markStepSuccess _ _ _ => isFalse id
  | .invoke _ _ _, _ => isFalse id

/-- No tool is called after the success of its step was marked. -/
def NoRepeat (trace : List Event) : Prop := trace.Pairwise fun e e' => ¬ Event.Repeats e e'

instance (trace : List Event) : Decidable (NoRepeat trace) :=
  inferInstanceAs (Decidable (List.Pairwise _ _))

theorem NoRepeat.append {trace : List Event} (h : NoRepeat trace) {e : Event}
    (he : ∀ e' ∈ trace, ¬ Event.Repeats e' e) : NoRepeat (trace ++ [e]) := by
  exact pairwise_append_singleton.mpr ⟨h, he⟩

/-- The fold replans after a failure that has a success behind it. -/
def Config.losesSuccess (E : Executor) (c : Config) : List StepOutcome → Bool
  | [] => false
  | o :: os =>
    if o.result.success then losesSuccess E c os
    else match E.replanAfterFailure c.plan o.step o.result.error c.replanCount with
      | .ok (some _) => os.any (·.result.success)
      | _ => false

/-- If the batch at hand is ready to be folded, the fold loses no success. -/
def Config.keepsSuccesses (E : Executor) (c : Config) : Bool :=
  match c.phase with
  | .batch threads results =>
    match threads.all (·.collected), Config.orderedResults results threads with
    | true, .ok os => !c.losesSuccess E os
    | _, _ => true
  | _ => true

/-- The fold replans after a failure that has an outcome of this kind behind it. -/
def Config.loses (E : Executor) (c : Config) (p : StepOutcome → Bool) : List StepOutcome → Bool
  | [] => false
  | o :: os =>
    if o.result.success then loses E c p os
    else match E.replanAfterFailure c.plan o.step o.result.error c.replanCount with
      | .ok (some _) => os.any p
      | _ => false

theorem Config.loses_append {E : Executor} {c : Config} {p : StepOutcome → Bool}
    {rest : List StepOutcome} {o : StepOutcome} {outcome : ReplanOutcome}
    (ho : o.result.success = false)
    (hreplan : E.replanAfterFailure c.plan o.step o.result.error c.replanCount
      = .ok (some outcome)) : ∀ {done : List StepOutcome},
      (∀ o ∈ done, o.result.success = true) → c.loses E p (done ++ o :: rest) = false →
        ∀ o' ∈ rest, p o' = false
  | [], _, h => by simpa [loses, ho, hreplan] using h
  | o₁ :: done, hdone, h => by
    rw [List.cons_append, loses, if_pos (hdone o₁ (by simp))] at h
    exact loses_append ho hreplan (fun o ho => hdone o (List.mem_cons_of_mem _ ho)) h

theorem Config.losesSuccess_eq_loses (E : Executor) (c : Config) : ∀ os : List StepOutcome,
    c.losesSuccess E os = c.loses E (·.result.success) os
  | [] => rfl
  | o :: os => by rw [losesSuccess, loses, losesSuccess_eq_loses E c os]

section Inv

variable (call : Call) (hist : List Event) (initial : String → Prop) (solo clean : Prop)

/-- Why a step counts as completed: it was a success before the call, its tool was called, or its
success was marked for this request. -/
def Accounted (w : World) (id : String) : Prop :=
  initial id ∨ Invoked w.trace call.plan.sessionId id
    ∨ ∃ v, .markStepSuccess call.plan.sessionId id
        (buildIdempotencyKey call.plan.requestId id v) ∈ hist ++ w.trace

structure Base (c : Config) : Prop where
  sessionId : c.plan.sessionId = call.plan.sessionId
  requestId : c.plan.requestId = call.plan.requestId
  graphLimits : c.plan.graphLimits = call.plan.graphLimits
  length : c.plan.steps.length = call.plan.steps.length
  maxConcurrency : c.world.control.maxConcurrency = call.control.maxConcurrency
  hasSession : c.world.store.HasSession call.plan.sessionId
  wellFormed : c.world.store.WellFormed
  keyed : Keyed hist c.world
  registered : ∀ id ∈ c.plan.stepIds, (c.world.store.step? call.plan.sessionId id).isSome
  accounted : ∀ id ∈ c.completed, Accounted call hist initial c.world id
  succeeded : solo → ∀ id ∈ c.completed, c.world.store.Succeeded call.plan.sessionId id
  session : ∀ e ∈ c.world.trace, e.sessionId = call.plan.sessionId
  invoked : ∀ id k, .markStepSuccess call.plan.sessionId id k ∈ c.world.trace →
    Invoked c.world.trace call.plan.sessionId id
  noRepeat : solo → clean → NoRepeat c.world.trace

/-- What the threads other than this one may work on. -/
def Others (c : Config) (thread : Thread) (id : String) : Prop :=
  solo → id ∉ c.completed ∧ id ≠ thread.step.stepId

/-- The thread is safe where it stands. -/
def ThreadSafe (c : Config) (thread : Thread) : Prop :=
  ∃ a : StepArgs, a.plan = c.plan ∧ a.step = thread.step
    ∧ StepSafe a (Others solo c thread) solo hist clean (Ends a solo hist clean) thread.prog
      c.world

structure Batch (c : Config) (threads : List Thread) (results : Dict String StepOutcome) :
    Prop where
  steps : (threads.map Thread.step).Sublist c.readySteps
  safe : ∀ (j : ℕ) thread, threads[j]? = some thread → ThreadSafe hist solo clean c thread
  outcome : ∀ id o, results.get? id = some o → ∃ thread ∈ threads, thread.collected = true
    ∧ thread.step = o.step ∧ o.step.stepId = id ∧ thread.result? = some o.result
  collected : ∀ thread ∈ threads, thread.collected = true →
    (results.get? thread.step.stepId).isSome
  marks : solo → clean → ∀ id k, .markStepSuccess call.plan.sessionId id k ∈ c.world.trace →
    id ∈ c.completed ∨ ∃ thread ∈ threads, thread.step.stepId = id

/-- What holds where the main thread is. -/
def AtPhase (c : Config) : Phase → Prop
  | .looping => solo → clean →
      ∀ id k, .markStepSuccess call.plan.sessionId id k ∈ c.world.trace → id ∈ c.completed
  | .batch threads results => Batch call hist solo clean c threads results
  | .returned result => result.success = true → c.pendingSteps = []
  | .raised _ => False

structure Inv (c : Config) : Prop extends Base call hist initial solo clean c where
  phase : AtPhase call hist solo clean c c.phase

variable {call hist initial solo clean} {c : Config}

theorem Accounted.append {w w' : World} {id : String} (h : Accounted call hist initial w id)
    (ht : ∃ es, w'.trace = w.trace ++ es) : Accounted call hist initial w' id := by
  obtain ⟨es, he⟩ := ht
  refine h.imp_right (.imp (fun hi => he ▸ hi.append es) fun ⟨v, hv⟩ => ⟨v, ?_⟩)
  rw [he, ← List.append_assoc]
  exact List.mem_append_left _ hv

theorem Inv.batch (h : Inv call hist initial solo clean c) {threads : List Thread}
    {results : Dict String StepOutcome} (hphase : c.phase = .batch threads results) :
    Batch call hist solo clean c threads results := by
  have := h.phase
  rwa [hphase] at this

theorem Inv.marks (h : Inv call hist initial solo clean c) (hphase : c.phase = .looping) :
    solo → clean → ∀ id k,
      .markStepSuccess call.plan.sessionId id k ∈ c.world.trace → id ∈ c.completed := by
  have := h.phase
  rwa [hphase] at this

theorem Base.withPhase (h : Base call hist initial solo clean c) (phase : Phase) :
    Base call hist initial solo clean { c with phase } := { h with }

/-! ## Moves of the world alone -/

/-- What the invariant needs of a change of the world that leaves the call's variables. -/
theorem Base.of_world (h : Base call hist initial solo clean c) {w : World} {P : String → Prop}
    (hframe : Frame call.plan.sessionId P c.world.store w.store)
    (hP : solo → ∀ id ∈ c.completed, ¬ P id)
    (hcontrol : w.control.maxConcurrency = c.world.control.maxConcurrency)
    (hkeyed : Keyed hist w)
    (htrace : ∃ es, w.trace = c.world.trace ++ es
      ∧ ∀ e ∈ es, e.sessionId = call.plan.sessionId)
    (hinvoked : ∀ id k, .markStepSuccess call.plan.sessionId id k ∈ w.trace →
      Invoked w.trace call.plan.sessionId id)
    (hrepeat : solo → clean → NoRepeat w.trace) :
    Base call hist initial solo clean { c with world := w } where
  sessionId := h.sessionId
  requestId := h.requestId
  graphLimits := h.graphLimits
  length := h.length
  maxConcurrency := hcontrol.trans h.maxConcurrency
  hasSession := (hframe.hasSession _).mpr h.hasSession
  wellFormed := hframe.wellFormed h.wellFormed
  keyed := hkeyed
  registered id hid := by
    rw [hframe.isSome]
    exact h.registered id hid
  accounted id hid := (h.accounted id hid).append ⟨_, htrace.choose_spec.1⟩
  succeeded hsolo id hid := (hframe.succeeded fun hp => hP hsolo id hid hp.2).mpr
    (h.succeeded hsolo id hid)
  session e he := by
    obtain ⟨es, hes, hsid⟩ := htrace
    rw [hes] at he
    exact (List.mem_append.mp he).elim (h.session e) (hsid e)
  invoked := hinvoked
  noRepeat := hrepeat

/-- A cancel request from outside: it changes no entry and logs nothing. -/
structure Signals (sid : String) (w w' : World) : Prop where
  frame : ∀ P, Frame sid P w.store w'.store
  trace : w'.trace = w.trace
  maxConcurrency : w'.control.maxConcurrency = w.control.maxConcurrency

theorem Signals.keyed {sid : String} {w w' : World} (h : Signals sid w w')
    (hk : Keyed hist w) : Keyed hist w' := by
  intro t id step hstep hsuccess
  rw [(h.frame fun _ => False).step t id (by simp)] at hstep
  rw [h.trace]
  exact hk t id step hstep hsuccess

theorem Signals.rely {sid : String} {others : String → Prop} {w w' : World}
    (h : Signals sid w w') : Rely sid others hist w w' :=
  ⟨h.frame others, ⟨[], by simp [h.trace], by simp⟩, h.keyed⟩

theorem Base.signals (h : Base call hist initial solo clean c) {w : World}
    (hs : Signals call.plan.sessionId c.world w) :
    Base call hist initial solo clean { c with world := w } := by
  refine h.of_world (hs.frame fun _ => False) (by simp) hs.maxConcurrency (hs.keyed h.keyed)
    ⟨[], by simp [hs.trace], by simp⟩ ?_ ?_
  · rw [hs.trace]
    exact h.invoked
  · rw [hs.trace]
    exact h.noRepeat

theorem ThreadSafe.rely {thread : Thread} {w : World} (h : ThreadSafe hist solo clean c thread)
    (hr : Rely c.plan.sessionId (Others solo c thread) hist c.world w) :
    ThreadSafe hist solo clean { c with world := w } thread := by
  obtain ⟨a, hplan, hstep, hsafe⟩ := h
  exact ⟨a, hplan, hstep, hsafe.stable (hplan ▸ hr)⟩

theorem Inv.signals (h : Inv call hist initial solo clean c) {w : World}
    (hs : Signals call.plan.sessionId c.world w) :
    Inv call hist initial solo clean { c with world := w } := by
  refine ⟨h.toBase.signals hs, ?_⟩
  have hphase := h.phase
  show AtPhase call hist solo clean { c with world := w } c.phase
  cases hc : c.phase with
  | looping =>
    rw [hc] at hphase
    simpa only [AtPhase, hs.trace] using hphase
  | batch threads results =>
    rw [hc] at hphase
    refine ⟨hphase.steps, fun j thread hj => ?_, hphase.outcome, hphase.collected, ?_⟩
    · exact (hphase.safe j thread hj).rely (h.sessionId ▸ hs.rely)
    · simpa only [hs.trace] using hphase.marks
  | returned result =>
    rw [hc] at hphase
    exact hphase
  | raised error =>
    rw [hc] at hphase
    exact hphase

/-! ## An action of a thread -/

theorem Base.moves (h : Base call hist initial solo clean c) {a : StepArgs}
    (hplan : a.plan = c.plan) {w : World} (hm : Moves a solo clean c.world w)
    (hx : a.step.stepId ∉ c.completed) :
    Base call hist initial solo clean { c with world := w } := by
  have hsid : a.plan.sessionId = call.plan.sessionId := hplan ▸ h.sessionId
  refine h.of_world (P := (· = a.step.stepId)) (hsid ▸ hm.frame)
    (fun _ id hid he => hx (he ▸ hid)) (by rw [hm.control]) (hm.keyed h.keyed) ?_ ?_ ?_
  · obtain ⟨es, he, hes⟩ := hm.trace
    exact ⟨es, he, fun e hm => (hes e hm).1.trans hsid⟩
  · intro id k hk
    cases hm with
    | silent _ _ => exact h.invoked id k hk
    | invoke payload _ =>
      rcases List.mem_append.mp hk with hk | hk
      · exact (h.invoked id k hk).append _
      · simp at hk
    | mark _ _ _ _ hinvoked =>
      rcases List.mem_append.mp hk with hk | hk
      · exact (h.invoked id k hk).append _
      · simp only [List.mem_singleton, Event.markStepSuccess.injEq] at hk
        rw [hk.2.1, ← hsid]
        exact hinvoked.append _
  · intro hsolo hclean
    have hold := h.noRepeat hsolo hclean
    cases hm with
    | silent _ _ => exact hold
    | invoke payload hclear =>
      refine hold.append fun e he hrep => ?_
      cases e with
      | invoke _ _ _ => exact hrep
      | markStepSuccess sid id k =>
        obtain ⟨rfl, rfl⟩ := hrep
        exact (hclear hsolo).unmarked hclean k he
    | mark _ _ _ _ _ => exact hold.append fun e _ hrep => by cases e <;> exact hrep

theorem Batch.mem_readySteps {threads : List Thread} {results : Dict String StepOutcome}
    (h : Batch call hist solo clean c threads results) {thread : Thread} (ht : thread ∈ threads) :
    thread.step ∈ c.readySteps := h.steps.subset (List.mem_map_of_mem ht)

theorem Batch.nodup {threads : List Thread} {results : Dict String StepOutcome}
    (h : Batch call hist solo clean c threads results) (hd : c.plan.stepIds.Nodup) :
    (threads.map fun thread => thread.step.stepId).Nodup := by
  have hsub : (threads.map Thread.step).Sublist c.plan.steps :=
    h.steps.trans (List.filter_sublist.trans List.filter_sublist)
  have := (hsub.map PlanStep.stepId).nodup hd
  simpa [List.map_map, Function.comp_def] using this

theorem Batch.ne_of_ne {threads : List Thread} {results : Dict String StepOutcome}
    (h : Batch call hist solo clean c threads results) (hd : c.plan.stepIds.Nodup) {i j : ℕ}
    {t t' : Thread} (hi : threads[i]? = some t) (hj : threads[j]? = some t') (hij : i ≠ j) :
    t.step.stepId ≠ t'.step.stepId := by
  intro he
  refine hij ((List.getElem?_inj (l := threads.map fun thread => thread.step.stepId) ?_
    (h.nodup hd)).mp ?_)
  · simpa using (List.getElem?_eq_some_iff.mp hi).1
  · simp [hi, hj, he]

/-- A change of one thread that keeps its step leaves the other threads in the list. -/
theorem mem_set_of_ne {threads : List Thread} {i : ℕ} {old new t : Thread}
    (hi : threads[i]? = some old) (ht : t ∈ threads) (hne : t ≠ old) : t ∈ threads.set i new := by
  obtain ⟨j, hj⟩ := List.mem_iff_getElem?.mp ht
  have hij : i ≠ j := by
    rintro rfl
    rw [hi] at hj
    exact hne (Option.some.inj hj).symm
  exact List.mem_iff_getElem?.mpr ⟨j, by rw [List.getElem?_set_ne hij, hj]⟩

/-- Replacing an entry by one with the same image leaves the images. -/
theorem map_set_eq {α β : Type} {f : α → β} {l : List α} {i : ℕ} {old new : α}
    (hi : l[i]? = some old) (h : f new = f old) : (l.set i new).map f = l.map f := by
  rw [List.map_set, h]
  refine List.ext_getElem? fun j => ?_
  by_cases hij : i = j
  · subst hij
    simp [List.getElem?_set_self', hi]
  · rw [List.getElem?_set_ne hij]

theorem exists_step_iff {threads threads' : List Thread}
    (h : threads'.map Thread.step = threads.map Thread.step) (id : String) :
    (∃ t ∈ threads', t.step.stepId = id) ↔ ∃ t ∈ threads, t.step.stepId = id := by
  have key : ∀ l : List Thread, (∃ t ∈ l, t.step.stepId = id)
      ↔ ∃ step ∈ l.map Thread.step, step.stepId = id := by simp
  rw [key, key, h]

theorem Inv.thread (h : Inv call hist initial solo clean c)
    (hd : solo → c.plan.stepIds.Nodup) {threads : List Thread}
    {results : Dict String StepOutcome} (hphase : c.phase = .batch threads results) {i : ℕ}
    {thread : Thread} (hi : threads[i]? = some thread) {upd : Answer → World → World}
    {next : Answer → World → StepProg ToolResult} (hprog : thread.prog = .act upd next)
    (answer : Answer) :
    Inv call hist initial solo clean { c with
      world := upd answer c.world
      phase := .batch (threads.set i { thread with prog := next answer c.world }) results } := by
  have hb := h.batch hphase
  obtain ⟨a, hplan, hstep, hsafe⟩ := hb.safe i thread hi
  rw [hprog] at hsafe
  obtain ⟨hmove, hnext⟩ := hsafe c.world (Std.Refl.refl _) answer
  have hmem := List.mem_of_getElem? hi
  have hready := Config.mem_readySteps.mp (hb.mem_readySteps hmem)
  have hsteps : (threads.set i { thread with prog := next answer c.world }).map Thread.step
      = threads.map Thread.step := map_set_eq hi rfl
  refine ⟨(h.toBase.moves hplan hmove (hstep ▸ hready.1.2)).withPhase _, ?_⟩
  refine ⟨hsteps ▸ hb.steps, fun j t hj => ?_, fun id o ho => ?_, fun t ht hc => ?_,
    fun hsolo hclean id k hk => ?_⟩
  · by_cases hij : i = j
    · subst hij
      rw [List.getElem?_set_self (List.getElem?_eq_some_iff.mp hi).1] at hj
      cases hj
      exact ⟨a, hplan, hstep, hnext⟩
    · rw [List.getElem?_set_ne hij] at hj
      refine (hb.safe j t hj).rely (hmove.rely (hplan ▸ rfl) fun hsolo => ?_)
      rw [hstep]
      exact ⟨hready.1.2, hb.ne_of_ne (hd hsolo) hi hj hij⟩
  · obtain ⟨t, ht, hcol, hts, hid, hres⟩ := hb.outcome id o ho
    refine ⟨t, mem_set_of_ne hi ht ?_, hcol, hts, hid, hres⟩
    rintro rfl
    simp [Thread.result?, hprog] at hres
  · rcases List.mem_or_eq_of_mem_set ht with ht | rfl
    · exact hb.collected t ht hc
    · exact hb.collected thread hmem hc
  · rw [exists_step_iff hsteps]
    obtain ⟨es, he, hes⟩ := hmove.trace
    simp only [he] at hk
    rcases List.mem_append.mp hk with hk | hk
    · exact hb.marks hsolo hclean id k hk
    · refine .inr ⟨thread, hmem, ?_⟩
      rw [← hstep]
      exact (hes _ hk).2.symm

/-! ## Picking up a result -/

theorem Inv.collect (h : Inv call hist initial solo clean c) {threads : List Thread}
    {results : Dict String StepOutcome} (hphase : c.phase = .batch threads results) {i : ℕ}
    {thread : Thread} (hi : threads[i]? = some thread) (hcol : thread.collected = false)
    {result : ToolResult} (hres : thread.result? = some result) :
    Inv call hist initial solo clean { c with
      phase := .batch (threads.set i { thread with collected := true })
        (results.set thread.step.stepId ⟨thread.step, result⟩) } := by
  have hb := h.batch hphase
  have hmem := List.mem_of_getElem? hi
  have hlt := (List.getElem?_eq_some_iff.mp hi).1
  have hsteps : (threads.set i { thread with collected := true }).map Thread.step
      = threads.map Thread.step := map_set_eq hi rfl
  have hmem' : { thread with collected := true }
      ∈ threads.set i { thread with collected := true } := List.mem_set hlt _
  refine ⟨h.toBase.withPhase _, hsteps ▸ hb.steps, fun j t hj => ?_, fun id o ho => ?_,
    fun t ht hc => ?_, fun hsolo hclean id k hk => ?_⟩
  · by_cases hij : i = j
    · subst hij
      rw [List.getElem?_set_self hlt] at hj
      cases hj
      exact hb.safe i thread hi
    · rw [List.getElem?_set_ne hij] at hj
      exact hb.safe j t hj
  · rw [Dict.get?_set] at ho
    split_ifs at ho with hid
    · cases ho
      exact ⟨_, hmem', rfl, rfl, hid, hres⟩
    · obtain ⟨t, ht, hc, hrest⟩ := hb.outcome id o ho
      refine ⟨t, mem_set_of_ne hi ht ?_, hc, hrest⟩
      rintro rfl
      simp [hcol] at hc
  · rw [Dict.get?_set]
    split_ifs with hid
    · rfl
    · rcases List.mem_or_eq_of_mem_set ht with ht | rfl
      · exact hb.collected t ht hc
      · exact absurd rfl hid
  · rw [exists_step_iff hsteps]
    exact hb.marks hsolo hclean id k hk

/-! ## Moves of the main thread -/

theorem Base.goTo (h : Base call hist initial solo clean c) {store : InMemoryStateStore}
    {status : ExecutionStatus} (hp : Persists c.plan.sessionId status c.world.store store)
    (phase : Phase) : Base call hist initial solo clean (c.goTo store phase) where
  sessionId := h.sessionId
  requestId := h.requestId
  graphLimits := h.graphLimits
  length := h.length
  maxConcurrency := h.maxConcurrency
  hasSession := (hp.hasSession _).mpr h.hasSession
  wellFormed := hp.wellFormed h.wellFormed
  keyed t id step hstep := h.keyed t id step ((hp.step t id).symm.trans hstep)
  registered id hid := by
    show (store.step? _ _).isSome
    rw [hp.step]
    exact h.registered id hid
  accounted := h.accounted
  succeeded hsolo id hid := by
    show store.Succeeded _ _
    unfold Succeeded
    rw [hp.step]
    exact h.succeeded hsolo id hid
  session := h.session
  invoked := h.invoked
  noRepeat := h.noRepeat

theorem Base.replanTo (h : Base call hist initial solo clean c) {outcome : ReplanOutcome}
    (hreplans : Replanner.Replans c.plan outcome.plan) {store : InMemoryStateStore}
    (hr : Registers c.plan.sessionId (serializePlanSteps outcome.plan.steps) c.world.store
      store) : Base call hist initial solo clean (c.replanTo outcome store) where
  sessionId := hreplans.sessionId.trans h.sessionId
  requestId := hreplans.requestId.trans h.requestId
  graphLimits := hreplans.graphLimits.trans h.graphLimits
  length := hreplans.length_steps.trans h.length
  maxConcurrency := h.maxConcurrency
  hasSession := h.sessionId ▸ hr.hasSession
  wellFormed := hr.wellFormed h.wellFormed
  keyed t id step hstep hsuccess := by
    rcases hold : c.world.store.step? t id with _ | old
    · obtain ⟨-, d, -, -, rfl⟩ := hr.fresh t id step hold hstep
      simp [StepDict.toState] at hsuccess
    · have := hr.keep t id old hold
      rw [show (c.replanTo outcome store).world.store = store from rfl, this] at hstep
      cases hstep
      exact h.keyed t id step hold hsuccess
  registered id hid := by
    obtain ⟨step, hs, rfl⟩ := List.mem_map.mp hid
    exact h.sessionId ▸ hr.mem step.toStepDict (List.mem_map_of_mem hs)
  accounted := h.accounted
  succeeded hsolo id hid := by
    obtain ⟨step, hs, hsuccess⟩ := h.succeeded hsolo id hid
    exact ⟨step, hr.keep _ id step hs, hsuccess⟩
  session := h.session
  invoked := h.invoked
  noRepeat := h.noRepeat

/-- Completing steps that are accounted for and, under `solo`, `SUCCESS`. -/
theorem Base.completeAll (h : Base call hist initial solo clean c) {os : List StepOutcome}
    (hos : ∀ o ∈ os, Accounted call hist initial c.world o.step.stepId
      ∧ (solo → c.world.store.Succeeded call.plan.sessionId o.step.stepId)) :
    Base call hist initial solo clean (c.completeAll os) where
  sessionId := by simpa using h.sessionId
  requestId := by simpa using h.requestId
  graphLimits := by simpa using h.graphLimits
  length := by simpa using h.length
  maxConcurrency := by simpa using h.maxConcurrency
  hasSession := by simpa using h.hasSession
  wellFormed := by simpa using h.wellFormed
  keyed := by simpa using h.keyed
  registered := by simpa using h.registered
  accounted id hid := by
    rw [Config.completeAll_world]
    rcases Config.mem_completeAll.mp hid with hid | ⟨o, ho, rfl⟩
    · exact h.accounted id hid
    · exact (hos o ho).1
  succeeded hsolo id hid := by
    rw [Config.completeAll_world]
    rcases Config.mem_completeAll.mp hid with hid | ⟨o, ho, rfl⟩
    · exact h.succeeded hsolo id hid
    · exact (hos o ho).2 hsolo
  session := by simpa using h.session
  invoked := by simpa using h.invoked
  noRepeat := by simpa using h.noRepeat

theorem Base.record (h : Base call hist initial solo clean c) (o : StepOutcome) :
    Base call hist initial solo clean (c.record o) := { h with }

/-! ## Starting a batch -/

theorem sliceTo_sublist {α : Type} (l : List α) (n : ℤ) : (sliceTo l n).Sublist l := by
  unfold sliceTo
  split_ifs
  · exact List.take_sublist _ _
  · exact List.take_sublist _ _

theorem Inv.spawn (h : Inv call hist initial solo clean c) (hphase : c.phase = .looping)
    (E : Executor) (request : AgentRequest) :
    Inv call hist initial solo clean
      { c with phase := .batch (c.runnableSteps.map (c.spawn E request)) ∅ } := by
  have hmarks := h.marks hphase
  refine ⟨h.toBase.withPhase _, ?_, fun j thread hj => ?_, fun id o ho => ?_, fun t ht hc => ?_,
    fun hsolo hclean id k hk => .inl (hmarks hsolo hclean id k hk)⟩
  · rw [List.map_map]
    exact (List.map_id _).symm ▸ sliceTo_sublist c.readySteps _
  · obtain ⟨step, hs, rfl⟩ := List.mem_map.mp (List.mem_of_getElem? hj)
    have hready := Config.mem_readySteps.mp ((sliceTo_sublist _ _).subset hs)
    refine ⟨⟨c.plan, step, request, c.context, c.world.control⟩, rfl, rfl, ?_⟩
    refine E.executeSingleStep_safe (fun hsolo => ⟨fun hself => (hself hsolo).2 rfl, fun d hd =>
      ⟨?_, fun hother => (hother hsolo).1 (hready.2 d hd)⟩⟩) ⟨?_, h.keyed, fun hsolo =>
      ⟨fun d hd => ?_, fun hclean k hk => ?_⟩⟩
    · rintro rfl
      exact hready.1.2 (hready.2 _ hd)
    · rw [h.sessionId]
      exact h.registered _ (ExecutionPlan.mem_stepIds hready.1.1)
    · rw [h.sessionId]
      exact h.succeeded hsolo d (hready.2 d hd)
    · rw [h.sessionId] at hk
      exact hready.1.2 (hmarks hsolo hclean _ k hk)
  · simp at ho
  · obtain ⟨step, hs, rfl⟩ := List.mem_map.mp ht
    simp [Config.spawn] at hc

/-! ## Folding a batch -/

section Fold

variable {threads : List Thread} {results : Dict String StepOutcome}

theorem ThreadSafe.ends {thread : Thread} (h : ThreadSafe hist solo clean c thread)
    {result : ToolResult} (hres : thread.result? = some result) :
    ∃ a : StepArgs, a.plan = c.plan ∧ a.step = thread.step
      ∧ Ends a solo hist clean result c.world := by
  obtain ⟨a, hplan, hstep, hsafe⟩ := h
  refine ⟨a, hplan, hstep, ?_⟩
  unfold Thread.result? at hres
  rcases hp : thread.prog with r | x | ⟨upd, next⟩ <;> rw [hp] at hres hsafe <;> cases hres
  · exact hsafe c.world (Std.Refl.refl _)
  · exact ⟨fun h => by simp [ToolResult.failure] at h, fun _ => hsafe c.world (Std.Refl.refl _)⟩

/-- What a picked up outcome says: a success is accounted for and, under `solo`, in the store; a
failure left no mark. -/
theorem Inv.outcome (h : Inv call hist initial solo clean c)
    (hb : Batch call hist solo clean c threads results) {id : String} {o : StepOutcome}
    (ho : results.get? id = some o) : o.step.stepId = id ∧ id ∈ c.plan.stepIds
      ∧ (o.result.success = true → Accounted call hist initial c.world id
        ∧ (solo → c.world.store.Succeeded call.plan.sessionId id))
      ∧ (o.result.success = false → solo → clean →
        ∀ k, .markStepSuccess call.plan.sessionId id k ∉ c.world.trace) := by
  obtain ⟨thread, ht, -, hstep, rfl, hres⟩ := hb.outcome id o ho
  obtain ⟨j, hj⟩ := List.mem_iff_getElem?.mp ht
  obtain ⟨a, hplan, hastep, hends⟩ := (hb.safe j thread hj).ends hres
  have hsid : a.plan.sessionId = call.plan.sessionId := hplan ▸ h.sessionId
  have hid : a.step.stepId = o.step.stepId := by rw [hastep, hstep]
  refine ⟨rfl, ?_, fun hs => ?_, fun hf hsolo hclean => ?_⟩
  · rw [← hstep]
    exact ExecutionPlan.mem_stepIds (Config.mem_readySteps.mp (hb.mem_readySteps ht)).1.1
  · obtain ⟨-, hacc, hsucc⟩ := hends.success hs
    rw [hsid, hid] at hacc hsucc
    refine ⟨.inr (hacc.imp_right fun hm => ⟨a.plan.planVersion, ?_⟩), hsucc⟩
    rw [StepArgs.idempotencyKey, hid, hplan, h.requestId] at hm
    rwa [hplan]
  · have := hends.failure hf hsolo hclean
    rwa [hsid, hid] at this

theorem Inv.orderedResults (h : Inv call hist initial solo clean c)
    (hb : Batch call hist solo clean c threads results) (hall : threads.all (·.collected)) :
    ∃ os, Config.orderedResults results threads = .ok os
      ∧ (∀ o ∈ os, results.get? o.step.stepId = some o)
      ∧ ∀ thread ∈ threads, ∃ o ∈ os, results.get? thread.step.stepId = some o := by
  obtain ⟨os, hos, hfrom, hto⟩ := Config.orderedResults_ok fun t ht =>
    hb.collected t ht (List.all_eq_true.mp hall t ht)
  refine ⟨os, hos, fun o ho => ?_, hto⟩
  obtain ⟨t, -, hget⟩ := hfrom o ho
  rwa [(h.outcome hb hget).1]

/-- The outcomes a batch is folded over are those of its threads. -/
theorem Inv.outcomes (h : Inv call hist initial solo clean c)
    (hphase : c.phase = .batch threads results) (hall : threads.all (·.collected))
    {os : List StepOutcome} (hos : Config.orderedResults results threads = .ok os) :
    (∀ o ∈ os, results.get? o.step.stepId = some o)
      ∧ ∀ thread ∈ threads, ∃ o ∈ os, results.get? thread.step.stepId = some o := by
  obtain ⟨os', hos', houtcomes⟩ := h.orderedResults (h.batch hphase) hall
  rw [hos] at hos'
  cases hos'
  exact houtcomes

theorem Inv.orderedResults_ne_error (h : Inv call hist initial solo clean c)
    (hphase : c.phase = .batch threads results) (hall : threads.all (·.collected))
    (error : PyError) : Config.orderedResults results threads ≠ .error error := by
  obtain ⟨os, hos, -⟩ := h.orderedResults (h.batch hphase) hall
  rw [hos]
  nofun

theorem Inv.foldStep (h : Inv call hist initial solo clean c)
    (hphase : c.phase = .batch threads results) (hall : threads.all (·.collected))
    {os : List StepOutcome} (hos : Config.orderedResults results threads = .ok os)
    (E : Executor) : Config.FoldStep E c os (Config.foldOutcomes E c os) :=
  Config.foldOutcomes_step (h.sessionId ▸ h.hasSession) fun o ho =>
    (h.outcome (h.batch hphase) ((h.outcomes hphase hall hos).1 o ho)).2.1

theorem Inv.fold {E : Executor} (h : Inv call hist initial solo clean c)
    (hkeeps : clean → c.keepsSuccesses E = true) (hphase : c.phase = .batch threads results)
    (hall : threads.all (·.collected)) {os : List StepOutcome}
    (hos : Config.orderedResults results threads = .ok os) :
    Inv call hist initial solo clean (Config.foldOutcomes E c os) := by
  have hb := h.batch hphase
  obtain ⟨hof, hto⟩ := h.outcomes hphase hall hos
  have hdone : ∀ done : List StepOutcome, (∀ o ∈ done, o ∈ os) →
      (∀ o ∈ done, o.result.success = true) → Base call hist initial solo clean
        (c.completeAll done) := fun done hsub hsucc => h.toBase.completeAll fun o ho =>
    (h.outcome hb (hof o (hsub o ho))).2.2.1 (hsucc o ho)
  -- a step marked in this call has an outcome in the batch, and that is a success
  have hmarked : solo → clean → ∀ id k,
      .markStepSuccess call.plan.sessionId id k ∈ c.world.trace →
        id ∈ c.completed ∨ ∃ o ∈ os, o.step.stepId = id ∧ o.result.success = true := by
    intro hsolo hclean id k hk
    refine (hb.marks hsolo hclean id k hk).imp_right fun ⟨t, ht, hid⟩ => ?_
    obtain ⟨o, ho, hget⟩ := hto t ht
    rw [hid] at hget
    have hout := h.outcome hb hget
    refine ⟨o, ho, hout.1, ?_⟩
    by_contra hf
    exact hout.2.2.2 (by simpa using hf) hsolo hclean k hk
  have hstep := h.foldStep hphase hall hos E
  generalize Config.foldOutcomes E c os = c' at hstep
  cases hstep with
  | completed hsucc =>
    refine ⟨(hdone os (fun _ h => h) hsucc).withPhase _, fun hsolo hclean id k hk => ?_⟩
    refine Config.mem_completeAll.mpr ((hmarked hsolo hclean id k (by simpa using hk)).imp_right ?_)
    rintro ⟨o, ho, hid, -⟩
    exact ⟨o, ho, hid⟩
  | @replanned done rest o outcome store hsplit hsucc ho hreplan ha hr =>
    have hbase := hdone done (fun o' ho' => by simp [hsplit, ho']) hsucc
    refine ⟨(hbase.record o).replanTo (by simpa [Config.record] using ha.replans)
      (by simpa [Config.record] using hr), fun hsolo hclean id k hk => ?_⟩
    have hkeep : ∀ o' ∈ rest, o'.result.success = false := by
      have := hkeeps hclean
      rw [Config.keepsSuccesses, hphase] at this
      simp only [hall, hos, hsplit, Bool.not_eq_true'] at this
      rw [Config.losesSuccess_eq_loses] at this
      exact Config.loses_append ho hreplan hsucc this
    refine Config.mem_completeAll.mpr ((hmarked hsolo hclean id k
      (by simpa [Config.replanTo, Config.record] using hk)).imp_right ?_)
    rintro ⟨o', ho', hid, hs⟩
    rw [hsplit, List.mem_append, List.mem_cons] at ho'
    rcases ho' with ho' | rfl | ho'
    · exact ⟨o', ho', hid⟩
    · simp [ho] at hs
    · simp [hkeep o' ho'] at hs
  | @failed done rest o store hsplit hsucc ho hreplan hp =>
    have hbase := hdone done (fun o' ho' => by simp [hsplit, ho']) hsucc
    exact ⟨(hbase.record o).goTo (by simpa [Config.record] using hp) _,
      fun hs => by simp [Config.result] at hs⟩

end Fold

/-! ## Any action -/

theorem Inv.loop (h : Inv call hist initial solo clean c) (hphase : c.phase = .looping)
    (E : Executor) (request : AgentRequest) (now : ℚ) :
    Inv call hist initial solo clean (c.loop E request now) := by
  have hmarks := h.marks hphase
  have hstep := c.loop_step (E := E) (h.sessionId ▸ h.hasSession) request now
  generalize c.loop E request now = c' at hstep
  cases hstep with
  | cancelled hp => exact ⟨h.toBase.goTo hp _, fun hs => by simp [Config.result] at hs⟩
  | failed hp _ => exact ⟨h.toBase.goTo hp _, fun hs => by simp [Config.result] at hs⟩
  | succeeded hpending hp => exact ⟨h.toBase.goTo hp _, fun _ => hpending⟩
  | replanned _ _ ha hr => exact ⟨h.toBase.replanTo ha.replans hr, hmarks⟩
  | batch _ => exact h.spawn hphase E request

theorem signals_requestCancel (sid : String) (w : World) :
    Signals sid w { w with control := w.control.requestCancel } :=
  ⟨fun _ => Frame.refl _, rfl, rfl⟩

/-- Every enabled action keeps the invariant. -/
theorem Inv.step (h : Inv call hist initial solo clean c) {E : Executor}
    (hd : solo → c.plan.stepIds.Nodup) (hkeeps : clean → c.keepsSuccesses E = true)
    {request : AgentRequest} {action : Action} {c' : Config}
    (hstep : c.step E request action = some c') : Inv call hist initial solo clean c' := by
  cases Config.takes_of_step hstep with
  | loop hphase now => exact h.loop hphase E request now
  | thread hphase hi hprog answer => exact h.thread hd hphase hi hprog answer
  | collect hphase hi hcol hres => exact h.collect hphase hi hcol hres
  | fold hphase hall hos => exact h.fold hkeeps hphase hall hos
  | foldRaises hphase hall hos => exact absurd hos (h.orderedResults_ne_error hphase hall _)
  | requestCancel _ => exact h.signals (signals_requestCancel _ _)
  | markCancelRequested _ hmark =>
    obtain ⟨store, hs, hframe⟩ := markCancelRequested_frame h.hasSession
    rw [h.sessionId, hs] at hmark
    cases hmark
    exact h.signals ⟨hframe, rfl, rfl⟩

/-- Only threads log. -/
theorem Inv.trace_eq (h : Inv call hist initial solo clean c) {E : Executor} {action : Action}
    {c' : Config} (hstep : c.step E call.request action = some c')
    (hnot : ∀ i answer, action ≠ .thread i answer) : c'.world.trace = c.world.trace := by
  cases Config.takes_of_step hstep with
  | loop hphase now =>
    have hloop := c.loop_step (E := E) (h.sessionId ▸ h.hasSession) call.request now
    generalize c.loop E call.request now = c₁ at hloop
    cases hloop <;> rfl
  | thread _ _ _ answer => exact absurd rfl (hnot _ answer)
  | collect _ _ _ _ => rfl
  | @fold threads results os hphase hall hos =>
    have hfold := h.foldStep hphase hall hos E
    generalize Config.foldOutcomes E c os = c₁ at hfold
    cases hfold <;> simp [Config.replanTo, Config.goTo, Config.record]
  | foldRaises _ _ _ => rfl
  | requestCancel _ => rfl
  | markCancelRequested _ _ => rfl

/-- Completed steps stay completed, and the plan changes only by a replan, which goes back to the
loop. -/
theorem Inv.plan_or_replan (h : Inv call hist initial solo clean c) {E : Executor}
    {action : Action} {c' : Config} (hstep : c.step E call.request action = some c') :
    (∀ id ∈ c.completed, id ∈ c'.completed)
      ∧ (c'.plan = c.plan ∧ c'.replanCount = c.replanCount
        ∨ c'.replanCount = c.replanCount + 1 ∧ c'.phase = .looping
          ∧ Replanner.Replans c.plan c'.plan) := by
  cases Config.takes_of_step hstep with
  | loop hphase now =>
    have hloop := c.loop_step (E := E) (h.sessionId ▸ h.hasSession) call.request now
    generalize c.loop E call.request now = c₁ at hloop
    cases hloop with
    | replanned _ _ ha _ => exact ⟨fun _ hid => hid, .inr ⟨rfl, rfl, ha.replans⟩⟩
    | _ => exact ⟨fun _ hid => hid, .inl ⟨rfl, rfl⟩⟩
  | @fold threads results os hphase hall hos =>
    have hfold := h.foldStep hphase hall hos E
    generalize Config.foldOutcomes E c os = c₁ at hfold
    have hmem : ∀ done, ∀ id ∈ c.completed, id ∈ (c.completeAll done).completed :=
      fun done id hid => Config.mem_completeAll.mpr (.inl hid)
    cases hfold with
    | completed _ => exact ⟨hmem os, .inl ⟨by simp, by simp⟩⟩
    | @replanned done _ _ _ _ _ _ _ _ ha _ =>
      exact ⟨hmem done, .inr ⟨by simp [Config.replanTo, Config.record], rfl, ha.replans⟩⟩
    | @failed done _ _ _ _ _ _ _ _ =>
      exact ⟨hmem done, .inl ⟨by simp [Config.goTo, Config.record],
        by simp [Config.goTo, Config.record]⟩⟩
  | _ => exact ⟨fun _ hid => hid, .inl ⟨rfl, rfl⟩⟩

/-- What a thread does is a move of its step, which is ready. -/
theorem Inv.moves (h : Inv call hist initial solo clean c) {E : Executor} {i : ℕ}
    {answer : Answer} {c' : Config} (hstep : c.step E call.request (.thread i answer) = some c') :
    ∃ a : StepArgs, a.plan = c.plan ∧ a.step ∈ c.readySteps
      ∧ Moves a solo clean c.world c'.world := by
  cases Config.takes_of_step hstep with
  | @thread threads results _ thread upd next hphase hi hprog _ =>
    have hb := h.batch hphase
    obtain ⟨a, hplan, hastep, hsafe⟩ := hb.safe i thread hi
    rw [hprog] at hsafe
    refine ⟨a, hplan, ?_, (hsafe c.world (Std.Refl.refl _) answer).1⟩
    rw [hastep]
    exact hb.mem_readySteps (List.mem_of_getElem? hi)

/-! ## The start of a call -/

/-- A call starts in the invariant, with the steps that are `SUCCESS` in the session completed. -/
structure Starts (call : Call) (store : InMemoryStateStore) (c : Config) : Prop where
  phase : c.phase = .looping
  plan : c.plan = call.plan
  replanCount : c.replanCount = 0
  trace : c.world.trace = []
  control : c.world.control = call.control
  completed : ∀ id, id ∈ c.completed ↔ store.Succeeded call.plan.sessionId id

theorem start_inv (call : Call) {store : InMemoryStateStore} (hw : store.WellFormed)
    (hk : Keyed hist ⟨store, call.control, []⟩) (solo clean : Prop) :
    ∃ c, Executor.start call store = .ok c ∧ Starts call store c
      ∧ Inv call hist (store.Succeeded call.plan.sessionId) solo clean c := by
  obtain ⟨σ₁, h₁, hreg⟩ := initSession_registers store call.plan.sessionId call.plan.requestId
    (serializePlanSteps call.plan.steps) call.plan.planVersion call.plan.traceId
  have hw₁ := hreg.wellFormed hw
  obtain ⟨session, hsession⟩ := hasSession_iff.mp hreg.hasSession
  obtain ⟨point, hpoint, hcompleted⟩ :=
    RecoveryService.findRecoveryPoint_ok (hw₁ _ session hsession)
  obtain ⟨σ₂, h₂, hp⟩ := setSessionStatus_persists hreg.hasSession .running
  have hmem : ∀ id, id ∈ point.completedStepIds ↔ σ₁.Succeeded call.plan.sessionId id := by
    intro id
    rw [hcompleted]
    unfold Succeeded
    rw [step?_eq hsession]
  have hsucc : ∀ id, id ∈ point.completedStepIds ↔ store.Succeeded call.plan.sessionId id :=
    fun id => (hmem id).trans hreg.succeeded
  refine ⟨⟨⟨σ₂, call.control, []⟩, call.context, call.plan, point.completedStepIds, 0, [], [],
    .looping⟩, ?_, ⟨rfl, rfl, rfl, rfl, rfl, hsucc⟩, ?_⟩
  · simp only [Executor.start, h₁, getSession_eq hsession, hpoint, h₂, bind, Except.bind, pure,
      Except.pure]
  · refine ⟨⟨rfl, rfl, rfl, rfl, rfl, (hp.hasSession _).mpr hreg.hasSession, hp.wellFormed hw₁, ?_,
      fun id hid => ?_, fun id hid => .inl ((hsucc id).mp hid), fun _ id hid => ?_, by simp,
      by simp, fun _ _ => List.Pairwise.nil⟩, by simp [AtPhase]⟩
    · intro t id step hstep hsuccess
      rw [hp.step] at hstep
      obtain ⟨old, hold, -⟩ := hreg.succeeded.mp ⟨step, hstep, hsuccess⟩
      rw [hreg.keep t id old hold] at hstep
      cases hstep
      exact hk t id _ hold hsuccess
    · obtain ⟨step, hs, rfl⟩ := List.mem_map.mp hid
      rw [hp.step]
      exact hreg.mem step.toStepDict (List.mem_map_of_mem hs)
    · obtain ⟨step, hs, hsuccess⟩ := (hmem id).mp hid
      exact ⟨step, (hp.step _ id).trans hs, hsuccess⟩

end Inv

/-! ## Runs -/

/-- A run each of whose actions starts from a state that meets `P`. -/
def Executor.Runs (E : Executor) (request : AgentRequest) (P : Config → Prop) :
    Config → Config → Prop :=
  Relation.ReflTransGen fun c c' => P c ∧ ∃ action, c.step E request action = some c'

/-- `run`, as long as the state before each action passes the check. -/
def Executor.runWhile (E : Executor) (request : AgentRequest) (p : Config → Bool) :
    Config → List Action → Option Config
  | c, [] => some c
  | c, action :: actions =>
    if p c then
      match c.step E request action with
      | some c' => runWhile E request p c' actions
      | none => none
    else none

theorem Executor.runs_of_runWhile {E : Executor} {request : AgentRequest} {p : Config → Bool} :
    ∀ {actions : List Action} {c c' : Config}, E.runWhile request p c actions = some c' →
      E.Runs request (fun c => p c = true) c c'
  | [], c, c', h => by
    cases h
    exact .refl
  | action :: actions, c, c', h => by
    rw [Executor.runWhile] at h
    split_ifs at h with hp
    rcases hs : c.step E request action with _ | c₁ <;> rw [hs] at h
    · cases h
    · exact .head ⟨hp, action, hs⟩ (runs_of_runWhile h)

theorem Executor.runs_of_run {E : Executor} {request : AgentRequest} :
    ∀ {actions : List Action} {c c' : Config}, E.run request c actions = some c' →
      E.Runs request (fun _ => True) c c'
  | [], c, c', h => by
    cases h
    exact .refl
  | action :: actions, c, c', h => by
    rw [Executor.run] at h
    rcases hs : c.step E request action with _ | c₁ <;> rw [hs] at h
    · cases h
    · exact .head ⟨trivial, action, hs⟩ (runs_of_run h)

theorem Executor.Runs.mono {E : Executor} {request : AgentRequest} {P Q : Config → Prop}
    {c c' : Config} (h : E.Runs request P c c') (hPQ : ∀ c, P c → Q c) :
    E.Runs request Q c c' := by
  induction h with
  | refl => exact .refl
  | tail _ hstep ih => exact .tail ih ⟨hPQ _ hstep.1, hstep.2⟩

/-- What a run has to meet before each of its actions. -/
def Config.Meets (E : Executor) (solo clean : Prop) (c : Config) : Prop :=
  (solo → c.plan.stepIds.Nodup) ∧ (clean → c.keepsSuccesses E = true)

theorem Config.meets_false (E : Executor) (c : Config) : c.Meets E False False :=
  ⟨False.elim, False.elim⟩

section Runs

variable {call : Call} {hist : List Event} {initial : String → Prop} {solo clean : Prop}
  {E : Executor} {c₀ c : Config} {P : Config → Prop}

/-- A run keeps the invariant. -/
theorem Inv.runs (h₀ : Inv call hist initial solo clean c₀)
    (hP : ∀ c, P c → c.Meets E solo clean) (hrun : E.Runs call.request P c₀ c) :
    Inv call hist initial solo clean c := by
  induction hrun with
  | refl => exact h₀
  | tail _ hstep ih =>
    obtain ⟨hp, action, hs⟩ := hstep
    exact ih.step (hP _ hp).1 (hP _ hp).2 hs

/-- Induction over a run: at each action the invariant and the run's condition are at hand. -/
theorem Inv.runs_induction {Q : Config → Prop} (h₀ : Inv call hist initial solo clean c₀)
    (hP : ∀ c, P c → c.Meets E solo clean) (hinit : Q c₀)
    (hstep : ∀ c c' action, Inv call hist initial solo clean c → P c →
      c.step E call.request action = some c' → Q c → Q c')
    (hrun : E.Runs call.request P c₀ c) : Q c := by
  induction hrun with
  | refl => exact hinit
  | tail hprev hlast ih =>
    obtain ⟨hp, action, hs⟩ := hlast
    exact hstep _ _ action (h₀.runs hP hprev) hp hs ih

end Runs

/-! ## Earlier calls -/

/-- The call has returned or raised. -/
def Config.Ended (c : Config) : Prop :=
  (∃ result, c.phase = .returned result) ∨ ∃ error, c.phase = .raised error

/-- The stores that earlier calls, of any requests and plans, can leave, with the events of these
calls. Between two calls a session may be cancelled. -/
inductive Reachable : List Event → InMemoryStateStore → Prop
  | empty : Reachable [] {}
  | call {hist : List Event} {store : InMemoryStateStore} {E : Executor} {call : Call}
    {c₀ c : Config} (h : Reachable hist store) (hstart : Executor.start call store = .ok c₀)
    (hrun : E.Runs call.request (fun _ => True) c₀ c) (hended : c.Ended) :
    Reachable (hist ++ c.world.trace) c.world.store
  | cancel {hist : List Event} {store store' : InMemoryStateStore} {sid : String}
    (h : Reachable hist store) (hmark : store.markCancelRequested sid = .ok store') :
    Reachable hist store'

theorem Reachable.inv {hist : List Event} {store : InMemoryStateStore}
    (h : Reachable hist store) :
    store.WellFormed ∧ ∀ control, Keyed hist ⟨store, control, []⟩ := by
  induction h with
  | empty =>
    refine ⟨fun sid session hs => ?_, fun control t id step hs => ?_⟩
    · simp at hs
    · simp [step?] at hs
  | @call hist store E call c₀ c h hstart hrun hended ih =>
    obtain ⟨c₁, hc₁, -, hinv⟩ := start_inv call ih.1 (ih.2 call.control) False False
    rw [hstart] at hc₁
    cases hc₁
    have hc := hinv.runs (fun c _ => c.meets_false _) hrun
    refine ⟨hc.wellFormed, fun control t id step hs hsuccess => ?_⟩
    rw [List.append_nil]
    exact hc.keyed t id step hs hsuccess
  | @cancel hist store store' sid h hmark ih =>
    have hsession : store.HasSession sid := by
      unfold markCancelRequested modifySession getSession at hmark
      rcases hs : store.sessions.get? sid with _ | session <;> rw [hs] at hmark
      · cases hmark
      · simp [HasSession, hs]
    obtain ⟨store'', hs, hframe⟩ := markCancelRequested_frame hsession
    rw [hs] at hmark
    cases hmark
    exact ⟨(hframe fun _ => False).wellFormed ih.1, fun control =>
      keyed_snapshot (ih.2 control) hframe⟩

/-- A call after earlier ones starts in the invariant. -/
theorem Reachable.start {hist : List Event} {store : InMemoryStateStore}
    (h : Reachable hist store) {call : Call} {c₀ : Config}
    (hstart : Executor.start call store = .ok c₀) (solo clean : Prop) :
    Starts call store c₀
      ∧ Inv call hist (store.Succeeded call.plan.sessionId) solo clean c₀ := by
  obtain ⟨c₁, hc₁, hs⟩ := start_inv call h.inv.1 (h.inv.2 call.control) solo clean
  rw [hstart] at hc₁
  cases hc₁
  exact hs

/-! ## Small calls -/

/-- One registered tool `t`, and no check that rejects. -/
def sampleExecutor (maxRetryAttempts maxReplanAttempts : ℤ) : Executor :=
  { toolRegistry := ⟨(∅ : Dict String ToolDefinition).set "t" ⟨"t", "t.json"⟩⟩
    validate := fun _ _ => none
    policyEngine := {}
    maxRetryAttempts
    maxReplanAttempts }

def sampleCall (plan : ExecutionPlan) : Call :=
  { plan
    request := { requestId := plan.requestId, sessionId := plan.sessionId, userInput := "u",
                 allowedTools := ["t"] }
    context := { task := ⟨plan.requestId, plan.sessionId, "u"⟩ }
    control := { startedAt := 0 } }

/-- A thread's actions for one attempt that succeeds, from its start to its end. -/
def succeedThread (i : ℕ) : List Action :=
  List.replicate 12 (Action.thread i { reply := .returned .null })

/-- A thread's actions for one attempt that times out and exhausts the step. -/
def exhaustThread (i : ℕ) : List Action :=
  List.replicate 15 (Action.thread i { reply := .timeout })

/-- A round of the loop that starts a batch of `n` threads, up to the fold of their outcomes. -/
def batchRound (n : ℕ) (threads : List Action) : List Action :=
  Action.loop 0 :: threads ++ (List.range n).map Action.collect ++ [Action.fold]

/-- The call has returned a result that passes the check. -/
def Config.returns (p : ExecutionResult → Bool) (c : Config) : Bool :=
  match c.phase with
  | .returned result => p result
  | _ => false

theorem Config.exists_of_returns {p : ExecutionResult → Bool} {c : Config}
    (h : c.returns p = true) : ∃ result, c.phase = .returned result ∧ p result = true := by
  unfold returns at h
  rcases hphase : c.phase with _ | ⟨threads, results⟩ | result | error <;> rw [hphase] at h <;>
    try cases h
  exact ⟨result, rfl, h⟩

/-- A call's start and what follows it, and what the state then shows. -/
theorem exists_of_start {call : Call} {store : InMemoryStateStore} {k : Config → Option Config}
    {q : Config → Bool}
    (h : ((Executor.start call store).toOption.bind k).any q = true) :
    ∃ c₀ c, Executor.start call store = .ok c₀ ∧ k c₀ = some c ∧ q c = true := by
  rcases hs : Executor.start call store with error | c₀ <;> rw [hs] at h
  · simp [Except.toOption] at h
  · rcases hr : k c₀ with _ | c <;>
      simp only [Except.toOption, Option.bind_some, hr, Option.any_none, Option.any_some,
        reduceCtorEq] at h
    exact ⟨c₀, c, rfl, hr, h⟩

theorem exists_of_runWhile {E : Executor} {call : Call} {store : InMemoryStateStore}
    {p : Config → Bool} {actions : List Action} {q : Config → Bool}
    (h : ((Executor.start call store).toOption.bind fun c =>
      E.runWhile call.request p c actions).any q = true) :
    ∃ c₀ c, Executor.start call store = .ok c₀
      ∧ E.Runs call.request (fun c => p c = true) c₀ c ∧ q c = true := by
  obtain ⟨c₀, c, hstart, hr, hq⟩ := exists_of_start h
  exact ⟨c₀, c, hstart, Executor.runs_of_runWhile hr, hq⟩

theorem exists_of_run {E : Executor} {call : Call} {store : InMemoryStateStore}
    {actions : List Action} {q : Config → Bool}
    (h : ((Executor.start call store).toOption.bind fun c =>
      E.run call.request c actions).any q = true) :
    ∃ c₀ c, Executor.start call store = .ok c₀ ∧ E.run call.request c₀ actions = some c
      ∧ q c = true := exists_of_start h

theorem eq_ok_of_toOption {ε α : Type} {x : Except ε α} {a : α} (h : x.toOption = some a) :
    x = .ok a := by
  cases x with
  | error e => cases h
  | ok b => rw [Option.some.inj h]

end AgentLearning
