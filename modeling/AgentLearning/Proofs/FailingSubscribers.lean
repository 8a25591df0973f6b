import Mathlib.Order.WithBot
import AgentLearning.Proofs.BusDelivery
import AgentLearning.Proofs.TerminalTasks

/-!
# Calls whose subscribers fail

`enqueue` and `complete` change the dispatcher first and publish afterwards, and the bus in memory
runs the handlers within the call, which may call the dispatcher in their turn. What is changed
stays when a handler raises. It can only be taken back by completing a finished task once more:
every other call that does anything brings its task to a later stage, and no task goes back.
-/

namespace AgentLearning

namespace TaskDispatcher

open Trace AssignmentStatus

/-- What can be seen of an assignment to have changed. -/
def observed (a : TaskAssignment) : AssignmentStatus × ℕ × ℚ :=
  (a.status, a.attemptCount, a.updatedAt)

/-- The same assignments, each with the same status, `attempt_count` and `updated_at`. -/
def Same (d d' : TaskDispatcher) : Prop :=
  ∀ taskId, (d'.assignments.get? taskId).map observed = (d.assignments.get? taskId).map observed

/-- The call finds nothing to do, unless it is to complete what is finished. -/
def Idle (d : TaskDispatcher) : DispatcherCall → Prop
  | .enqueue _ assignment => (d.assignments.get? assignment.taskId).isSome
  | .dispatchNext role _ => ∀ taskId a, d.assignments.get? taskId = some a → a.role = role →
      a.status ≠ .pending
  | .complete _ taskId _ _ => ∀ a, d.assignments.get? taskId = some a → a.status.Terminal
  | .recycleTimedOut now clock => ∀ taskId a, d.assignments.get? taskId = some a →
      a.timedOut (currentTime now clock) = false

/-- The task that a call completes, with the status and the time it writes. -/
def said : DispatcherCall → Option (String × Option (AssignmentStatus × ℚ))
  | .complete _ taskId succeeded now => some (taskId, some (outcome succeeded, now))
  | _ => none

/-- All calls are idle, and the last that completes a task says what was stored of it before. -/
structure LeavesNoMark (d : TaskDispatcher) (calls : List DispatcherCall) : Prop where
  idle : ∀ call ∈ calls, Idle d call
  said : ∀ taskId a s, d.assignments.get? taskId = some a →
    lastChanges said calls taskId = some s → s = (a.status, a.updatedAt)

variable {d d' : TaskDispatcher} {taskId : String} {a : TaskAssignment} {call : DispatcherCall}
  {calls : List DispatcherCall}

/-! ## Idle calls -/

/-- The dispatchers differ in tasks that are finished in both. -/
def Settled (d d' : TaskDispatcher) : Prop :=
  ∀ taskId, d'.assignments.get? taskId = d.assignments.get? taskId
    ∨ ∃ a a', d.assignments.get? taskId = some a ∧ d'.assignments.get? taskId = some a'
      ∧ a.status.Terminal ∧ a'.status.Terminal

theorem Settled.symm (h : Settled d d') : Settled d' d := by
  intro taskId
  rcases h taskId with heq | ⟨a, a', ha, ha', hs, hs'⟩
  · exact .inl heq.symm
  · exact .inr ⟨a', a, ha', ha, hs', hs⟩

theorem Settled.isSome_eq (h : Settled d d') :
    (d'.assignments.get? taskId).isSome = (d.assignments.get? taskId).isSome := by
  rcases h taskId with heq | ⟨a, a', ha, ha', -⟩
  · rw [heq]
  · rw [ha, ha']
    rfl

/-- What is not finished is the same. -/
theorem Settled.of_not_terminal (h : Settled d d') (hget : d'.assignments.get? taskId = some a)
    (hlive : ¬ a.status.Terminal) : d.assignments.get? taskId = some a := by
  rcases h taskId with heq | ⟨b, b', -, hb', -, hs'⟩
  · rw [← heq, hget]
  · rw [hget] at hb'
    exact absurd (Option.some.inj hb' ▸ hs') hlive

theorem not_terminal_of_timedOut {t : ℚ} (h : a.timedOut t) : ¬ a.status.Terminal :=
  fun hterminal => hterminal.ne_running (timedOut_iff.mp h).1

theorem Settled.idle (h : Settled d d') (hidle : Idle d call) : Idle d' call := by
  cases call with
  | enqueue bus b => exact h.isSome_eq.trans hidle
  | dispatchNext role now =>
    intro taskId a hget hrole hpending
    have hlive : ¬ a.status.Terminal := fun hterminal => hterminal.ne_pending hpending
    exact hidle taskId a (h.of_not_terminal hget hlive) hrole hpending
  | complete bus id succeeded now =>
    intro a hget
    by_contra hlive
    exact hlive (hidle a (h.of_not_terminal hget hlive))
  | recycleTimedOut now clock =>
    intro taskId a hget
    by_contra hout
    rw [Bool.not_eq_false] at hout
    have hold := hidle taskId a (h.of_not_terminal hget (not_terminal_of_timedOut hout))
    rw [hold] at hout
    exact Bool.false_ne_true hout

theorem candidates_eq_nil {role : String} :
    d.candidates role = [] ↔ ∀ taskId a, d.assignments.get? taskId = some a → a.role = role →
      a.status ≠ .pending := by
  rw [List.eq_nil_iff_forall_not_mem]
  constructor
  · intro h taskId a hget hrole hpending
    refine h a (mem_candidates.mpr ⟨?_, hrole, hpending⟩)
    rw [d.keyed taskId a hget, hget]
  · intro h a ha
    obtain ⟨hget, hrole, hpending⟩ := mem_candidates.mp ha
    exact h a.taskId a hget hrole hpending

/-- An idle call that completes nothing changes nothing. -/
theorem get?_exec_of_idle (h : Idle d call) (hsaid : said call = none) :
    (exec d call).2.assignments.get? taskId = d.assignments.get? taskId := by
  cases call with
  | enqueue bus b =>
    unfold Idle at h
    simp only [exec, enqueue, if_pos h]
  | dispatchNext role now =>
    simp only [exec, dispatchNext, candidates_eq_nil.mpr h]
  | complete bus id succeeded now => cases hsaid
  | recycleTimedOut now clock =>
    simp only [exec, get?_recycleTimedOut]
    rcases hget : d.assignments.get? taskId with _ | a
    · rfl
    · have hout := h taskId a hget
      rw [Option.map_some, TaskAssignment.recycle, hout, if_neg Bool.false_ne_true]

/-! ## Runs of idle calls -/

/-- An assignment with what was said of it last. -/
def restate (a : TaskAssignment) : Option (AssignmentStatus × ℚ) → TaskAssignment
  | none => a
  | some s => { a with status := s.1, updatedAt := s.2 }

/-- Where the run has come to differs from where it began in what was said of finished tasks. -/
structure Restated (d : TaskDispatcher) (calls : List DispatcherCall) (d' : TaskDispatcher) :
    Prop where
  get? : ∀ taskId, d'.assignments.get? taskId
    = (d.assignments.get? taskId).map fun a => restate a (lastChanges said calls taskId)
  terminal : ∀ taskId a s, d.assignments.get? taskId = some a →
    lastChanges said calls taskId = some s → a.status.Terminal ∧ s.1.Terminal

theorem Restated.settled (h : Restated d calls d') : Settled d d' := by
  intro taskId
  rw [h.get? taskId]
  rcases hget : d.assignments.get? taskId with _ | a
  · exact .inl rfl
  · rcases hs : lastChanges TaskDispatcher.said calls taskId with _ | s
    · exact .inl rfl
    · obtain ⟨ha, hterminal⟩ := h.terminal taskId a s hget hs
      exact .inr ⟨a, _, rfl, rfl, ha, hterminal⟩

theorem Restated.quiet (h : Restated d calls d') (hidle : Idle d call)
    (hsaid : TaskDispatcher.said call = none) :
    Restated d (calls ++ [call]) (exec d' call).2 := by
  refine ⟨fun taskId => ?_, ?_⟩
  · rw [get?_exec_of_idle (h.settled.idle hidle) hsaid, lastChanges_concat_none hsaid,
      h.get? taskId]
  · rw [lastChanges_concat_none hsaid]
    exact h.terminal

theorem Restated.complete (h : Restated d calls d')
    (bus : Option (Publication → Except PyError Unit)) {id : String} (succeeded : Bool) (now : ℚ)
    (hfinished : ∀ a, d.assignments.get? id = some a → a.status.Terminal) :
    Restated d (calls ++ [.complete bus id succeeded now])
      (d'.complete bus id succeeded now).2 := by
  have hlast : lastChanges TaskDispatcher.said (calls ++ [.complete bus id succeeded now])
      = Function.update (lastChanges TaskDispatcher.said calls) id
        (some (outcome succeeded, now)) := lastChanges_concat_some rfl
  refine ⟨fun taskId => ?_, fun taskId a s hget hs => ?_⟩
  · rw [hlast]
    by_cases hid : id = taskId
    · subst hid
      have hold := h.get? id
      rw [Function.update_self]
      rcases hget : d.assignments.get? id with _ | a
      · rw [hget, Option.map_none] at hold
        simp only [TaskDispatcher.complete, hold]
        rfl
      · rw [hget, Option.map_some] at hold
        rw [get?_complete hold]
        rcases lastChanges TaskDispatcher.said calls id with _ | s <;> rfl
    · rw [get?_complete_ne hid, Function.update_of_ne (Ne.symm hid), h.get? taskId]
  · rw [hlast] at hs
    by_cases hid : id = taskId
    · subst hid
      rw [Function.update_self] at hs
      obtain rfl := Option.some.inj hs
      exact ⟨hfinished a hget, terminal_outcome succeeded⟩
    · rw [Function.update_of_ne (Ne.symm hid)] at hs
      exact h.terminal taskId a s hget hs

theorem Restated.concat (h : Restated d calls d') (hidle : Idle d call) :
    Restated d (calls ++ [call]) (exec d' call).2 := by
  cases call with
  | enqueue bus b => exact h.quiet hidle rfl
  | dispatchNext role now => exact h.quiet hidle rfl
  | complete bus id succeeded now => exact h.complete bus succeeded now hidle
  | recycleTimedOut now clock => exact h.quiet hidle rfl

theorem restated_run (h : ∀ call ∈ calls, Idle d call) :
    Restated d calls (final exec d calls) := by
  induction calls using List.reverseRecOn with
  | nil =>
    refine ⟨fun taskId => ?_, fun _ _ _ _ hs => by cases hs⟩
    rcases hget : d.assignments.get? taskId with _ | a <;> simpa using! hget
  | append_singleton calls call ih =>
    rw [List.forall_mem_append, List.forall_mem_singleton] at h
    rw [final_concat]
    exact (ih h.1).concat h.2

/-! ## Stages -/

/-- How far a task has come. A task that waits again is further than when it ran. -/
def stage : Option TaskAssignment → WithTop ℕ
  | none => WithTop.some 0
  | some a =>
    match a.status with
    | .pending => WithTop.some (2 * a.attemptCount + 2)
    | .running => WithTop.some (2 * a.attemptCount + 1)
    | .completed => ⊤
    | .failed => ⊤

theorem stage_of_terminal (h : a.status.Terminal) : stage (some a) = ⊤ := by
  rcases h with h | h <;> simp only [stage, h]

theorem stage_lt_top (h : ¬ a.status.Terminal) : stage (some a) < ⊤ := by
  rcases hs : a.status <;> simp only [stage, hs]
  · exact WithTop.coe_lt_top _
  · exact WithTop.coe_lt_top _
  · exact absurd (.inl hs) h
  · exact absurd (.inr hs) h

theorem stage_none_lt : stage none < stage (some a) := by
  rcases hs : a.status <;> simp only [stage, hs]
  · exact WithTop.coe_lt_coe.mpr (Nat.succ_pos _)
  · exact WithTop.coe_lt_coe.mpr (Nat.succ_pos _)
  · exact WithTop.coe_lt_top _
  · exact WithTop.coe_lt_top _

theorem stage_complete (hget : d.assignments.get? taskId = some a)
    (bus : Option (Publication → Except PyError Unit)) (succeeded : Bool) (now : ℚ) :
    stage ((d.complete bus taskId succeeded now).2.assignments.get? taskId) = ⊤ := by
  rw [get?_complete hget]
  exact stage_of_terminal (terminal_outcome succeeded)

theorem stage_lt_dispatched (h : a.status = .pending) (now : ℚ) :
    stage (some a) < stage (some { a with
      status := .running, attemptCount := a.attemptCount + 1, updatedAt := now }) := by
  simp only [stage, h]
  exact WithTop.coe_lt_coe.mpr (Nat.lt_succ_self (2 * a.attemptCount + 2))

theorem stage_lt_recycled {t : ℚ} (h : a.timedOut t) :
    stage (some a) < stage (some (a.recycle t)) := by
  have hrun := timedOut_iff.mp h
  rw [TaskAssignment.recycle, if_pos h]
  by_cases hover : (a.attemptCount : ℤ) > a.retryLimit
  · simp only [stage, hrun.1, if_pos hover]
    exact WithTop.coe_lt_top _
  · simp only [stage, hrun.1, if_neg hover]
    exact WithTop.coe_lt_coe.mpr (Nat.lt_succ_self (2 * a.attemptCount + 1))

/-- No call takes a task back. -/
theorem stage_le_exec (d : TaskDispatcher) (call : DispatcherCall) (taskId : String) :
    stage (d.assignments.get? taskId) ≤ stage ((exec d call).2.assignments.get? taskId) := by
  cases call with
  | enqueue bus b =>
    simp only [exec, get?_enqueue]
    split_ifs with hnew
    · rw [hnew.2]
      exact stage_none_lt.le
    · exact le_rfl
  | dispatchNext role now =>
    simp only [exec]
    rcases hnext : (d.dispatchNext role now).1 with _ | b
    · rw [dispatchNext_none hnext]
    · obtain ⟨a, hget, -, hstatus, rfl, hstore⟩ := dispatchNext_some hnext
      rw [hstore, get?_store]
      split_ifs with hid
      · rw [← hid, hget]
        exact (stage_lt_dispatched hstatus now).le
      · exact le_rfl
  | complete bus id succeeded now =>
    simp only [exec]
    by_cases hid : id = taskId
    · subst hid
      rcases hget : d.assignments.get? id with _ | a
      · simp only [complete, hget, le_refl]
      · rw [stage_complete hget]
        exact le_top
    · rw [get?_complete_ne hid]
  | recycleTimedOut now clock =>
    simp only [exec, get?_recycleTimedOut]
    rcases d.assignments.get? taskId with _ | a
    · exact le_rfl
    · rw [Option.map_some]
      by_cases hout : a.timedOut (currentTime now clock)
      · exact (stage_lt_recycled hout).le
      · rw [TaskAssignment.recycle, if_neg hout]

/-- A call that brings no task further is idle. -/
theorem idle_of_stage_le (h : ∀ taskId, stage ((exec d call).2.assignments.get? taskId)
    ≤ stage (d.assignments.get? taskId)) : Idle d call := by
  cases call with
  | enqueue bus b =>
    unfold Idle
    by_contra hmem
    rw [Bool.not_eq_true, Option.isSome_eq_false_iff, Option.isNone_iff_eq_none] at hmem
    have hstage := h b.taskId
    simp only [exec, get?_enqueue, hmem, and_self, if_true] at hstage
    exact hstage.not_gt stage_none_lt
  | dispatchNext role now =>
    refine candidates_eq_nil.mp ?_
    rcases hsort : d.candidates role with _ | ⟨b, rest⟩
    · rfl
    · have hnext : (d.dispatchNext role now).1 = some { b with
          status := .running, attemptCount := b.attemptCount + 1, updatedAt := now } := by
        simp only [dispatchNext, hsort]
      obtain ⟨a, hget, -, hstatus, heq, hstore⟩ := dispatchNext_some hnext
      have hstage := h a.taskId
      simp only [exec, hstore, heq, get?_store, if_true, hget] at hstage
      exact absurd (stage_lt_dispatched hstatus now) hstage.not_gt
  | complete bus id succeeded now =>
    intro a hget
    by_contra hlive
    have hstage := h id
    simp only [exec] at hstage
    rw [stage_complete hget, hget] at hstage
    exact hstage.not_gt (stage_lt_top hlive)
  | recycleTimedOut now clock =>
    intro taskId a hget
    by_contra hout
    rw [Bool.not_eq_false] at hout
    have hstage := h taskId
    simp only [exec, get?_recycleTimedOut, hget, Option.map_some] at hstage
    exact hstage.not_gt (stage_lt_recycled hout)

theorem stage_le_final (d : TaskDispatcher) (calls : List DispatcherCall) (taskId : String) :
    stage (d.assignments.get? taskId)
      ≤ stage ((final exec d calls).assignments.get? taskId) :=
  final_induct (P := fun d' : TaskDispatcher =>
    stage (d.assignments.get? taskId) ≤ stage (d'.assignments.get? taskId)) le_rfl
    fun d' call _ h => h.trans (stage_le_exec d' call taskId)

theorem idle_run : ∀ (calls : List DispatcherCall) (d : TaskDispatcher),
    (∀ taskId, stage ((final exec d calls).assignments.get? taskId)
      ≤ stage (d.assignments.get? taskId)) → ∀ call ∈ calls, Idle d call
  | [], _, _ => by simp
  | call :: calls, d, h => by
    rw [final_cons] at h
    have hidle : Idle d call := idle_of_stage_le fun taskId =>
      (stage_le_final _ calls taskId).trans (h taskId)
    have hone : Restated d [call] (exec d call).2 :=
      restated_run (List.forall_mem_singleton.mpr hidle)
    have ih := idle_run calls (exec d call).2 fun taskId =>
      (h taskId).trans (stage_le_exec d call taskId)
    rw [List.forall_mem_cons]
    exact ⟨hidle, fun call' hcall' => hone.settled.symm.idle (ih call' hcall')⟩

/-! ## Calls that leave no mark -/

theorem stage_eq_of_observed_eq {x y : Option TaskAssignment}
    (h : x.map observed = y.map observed) : stage x = stage y := by
  rcases x with _ | a <;> rcases y with _ | b
  · rfl
  · cases h
  · cases h
  · rw [Option.map_some, Option.map_some, Option.some.injEq] at h
    simp only [observed, Prod.mk.injEq] at h
    simp only [stage, h.1, h.2.1]

/-- A run of calls leaves the assignments as they were exactly if every call is idle, and the last
that completes a task repeats what was stored of it. -/
theorem same_final_iff : Same d (final exec d calls) ↔ LeavesNoMark d calls := by
  constructor
  · intro h
    have hidle := idle_run calls d fun taskId => (stage_eq_of_observed_eq (h taskId)).le
    refine ⟨hidle, fun taskId a s hget hs => ?_⟩
    have hobserved := h taskId
    rw [(restated_run hidle).get? taskId, hget, hs] at hobserved
    simpa [restate, observed, Prod.ext_iff] using! hobserved
  · rintro ⟨hidle, hsaid⟩ taskId
    rw [(restated_run hidle).get? taskId]
    rcases hget : d.assignments.get? taskId with _ | a
    · rfl
    · rcases hs : lastChanges TaskDispatcher.said calls taskId with _ | s
      · rfl
      · rw [hsaid taskId a s hget hs]
        rfl

/-! ## Within a call -/

variable {η ω : Type}

/-- What a handler does with a message: its calls on the dispatcher, with those of the handlers
that these reach in turn, in the order in which they take effect; what it makes of the world; and
whether it returns. -/
structure Reaction (ω : Type) where
  calls : List DispatcherCall
  world : ω
  result : Except PyError Unit

variable (handle : η → Message → ω → TaskDispatcher → Reaction ω)

/-- `for handler in handlers: handler(msg)`. -/
def deliver (msg : Message) : List η → ω → TaskDispatcher → Reaction ω
  | [], world, _ => { calls := [], world, result := .ok () }
  | handler :: handlers, world, d =>
    let first := handle handler msg world d
    match first.result with
    | .error _ => first
    | .ok () =>
      let rest := deliver msg handlers first.world (final exec d first.calls)
      { rest with calls := first.calls ++ rest.calls }

variable (bus : InMemoryMessageBus η) (messageId : String) (timestamp : ℚ) (world : ω)

/-- The handlers are those that are subscribed when `publish` begins. -/
def reaction (d : TaskDispatcher) (publication : Publication) : Reaction ω :=
  let msg := { publication with messageId, timestamp }
  deliver handle msg (bus.handlersOf msg.topic) world d

/-- What a call publishes at its end, unless it raises before. What it returns is the object that
is stored, as the handlers have left it. -/
def publishing (call : Except PyError TaskAssignment × TaskDispatcher)
    (publication : Publication) : Except PyError TaskAssignment × TaskDispatcher :=
  match call with
  | (.error e, d) => (.error e, d)
  | (.ok assignment, d) =>
    let reaction := reaction handle bus messageId timestamp world d publication
    let d := final exec d reaction.calls
    (reaction.result.map fun _ => (d.assignments.get? assignment.taskId).getD assignment, d)

def assigned (assignment : TaskAssignment) : Publication where
  topic := s!"task.assigned.{assignment.role}"
  payload := .obj [("task_id", .str assignment.taskId), ("role", .str assignment.role)]
  senderId := "dispatcher"

def finished (taskId : String) (succeeded : Bool) : Publication where
  topic := "task.completed"
  payload := .obj [("task_id", .str taskId), ("succeeded", .bool succeeded)]
  senderId := "dispatcher"

/-- `enqueue` with subscribers that may call the dispatcher. -/
def enqueueOn (d : TaskDispatcher) (assignment : TaskAssignment) :
    Except PyError TaskAssignment × TaskDispatcher :=
  publishing handle bus messageId timestamp world (d.enqueue none assignment)
    (assigned assignment)

/-- `complete` with subscribers that may call the dispatcher. -/
def completeOn (d : TaskDispatcher) (taskId : String) (succeeded : Bool) (now : ℚ) :
    Except PyError TaskAssignment × TaskDispatcher :=
  publishing handle bus messageId timestamp world (d.complete none taskId succeeded now)
    (finished taskId succeeded)

/-! ### Subscribers that only look on -/

section Onlookers

variable (plain : η → Message → Except PyError Unit)

/-- Handlers that leave the dispatcher alone. -/
def onlook (handler : η) (msg : Message) (world : ω) (_ : TaskDispatcher) : Reaction ω where
  calls := []
  world
  result := plain handler msg

theorem deliver_onlook (msg : Message) (d : TaskDispatcher) : ∀ handlers : List η,
    deliver (onlook plain) msg handlers world d
      = { calls := [], world, result := (callHandlers plain msg handlers).2 }
  | [] => rfl
  | handler :: handlers => by
    rcases h : plain handler msg with e | _
    · simp only [deliver, callHandlers, onlook, h]
    · simp only [deliver, callHandlers, onlook, h, final_nil, List.nil_append,
        deliver_onlook msg d handlers]

/-- What the bus does then with what is published. -/
def publishPlain (publication : Publication) : Except PyError Unit :=
  (bus.dispatch plain { publication with messageId, timestamp }).2

theorem reaction_onlook (d : TaskDispatcher) (publication : Publication) :
    reaction (onlook plain) bus messageId timestamp world d publication
      = { calls := [], world, result := publishPlain bus messageId timestamp plain publication } :=
  deliver_onlook world plain _ d _

theorem enqueueOn_onlook (d : TaskDispatcher) (assignment : TaskAssignment) :
    d.enqueueOn (onlook plain) bus messageId timestamp world assignment
      = d.enqueue (some (publishPlain bus messageId timestamp plain)) assignment := by
  unfold enqueueOn enqueue
  split_ifs with hmem
  · rfl
  · simp only [broadcast, Except.map, publishing, reaction_onlook, final_nil, get?_store, if_true,
      Option.getD_some]
    rfl

theorem completeOn_onlook (d : TaskDispatcher) (taskId : String) (succeeded : Bool) (now : ℚ) :
    d.completeOn (onlook plain) bus messageId timestamp world taskId succeeded now
      = d.complete (some (publishPlain bus messageId timestamp plain)) taskId succeeded now := by
  unfold completeOn complete
  rcases hget : d.assignments.get? taskId with _ | a
  · rfl
  · simp only [broadcast, Except.map, publishing, reaction_onlook, final_nil, get?_store, if_true,
      Option.getD_some]
    rfl

end Onlookers

/-! ### When a call that raises leaves no mark -/

/-- If the call raises, the assignments are as they were. -/
def Atomic (d : TaskDispatcher) (call : Except PyError TaskAssignment × TaskDispatcher) : Prop :=
  (∃ e, call.1 = .error e) → Same d call.2

variable {handle bus messageId timestamp world}

theorem atomic_of_refused {e : PyError} {publication : Publication} :
    Atomic d (publishing handle bus messageId timestamp world (.error e, d) publication) :=
  fun _ _ => rfl

/-- A call that has changed the dispatcher is atomic if it then returns, or if the handlers have
taken back what it changed. -/
theorem atomic_publishing_iff {publication : Publication} :
    Atomic d (publishing handle bus messageId timestamp world (.ok a, d') publication)
      ↔ (reaction handle bus messageId timestamp world d' publication).result = .ok ()
        ∨ Same d (final exec d'
          (reaction handle bus messageId timestamp world d' publication).calls) := by
  unfold Atomic publishing
  rcases hresult : (reaction handle bus messageId timestamp world d' publication).result with e | _
  · simp [hresult, Except.map]
  · simp [hresult, Except.map]

theorem enqueue_eq (hmem : ¬ (d.assignments.get? a.taskId).isSome) :
    d.enqueue none a = (.ok a, (exec d (.enqueue none a)).2) := by
  simp only [exec, enqueue, if_neg hmem, broadcast, Except.map]

theorem complete_eq (hget : d.assignments.get? taskId = some a) (succeeded : Bool) (now : ℚ) :
    d.complete none taskId succeeded now
      = (.ok { a with status := outcome succeeded, updatedAt := now },
        (exec d (.complete none taskId succeeded now)).2) := by
  simp only [exec, complete, hget, broadcast, Except.map, outcome]

variable (handle bus messageId timestamp world) in
/-- An `enqueue` that raises has changed nothing exactly if it was refused or no subscriber raises.
A `complete` may besides come for a finished task, with subscribers that only complete finished
tasks too, if the last to complete each of these tasks writes what was there before. -/
theorem atomic_iff (d : TaskDispatcher) :
    (∀ assignment,
      Atomic d (d.enqueueOn handle bus messageId timestamp world assignment) ↔
        (d.assignments.get? assignment.taskId).isSome
          ∨ (reaction handle bus messageId timestamp world
            (exec d (.enqueue none assignment)).2 (assigned assignment)).result = .ok ())
    ∧ ∀ taskId succeeded now,
      let call := DispatcherCall.complete none taskId succeeded now
      let reaction := reaction handle bus messageId timestamp world
        (exec d call).2 (finished taskId succeeded)
      Atomic d (d.completeOn handle bus messageId timestamp world taskId succeeded now) ↔
        d.assignments.get? taskId = none ∨ reaction.result = .ok ()
          ∨ LeavesNoMark d (call :: reaction.calls) := by
  refine ⟨fun assignment => ?_, fun taskId succeeded now => ?_⟩
  · unfold enqueueOn
    by_cases hmem : (d.assignments.get? assignment.taskId).isSome
    · rw [enqueue, if_pos hmem]
      exact iff_of_true atomic_of_refused (.inl hmem)
    · rw [enqueue_eq hmem, atomic_publishing_iff, ← final_cons, same_final_iff, or_iff_right hmem,
        or_iff_left]
      intro h
      exact hmem (h.idle _ List.mem_cons_self)
  · unfold completeOn
    rcases hget : d.assignments.get? taskId with _ | a
    · rw [complete, hget]
      exact iff_of_true atomic_of_refused (.inl rfl)
    · rw [complete_eq hget, atomic_publishing_iff, ← final_cons, same_final_iff]
      exact (or_iff_right (Option.some_ne_none a)).symm

/-- A subscriber that fails on everything: the task is there although `enqueue` raised, so that it
cannot be tried again, and it is completed although `complete` raised. -/
theorem enqueue_raises_and_stores :
    let handle (_ : Unit) (_ : Message) (world : Unit) (_ : TaskDispatcher) : Reaction Unit :=
      { calls := [], world, result := .error (.exception "down") }
    let bus := ((({} : InMemoryMessageBus Unit).subscribe "task.assigned.writer" ()).subscribe
      "task.completed" ())
    let task : TaskAssignment :=
      { taskId := "t", role := "writer", payload := .null, createdAt := 0, updatedAt := 0 }
    let first := enqueueOn handle bus "m1" 0 () ∅ task
    let again := enqueueOn handle bus "m2" 1 () first.2 task
    let done := completeOn handle bus "m3" 2 () first.2 "t" true 2
    ¬ Atomic ∅ first ∧ again.1.map (fun _ => ()) = .error (.valueError "task 't' already exists")
      ∧ ¬ Atomic first.2 done := by
  intro handle bus task first again done
  refine ⟨fun h => ?_, rfl, fun h => ?_⟩
  · have hsame := h ⟨_, rfl⟩ "t"
    cases hsame
  · have hsame := h ⟨_, rfl⟩ "t"
    cases hsame

end TaskDispatcher

end AgentLearning
