import Mathlib.Algebra.Order.Group.Int
import AgentLearning.Lib.Trace
import AgentLearning.Dispatcher

/-!
# The dispatch budget

What a call does to one task is one of five things (`slotStep_exec`). The budget relates what is
stored of a task to all that has happened: its `attempt_count` is the number of times it was
dispatched, and while it waits, either it was never dispatched or it was recycled since, with a
count that leaves room for one more attempt.
-/

namespace AgentLearning

inductive DispatcherCall
  | enqueue (bus : Option (Publication → Except PyError Unit)) (assignment : TaskAssignment)
  | dispatchNext (role : String) (now : ℚ)
  | complete (bus : Option (Publication → Except PyError Unit)) (taskId : String)
    (succeeded : Bool) (now : ℚ)
  | recycleTimedOut (now : Option ℚ) (clock : ℚ)

inductive DispatcherAnswer
  | assignment (result : Except PyError TaskAssignment)
  | next (assignment : Option TaskAssignment)
  | recycled (assignments : List TaskAssignment)

/-- An assignment is enqueued as a new one. -/
def DispatcherCall.Fresh : DispatcherCall → Prop
  | enqueue _ assignment => assignment.status = .pending ∧ assignment.attemptCount = 0
  | _ => True

namespace TaskDispatcher

open Trace

def exec (d : TaskDispatcher) : DispatcherCall → DispatcherAnswer × TaskDispatcher
  | .enqueue bus assignment =>
    (.assignment (d.enqueue bus assignment).1, (d.enqueue bus assignment).2)
  | .dispatchNext role now => (.next (d.dispatchNext role now).1, (d.dispatchNext role now).2)
  | .complete bus taskId succeeded now =>
    (.assignment (d.complete bus taskId succeeded now).1, (d.complete bus taskId succeeded now).2)
  | .recycleTimedOut now clock =>
    (.recycled (d.recycleTimedOut now clock).1, (d.recycleTimedOut now clock).2)

abbrev DispatcherEvent := Trace.Event TaskDispatcher DispatcherCall DispatcherAnswer

/-- `dispatch_next` returned the task. -/
def dispatches (taskId : String) (e : DispatcherEvent) : Bool :=
  match e.output with
  | .next (some assignment) => assignment.taskId = taskId
  | _ => false

/-- `recycle_timed_out` came upon the task when it was running and its time was over. -/
def Recycles (taskId : String) (e : DispatcherEvent) : Prop :=
  ∃ now clock assignment, e.input = .recycleTimedOut now clock
    ∧ e.before.assignments.get? taskId = some assignment ∧ assignment.status = .running
    ∧ assignment.timeoutSeconds ≤ currentTime now clock - assignment.updatedAt

/-! ## What a call does to one task -/

inductive SlotStep (taskId : String) (e : DispatcherEvent) : Prop
  | same (hd : dispatches taskId e = false)
    (h : e.after.assignments.get? taskId = e.before.assignments.get? taskId)
  | enqueued (hd : dispatches taskId e = false) (bus) (a : TaskAssignment)
    (hc : e.input = .enqueue bus a) (hb : e.before.assignments.get? taskId = none)
    (h : e.after.assignments.get? taskId = some a)
  | dispatched (hd : dispatches taskId e = true) (a : TaskAssignment) (now : ℚ)
    (hb : e.before.assignments.get? taskId = some a) (hs : a.status = .pending)
    (h : e.after.assignments.get? taskId = some { a with
      status := .running, attemptCount := a.attemptCount + 1, updatedAt := now })
  | completed (hd : dispatches taskId e = false) (a : TaskAssignment)
    (status : AssignmentStatus) (now : ℚ)
    (hb : e.before.assignments.get? taskId = some a) (hs : status ≠ .pending)
    (h : e.after.assignments.get? taskId = some { a with status, updatedAt := now })
  | recycled (hd : dispatches taskId e = false) (hr : Recycles taskId e) (a : TaskAssignment)
    (now : ℚ) (hb : e.before.assignments.get? taskId = some a)
    (h : e.after.assignments.get? taskId = some { a with
      status := if a.attemptCount > a.retryLimit then .failed else .pending
      updatedAt := now })

variable {d : TaskDispatcher} {taskId : String}

theorem get?_store (assignment : TaskAssignment) :
    (d.store assignment).assignments.get? taskId
      = if assignment.taskId = taskId then some assignment else d.assignments.get? taskId :=
  d.assignments.get?_set assignment.taskId taskId assignment

theorem get?_enqueue (bus) (a : TaskAssignment) :
    (d.enqueue bus a).2.assignments.get? taskId
      = if a.taskId = taskId ∧ d.assignments.get? taskId = none then some a
        else d.assignments.get? taskId := by
  unfold enqueue
  by_cases hid : a.taskId = taskId
  · subst hid
    rcases hget : d.assignments.get? a.taskId with _ | b
    · simp [get?_store]
    · simp [hget]
  · have hnot : ¬ (a.taskId = taskId ∧ d.assignments.get? taskId = none) := fun h => hid h.1
    rw [if_neg hnot]
    split_ifs
    · rfl
    · rw [get?_store, if_neg hid]

theorem get?_recycleTimedOut (now : Option ℚ) (clock : ℚ) :
    (d.recycleTimedOut now clock).2.assignments.get? taskId
      = (d.assignments.get? taskId).map fun a => a.recycle (currentTime now clock) :=
  Dict.get?_mapValues ..

theorem slotStep_enqueue (bus) (a : TaskAssignment) :
    SlotStep taskId (event exec d (.enqueue bus a)) := by
  have hafter : (event exec d (.enqueue bus a)).after.assignments.get? taskId
      = if a.taskId = taskId ∧ d.assignments.get? taskId = none then some a
        else d.assignments.get? taskId := get?_enqueue bus a
  split_ifs at hafter with hnew
  · exact .enqueued rfl bus a rfl hnew.2 hafter
  · exact .same rfl hafter

theorem mem_candidates {role : String} {a : TaskAssignment} : a ∈ d.candidates role ↔
    d.assignments.get? a.taskId = some a ∧ a.role = role ∧ a.status = .pending := by
  rw [candidates, List.mem_insertionSort, List.mem_filter, Dict.mem_values_iff d.keyed,
    decide_eq_true_iff]

theorem timedOut_iff {a : TaskAssignment} {t : ℚ} :
    a.timedOut t = true ↔ a.status = .running ∧ a.timeoutSeconds ≤ t - a.updatedAt := by
  rw [TaskAssignment.timedOut, decide_eq_true_iff]

/-- What is dispatched was waiting, and is kept with one attempt more. -/
theorem dispatchNext_some {role : String} {now : ℚ} {b : TaskAssignment}
    (h : (d.dispatchNext role now).1 = some b) :
    ∃ a, d.assignments.get? a.taskId = some a ∧ a.role = role ∧ a.status = .pending
      ∧ b = { a with status := .running, attemptCount := a.attemptCount + 1, updatedAt := now }
      ∧ (d.dispatchNext role now).2 = d.store b := by
  unfold dispatchNext at h ⊢
  cases hsort : d.candidates role with
  | nil =>
    rw [hsort] at h
    cases h
  | cons a rest =>
    rw [hsort] at h
    obtain rfl := Option.some.inj h
    have hmem : a ∈ d.candidates role := hsort ▸ List.mem_cons_self
    obtain ⟨hget, hrole, hstatus⟩ := mem_candidates.mp hmem
    exact ⟨a, hget, hrole, hstatus, rfl, rfl⟩

theorem dispatchNext_none {role : String} {now : ℚ} (h : (d.dispatchNext role now).1 = none) :
    (d.dispatchNext role now).2 = d := by
  unfold dispatchNext at h ⊢
  cases hsort : d.candidates role with
  | nil => rfl
  | cons a rest =>
    rw [hsort] at h
    cases h

theorem slotStep_dispatchNext (role : String) (now : ℚ) :
    SlotStep taskId (event exec d (.dispatchNext role now)) := by
  cases hnext : (d.dispatchNext role now).1 with
  | none =>
    refine .same ?_ ?_
    · simp only [dispatches, event, exec, hnext]
    · simp only [event, exec, dispatchNext_none hnext]
  | some b =>
    obtain ⟨a, hget, -, hstatus, rfl, hstore⟩ := dispatchNext_some hnext
    by_cases hid : a.taskId = taskId
    · subst hid
      refine .dispatched ?_ a now hget hstatus ?_
      · simp only [dispatches, event, exec, hnext, decide_true]
      · simp only [event, exec, hstore, get?_store, if_true]
    · refine .same ?_ ?_
      · simp only [dispatches, event, exec, hnext, decide_eq_false_iff_not]
        exact hid
      · simp only [event, exec, hstore, get?_store, if_neg hid]

theorem slotStep_complete (bus) (id : String) (succeeded : Bool) (now : ℚ) :
    SlotStep taskId (event exec d (.complete bus id succeeded now)) := by
  cases hget : d.assignments.get? id with
  | none =>
    refine .same rfl ?_
    simp only [event, exec, complete, hget]
  | some a =>
    have hid := d.keyed id a hget
    have hafter : (event exec d (.complete bus id succeeded now)).after = d.store { a with
        status := if succeeded then .completed else .failed
        updatedAt := now } := by
      simp only [event, exec, complete, hget]
    by_cases heq : id = taskId
    · subst heq
      refine .completed rfl a (if succeeded then .completed else .failed) now hget ?_ ?_
      · cases succeeded <;> simp
      · rw [hafter, get?_store, if_pos hid]
    · refine .same rfl ?_
      rw [hafter, get?_store, if_neg (hid ▸ heq)]
      rfl

theorem slotStep_recycleTimedOut (now : Option ℚ) (clock : ℚ) :
    SlotStep taskId (event exec d (.recycleTimedOut now clock)) := by
  have hafter : (event exec d (.recycleTimedOut now clock)).after.assignments.get? taskId
      = (d.assignments.get? taskId).map fun a => a.recycle (currentTime now clock) :=
    get?_recycleTimedOut now clock
  cases hget : d.assignments.get? taskId with
  | none =>
    refine .same rfl ?_
    rw [hafter, hget]
    exact hget.symm
  | some a =>
    rw [hget] at hafter
    by_cases hout : a.timedOut (currentTime now clock)
    · have hrun := timedOut_iff.mp hout
      refine .recycled rfl ⟨now, clock, a, rfl, hget, hrun⟩ a (currentTime now clock) hget ?_
      rw [hafter, Option.map_some, TaskAssignment.recycle, if_pos hout]
    · refine .same rfl ?_
      rw [hafter, Option.map_some, TaskAssignment.recycle, if_neg hout]
      exact hget.symm

theorem slotStep_exec (call : DispatcherCall) : SlotStep taskId (event exec d call) := by
  cases call with
  | enqueue bus a => exact slotStep_enqueue bus a
  | dispatchNext role now => exact slotStep_dispatchNext role now
  | complete bus id succeeded now => exact slotStep_complete bus id succeeded now
  | recycleTimedOut now clock => exact slotStep_recycleTimedOut now clock

/-! ## The budget along a run -/

/-- What is stored of a task, and all that has happened. -/
structure Budget (taskId : String) (tr : List DispatcherEvent) (d : TaskDispatcher) : Prop where
  absent : d.assignments.get? taskId = none → tr.countP (dispatches taskId) = 0
  count : ∀ a, d.assignments.get? taskId = some a →
    a.attemptCount = tr.countP (dispatches taskId)
  bound : ∀ a, d.assignments.get? taskId = some a → (a.attemptCount : ℤ) ≤ max 1 (a.retryLimit + 1)
  room : ∀ a, d.assignments.get? taskId = some a → a.status = .pending →
    a.attemptCount = 0 ∨ (a.attemptCount : ℤ) ≤ a.retryLimit
  waits : ∀ a, d.assignments.get? taskId = some a → a.status = .pending →
    FollowedBy (dispatches taskId) (Recycles taskId) tr
  separated : Separated (dispatches taskId) (Recycles taskId) tr

variable {tr : List DispatcherEvent}

theorem budget_empty : Budget taskId [] ∅ where
  absent _ := rfl
  count _ h := by cases h
  bound _ h := by cases h
  room _ h := by cases h
  waits _ h := by cases h
  separated := separated_nil

/-- Without a dispatch nobody can be in want of a recycle. -/
theorem followedBy_of_countP_eq_zero (h : tr.countP (dispatches taskId) = 0) :
    FollowedBy (dispatches taskId) (Recycles taskId) tr := by
  intro l₁ e l₂ heq he
  rw [List.countP_eq_zero] at h
  exact absurd he (h e (by simp [heq]))

/-- The budget of a task that is stored. -/
theorem Budget.of_some {a : TaskAssignment} (hget : d.assignments.get? taskId = some a)
    (hcount : a.attemptCount = tr.countP (dispatches taskId))
    (hbound : (a.attemptCount : ℤ) ≤ max 1 (a.retryLimit + 1))
    (hroom : a.status = .pending → a.attemptCount = 0 ∨ (a.attemptCount : ℤ) ≤ a.retryLimit)
    (hwaits : a.status = .pending → FollowedBy (dispatches taskId) (Recycles taskId) tr)
    (hseparated : Separated (dispatches taskId) (Recycles taskId) tr) : Budget taskId tr d := by
  refine ⟨?_, ?_, ?_, ?_, ?_, hseparated⟩ <;> rw [hget]
  · exact fun hnone => by cases hnone
  · rintro _ ⟨⟩
    exact hcount
  · rintro _ ⟨⟩
    exact hbound
  · rintro _ ⟨⟩
    exact hroom
  · rintro _ ⟨⟩
    exact hwaits

theorem Budget.concat {e : DispatcherEvent} (h : Budget taskId tr e.before)
    (hfresh : e.input.Fresh) (hstep : SlotStep taskId e) : Budget taskId (tr ++ [e]) e.after := by
  have hcount : (tr ++ [e]).countP (dispatches taskId)
      = tr.countP (dispatches taskId) + if dispatches taskId e then 1 else 0 := by
    rw [List.countP_append, List.countP_singleton]
  have hnot (hd : dispatches taskId e = false) :
      Separated (dispatches taskId) (Recycles taskId) (tr ++ [e]) :=
    separated_concat.mpr ⟨h.separated, by simp [hd]⟩
  cases hstep with
  | same hd hsame =>
    rw [hd, if_neg Bool.false_ne_true] at hcount
    refine ⟨?_, ?_, ?_, ?_, ?_, hnot hd⟩ <;> rw [hsame]
    · exact fun hb => hcount.trans (h.absent hb)
    · exact fun a hb => (h.count a hb).trans hcount.symm
    · exact h.bound
    · exact h.room
    · exact fun a hb hs => followedBy_concat.mpr ⟨by simp [hd], .inr (h.waits a hb hs)⟩
  | enqueued hd bus a hc hb hafter =>
    rw [hd, if_neg Bool.false_ne_true, h.absent hb] at hcount
    rw [hc] at hfresh
    obtain ⟨-, hzero⟩ := hfresh
    have hbound : (a.attemptCount : ℤ) ≤ max 1 (a.retryLimit + 1) := by
      rw [hzero]
      omega
    exact .of_some hafter (hzero.trans hcount.symm) hbound (fun _ => .inl hzero)
      (fun _ => followedBy_of_countP_eq_zero hcount) (hnot hd)
  | dispatched hd a now hb hs hafter =>
    rw [hd, if_pos rfl, ← h.count a hb] at hcount
    have hroom := h.room a hb hs
    refine .of_some hafter hcount.symm ?_ (fun hp => by cases hp) (fun hp => by cases hp)
      (separated_concat.mpr ⟨h.separated, fun _ => h.waits a hb hs⟩)
    push_cast
    omega
  | completed hd a status now hb hs hafter =>
    rw [hd, if_neg Bool.false_ne_true] at hcount
    exact .of_some hafter ((h.count a hb).trans hcount.symm) (h.bound a hb)
      (fun hp => absurd hp hs) (fun hp => absurd hp hs) (hnot hd)
  | recycled hd hr a now hb hafter =>
    rw [hd, if_neg Bool.false_ne_true] at hcount
    refine .of_some hafter ((h.count a hb).trans hcount.symm) (h.bound a hb) (fun hp => ?_)
      (fun _ => followedBy_concat.mpr ⟨by simp [hd], .inl hr⟩) (hnot hd)
    by_cases hover : (a.attemptCount : ℤ) > a.retryLimit
    · rw [if_pos hover] at hp
      cases hp
    · exact .inr (not_lt.mp hover)

theorem budget_run {calls : List DispatcherCall} (hfresh : ∀ call ∈ calls, call.Fresh) :
    Budget taskId (events exec ∅ calls) (final exec ∅ calls) :=
  history_induct budget_empty fun _ _ call hcall h =>
    h.concat (hfresh call hcall) (slotStep_exec call)

/-- No task is dispatched more often than its retry limit allows; its `attempt_count` is the number
of its dispatches, and each but the first follows on a recycle after its time was over. -/
theorem dispatch_budget (calls : List DispatcherCall) (hfresh : ∀ call ∈ calls, call.Fresh) :
    (∀ taskId a, (final exec ∅ calls).assignments.get? taskId = some a →
      a.attemptCount = (events exec ∅ calls).countP (dispatches taskId)
        ∧ ((events exec ∅ calls).countP (dispatches taskId) : ℤ) ≤ max 1 (a.retryLimit + 1))
    ∧ (∀ taskId, (final exec ∅ calls).assignments.get? taskId = none →
      (events exec ∅ calls).countP (dispatches taskId) = 0)
    ∧ ∀ taskId, Separated (dispatches taskId) (Recycles taskId) (events exec ∅ calls) := by
  refine ⟨fun taskId a ha => ?_, fun taskId => (budget_run hfresh).absent,
    fun taskId => (budget_run hfresh).separated⟩
  have hbudget : Budget taskId _ _ := budget_run hfresh
  have hcount := hbudget.count a ha
  exact ⟨hcount, hcount ▸ hbudget.bound a ha⟩

/-- A task that runs out of time twice. -/
theorem dispatch_budget_two_timeouts :
    let calls := [
      .enqueue none
        { taskId := "t", role := "writer", payload := .null, createdAt := 0, updatedAt := 0 },
      .dispatchNext "writer" 1, .recycleTimedOut (some 40) 2,
      .dispatchNext "writer" 41, .recycleTimedOut none 90, .dispatchNext "writer" 91]
    Separated (dispatches "t") (Recycles "t") (events exec ∅ calls)
      ∧ (events exec ∅ calls).countP (dispatches "t") = 2 := by
  intro calls
  have hfresh : ∀ call ∈ calls, call.Fresh := by simp [calls, DispatcherCall.Fresh]
  exact ⟨(dispatch_budget calls hfresh).2.2 "t", by decide +kernel⟩

end TaskDispatcher

end AgentLearning
