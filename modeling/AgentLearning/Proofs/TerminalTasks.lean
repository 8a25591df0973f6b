import AgentLearning.Proofs.DispatchBudget

/-!
# Terminal tasks

`dispatch_next` takes up pending tasks only and `recycle_timed_out` running ones only. `complete`
writes the status of any task there is, so it is the one call that takes a task out of a terminal
status, and it does so exactly when it comes for a task that does not run.
-/

namespace AgentLearning

namespace AssignmentStatus

def Terminal (status : AssignmentStatus) : Prop := status = .completed ∨ status = .failed

/-- What `complete` makes of a status. -/
def outcome (succeeded : Bool) : AssignmentStatus := if succeeded then .completed else .failed

theorem Terminal.ne_pending {status : AssignmentStatus} (h : status.Terminal) :
    status ≠ .pending := by
  rcases h with rfl | rfl <;> simp

theorem Terminal.ne_running {status : AssignmentStatus} (h : status.Terminal) :
    status ≠ .running := by
  rcases h with rfl | rfl <;> simp

theorem terminal_outcome (succeeded : Bool) : (outcome succeeded).Terminal := by
  cases succeeded
  · exact .inr rfl
  · exact .inl rfl

end AssignmentStatus

namespace TaskDispatcher

open Trace AssignmentStatus

variable {d : TaskDispatcher} {taskId : String} {a : TaskAssignment}

theorem get?_complete (hget : d.assignments.get? taskId = some a)
    (bus : Option (Publication → Except PyError Unit)) (succeeded : Bool) (now : ℚ) :
    (d.complete bus taskId succeeded now).2.assignments.get? taskId
      = some { a with status := outcome succeeded, updatedAt := now } := by
  simp only [complete, hget, get?_store, if_pos (d.keyed taskId a hget)]
  rfl

theorem get?_complete_ne {id : String} (hne : id ≠ taskId)
    (bus : Option (Publication → Except PyError Unit)) (succeeded : Bool) (now : ℚ) :
    (d.complete bus id succeeded now).2.assignments.get? taskId
      = d.assignments.get? taskId := by
  unfold complete
  rcases hget : d.assignments.get? id with _ | b
  · rfl
  · simp only [get?_store, d.keyed id b hget, if_neg hne]

/-- What a single call does to a task in a terminal status. -/
theorem status_exec (hget : d.assignments.get? taskId = some a) (hterminal : a.status.Terminal)
    {call : DispatcherCall}
    (hcall : ∀ bus succeeded now, call = .complete bus taskId succeeded now →
      a.status = outcome succeeded) :
    ∃ a', (exec d call).2.assignments.get? taskId = some a' ∧ a'.status = a.status := by
  cases call with
  | enqueue bus b =>
    refine ⟨a, ?_, rfl⟩
    simp only [exec]
    rw [get?_enqueue, if_neg (by simp [hget]), hget]
  | dispatchNext role now =>
    refine ⟨a, ?_, rfl⟩
    simp only [exec]
    rcases hnext : (d.dispatchNext role now).1 with _ | b
    · rw [dispatchNext_none hnext, hget]
    · obtain ⟨c, hc, -, hstatus, rfl, hstore⟩ := dispatchNext_some hnext
      have hne : c.taskId ≠ taskId := by
        rintro rfl
        rw [hget] at hc
        exact hterminal.ne_pending (Option.some.inj hc ▸ hstatus)
      rw [hstore, get?_store, if_neg hne, hget]
  | complete bus id succeeded now =>
    by_cases hid : id = taskId
    · subst hid
      exact ⟨_, get?_complete hget bus succeeded now, (hcall bus succeeded now rfl).symm⟩
    · exact ⟨a, (get?_complete_ne hid bus succeeded now).trans hget, rfl⟩
  | recycleTimedOut now clock =>
    refine ⟨a, ?_, rfl⟩
    have hout : ¬ a.timedOut (currentTime now clock) := fun h =>
      hterminal.ne_running (timedOut_iff.mp h).1
    simp only [exec, get?_recycleTimedOut, hget, Option.map_some, TaskAssignment.recycle,
      if_neg hout]

/-- A `complete` comes for a task that runs, or says of it what is stored already. -/
def Timely (e : DispatcherEvent) : Prop :=
  ∀ bus taskId succeeded now a, e.input = .complete bus taskId succeeded now →
    e.before.assignments.get? taskId = some a →
      a.status = .running ∨ (a.status = outcome succeeded ∧ a.updatedAt = now)

theorem status_run {calls : List DispatcherCall} (hget : d.assignments.get? taskId = some a)
    (hterminal : a.status.Terminal) (htimely : ∀ e ∈ events exec d calls, Timely e) :
    ∃ a', (final exec d calls).assignments.get? taskId = some a' ∧ a'.status = a.status := by
  refine final_induct_events
    (P := fun d : TaskDispatcher =>
      ∃ a', d.assignments.get? taskId = some a' ∧ a'.status = a.status) ⟨a, hget, rfl⟩ ?_
  rintro e he d call rfl ⟨b, hb, hstatus⟩
  rw [← hstatus] at hterminal ⊢
  exact status_exec hb hterminal fun bus succeeded now heq =>
    ((htimely _ he bus taskId succeeded now b heq hb).resolve_left hterminal.ne_running).1

/-- A terminal status stays, and a `complete` changes only what runs, exactly in the runs in which
every `complete` is timely. -/
theorem terminal_iff (d : TaskDispatcher) (calls : List DispatcherCall) :
    (∀ l₁ l₂ l₃, calls = l₁ ++ l₂ ++ l₃ → ∀ taskId a,
        (final exec d l₁).assignments.get? taskId = some a → a.status.Terminal →
        ∃ a', (final exec d (l₁ ++ l₂)).assignments.get? taskId = some a'
          ∧ a'.status = a.status)
      ∧ (∀ e ∈ events exec d calls, ∀ bus taskId succeeded now a,
        e.input = .complete bus taskId succeeded now →
        e.before.assignments.get? taskId = some a →
        e.after.assignments.get? taskId ≠ some a → a.status = .running)
    ↔ ∀ e ∈ events exec d calls, Timely e := by
  constructor
  · rintro ⟨-, hrunning⟩ e he bus taskId succeeded now a hinput hget
    by_cases hafter : e.after.assignments.get? taskId = some a
    · obtain ⟨l₁, call, l₂, rfl, rfl⟩ := exists_of_mem_events he
      subst hinput
      have hcomplete := get?_complete hget bus succeeded now
      have hsame := Option.some.inj (hcomplete.symm.trans hafter)
      refine .inr ⟨?_, ?_⟩ <;> rw [← hsame]
    · exact .inl (hrunning e he bus taskId succeeded now a hinput hget hafter)
  · intro htimely
    refine ⟨?_, ?_⟩
    · rintro l₁ l₂ l₃ rfl taskId a hget hterminal
      rw [final_append]
      refine status_run hget hterminal fun e he => htimely e ?_
      rw [events_append, events_append]
      exact List.mem_append_left _ (List.mem_append_right _ he)
    · intro e he bus taskId succeeded now a hinput hget hafter
      refine (htimely e he bus taskId succeeded now a hinput hget).resolve_right ?_
      rintro ⟨hstatus, htime⟩
      obtain ⟨l₁, call, l₂, rfl, rfl⟩ := exists_of_mem_events he
      subst hinput
      refine hafter ((get?_complete hget bus succeeded now).trans ?_)
      rw [← hstatus, ← htime]

/-- A task that has failed for lack of time is completed by its late worker. -/
theorem failed_then_completed :
    let calls := [
      .enqueue none
        { taskId := "t", role := "writer", payload := .null, retryLimit := 0, createdAt := 0
          updatedAt := 0 },
      .dispatchNext "writer" 1, .recycleTimedOut none 40]
    ((final exec ∅ calls).assignments.get? "t").map TaskAssignment.status = some .failed
      ∧ ((final exec ∅ (calls ++ [.complete none "t" true 41])).assignments.get? "t").map
          TaskAssignment.status = some .completed := by
  decide +kernel

end TaskDispatcher

end AgentLearning
