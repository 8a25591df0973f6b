import Mathlib.Data.List.Sort
import AgentLearning.MessageBus

/-!
# The task dispatcher

`src/multi_agent/dispatcher.py`: assignments wait for an agent of their role, run, and go back to
the waiting ones when they take too long. The dispatcher may have a message bus; a call is given
what the bus does with what it publishes.
-/

namespace AgentLearning

inductive AssignmentStatus
  | pending
  | running
  | completed
  | failed
  deriving DecidableEq, Repr

structure TaskAssignment where
  taskId : String
  role : String
  payload : Json
  timeoutSeconds : ℚ := 30
  retryLimit : ℤ := 1
  status : AssignmentStatus := .pending
  attemptCount : ℕ := 0
  createdAt : ℚ
  updatedAt : ℚ

namespace TaskAssignment

variable (assignment : TaskAssignment) (currentTime : ℚ)

/-- It runs, and its time is over. -/
def timedOut : Bool :=
  assignment.status = .running
    ∧ assignment.timeoutSeconds ≤ currentTime - assignment.updatedAt

/-- What the loop of `recycle_timed_out` does to an assignment. -/
def recycle : TaskAssignment :=
  if assignment.timedOut currentTime then
    { assignment with
      status := if assignment.attemptCount > assignment.retryLimit then .failed else .pending
      updatedAt := currentTime }
  else assignment

end TaskAssignment

structure TaskDispatcher where
  assignments : Dict String TaskAssignment := ∅
  keyed : ∀ k a, assignments.get? k = some a → a.taskId = k := by simp

namespace TaskDispatcher

instance : EmptyCollection TaskDispatcher := ⟨{}⟩

variable (d : TaskDispatcher)

/-- An assignment in place of the one with its id. -/
def store (assignment : TaskAssignment) : TaskDispatcher where
  assignments := d.assignments.set assignment.taskId assignment
  keyed := Dict.keyed_set d.keyed assignment

/-- What `publish` raises; nothing is published without a bus. -/
def broadcast (bus : Option (Publication → Except PyError Unit)) (publication : Publication) :
    Except PyError Unit :=
  match bus with
  | none => .ok ()
  | some publish => publish publication

def enqueue (bus : Option (Publication → Except PyError Unit)) (assignment : TaskAssignment) :
    Except PyError TaskAssignment × TaskDispatcher :=
  if (d.assignments.get? assignment.taskId).isSome then
    (.error (.valueError s!"task '{assignment.taskId}' already exists"), d)
  else
    ((broadcast bus {
        topic := s!"task.assigned.{assignment.role}"
        payload := .obj [("task_id", .str assignment.taskId), ("role", .str assignment.role)]
        senderId := "dispatcher" }).map fun _ => assignment,
      d.store assignment)

/-- What waits for an agent of the role, the oldest first. -/
def candidates (role : String) : List TaskAssignment :=
  (d.assignments.values.filter fun a => a.role = role ∧ a.status = .pending).insertionSort
    fun a b => a.createdAt ≤ b.createdAt

def dispatchNext (role : String) (now : ℚ) : Option TaskAssignment × TaskDispatcher :=
  match d.candidates role with
  | [] => (none, d)
  | assignment :: _ =>
    let assignment := { assignment with
      status := .running
      attemptCount := assignment.attemptCount + 1
      updatedAt := now }
    (some assignment, d.store assignment)

def complete (bus : Option (Publication → Except PyError Unit)) (taskId : String)
    (succeeded : Bool) (now : ℚ) : Except PyError TaskAssignment × TaskDispatcher :=
  match d.assignments.get? taskId with
  | none => (.error (.valueError s!"task '{taskId}' not found"), d)
  | some assignment =>
    let assignment := { assignment with
      status := if succeeded then .completed else .failed
      updatedAt := now }
    ((broadcast bus {
        topic := "task.completed"
        payload := .obj [("task_id", .str taskId), ("succeeded", .bool succeeded)]
        senderId := "dispatcher" }).map fun _ => assignment,
      d.store assignment)

/-- `now or time.time()`. -/
def currentTime (now : Option ℚ) (clock : ℚ) : ℚ :=
  match now with
  | none => clock
  | some now => if now = 0 then clock else now

/-- The assignments that wait again come back, in the order of the dictionary. -/
def recycleTimedOut (now : Option ℚ) (clock : ℚ) : List TaskAssignment × TaskDispatcher :=
  let t := currentTime now clock
  (((d.assignments.values.filter fun a => a.timedOut t).map fun a => a.recycle t).filter
      fun a => a.status = .pending,
    { assignments := d.assignments.mapValues fun a => a.recycle t
      keyed := by
        intro k a h
        rw [Dict.get?_mapValues, Option.map_eq_some_iff] at h
        obtain ⟨a, h, rfl⟩ := h
        rw [← d.keyed k a h, TaskAssignment.recycle]
        split_ifs <;> rfl })

end TaskDispatcher

end AgentLearning
