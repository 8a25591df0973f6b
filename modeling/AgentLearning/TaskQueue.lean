import AgentLearning.Value

/-!
# Task queues

`src/scheduler/interfaces.py` and the queue of `src/scheduler/in_memory_queue.py`. A queue name has
a list of the ids that wait, and an id has one record, whichever queue it waits in. Every operation
holds the lock from start to end. `close` and the locks of the same files are left out.
-/

namespace AgentLearning

inductive TaskStatus
  | pending
  | processing
  | completed
  | dead
  deriving DecidableEq, Repr

/-- The value of the `status` field. -/
def TaskStatus.str : TaskStatus → String
  | .pending => "pending"
  | .processing => "processing"
  | .completed => "completed"
  | .dead => "dead"

structure TaskItem where
  taskId : String
  queueName : String
  payload : Json
  priority : ℤ := 0
  createdAt : ℚ
  status : TaskStatus := .pending
  attemptCount : ℤ := 0
  maxRetries : ℤ := 3
  processingTimeout : ℚ := 30
  lastError : Option String := none
  workerId : Option String := none

namespace TaskItem

/-- The record as `dequeue` hands it out. -/
def taken (item : TaskItem) (workerId : String) : TaskItem :=
  { item with
    status := .processing
    attemptCount := item.attemptCount + 1
    workerId := some workerId }

/-- The record as `nack` leaves it. -/
def rejected (item : TaskItem) (error : String) (status : TaskStatus) : TaskItem :=
  { item with lastError := some error, status }

end TaskItem

/-- A call on a queue, with its arguments. -/
inductive QueueCall
  | enqueue (item : TaskItem)
  | dequeue (queueName workerId : String)
  | ack (taskId : String)
  | nack (taskId error : String)
  | queueLength (queueName : String)
  | peekDeadLetter (queueName : String)

/-- What a call returns. -/
inductive QueueResult
  | enqueued (item : TaskItem)
  | dequeued (item : Option TaskItem)
  | found (found : Bool)
  | length (length : ℕ)
  | items (items : List TaskItem)

structure InMemoryTaskQueue where
  queues : Dict String (List String) := ∅
  items : Dict String TaskItem := ∅
  deadLetter : Dict String (List TaskItem) := ∅

namespace InMemoryTaskQueue

variable (queue : InMemoryTaskQueue)

/-- `self._queues.get(queue_name, deque())`. -/
def waiting (queueName : String) : List String := (queue.queues.get? queueName).getD []

/-- `self._dead_letter.get(queue_name, [])`. -/
def dead (queueName : String) : List TaskItem := (queue.deadLetter.get? queueName).getD []

/-- `self._queues.setdefault(queue_name, deque()).append(task_id)`. -/
def append (queueName taskId : String) : InMemoryTaskQueue :=
  { queue with queues := queue.queues.set queueName (queue.waiting queueName ++ [taskId]) }

def enqueue (item : TaskItem) : TaskItem × InMemoryTaskQueue :=
  let item := { item with status := .pending }
  let queue := { queue with items := queue.items.set item.taskId item }
  (item, queue.append item.queueName item.taskId)

/-- An id without a record raises, and is popped by then. -/
def dequeue (queueName workerId : String) :
    Except PyError (Option TaskItem) × InMemoryTaskQueue :=
  match queue.waiting queueName with
  | [] => (.ok none, queue)
  | taskId :: rest =>
    let queue := { queue with queues := queue.queues.set queueName rest }
    match queue.items.get? taskId with
    | none => (.error (.keyError taskId), queue)
    | some item =>
      let item := item.taken workerId
      (.ok (some item), { queue with items := queue.items.set taskId item })

def ack (taskId : String) : Bool × InMemoryTaskQueue :=
  match queue.items.get? taskId with
  | none => (false, queue)
  | some _ => (true, { queue with items := queue.items.erase taskId })

def nack (taskId error : String) : Bool × InMemoryTaskQueue :=
  match queue.items.get? taskId with
  | none => (false, queue)
  | some item =>
    if item.attemptCount ≥ item.maxRetries then
      let item := item.rejected error .dead
      (true, { queue with
        items := queue.items.erase taskId
        deadLetter := queue.deadLetter.set item.queueName (queue.dead item.queueName ++ [item]) })
    else
      let item := item.rejected error .pending
      let queue := { queue with items := queue.items.set taskId item }
      (true, queue.append item.queueName taskId)

def peekDeadLetter (queueName : String) : List TaskItem := queue.dead queueName

def queueLength (queueName : String) : ℕ := (queue.waiting queueName).length

def call : QueueCall → Except PyError QueueResult × InMemoryTaskQueue
  | .enqueue item => (.ok (.enqueued (queue.enqueue item).1), (queue.enqueue item).2)
  | .dequeue queueName workerId =>
    ((queue.dequeue queueName workerId).1.map .dequeued, (queue.dequeue queueName workerId).2)
  | .ack taskId => (.ok (.found (queue.ack taskId).1), (queue.ack taskId).2)
  | .nack taskId error => (.ok (.found (queue.nack taskId error).1), (queue.nack taskId error).2)
  | .queueLength queueName => (.ok (.length (queue.queueLength queueName)), queue)
  | .peekDeadLetter queueName => (.ok (.items (queue.peekDeadLetter queueName)), queue)

end InMemoryTaskQueue

end AgentLearning
