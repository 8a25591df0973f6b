import Mathlib.Logic.Function.Basic
import AgentLearning.Lib.Prog
import AgentLearning.TaskQueue

/-!
# The queue in Redis

The queue of `src/scheduler/redis_queue.py`: every operation is a sequence of Redis commands, each
atomic, and other clients can come between any two of them. The text a record is stored as is
represented by the document `json.dumps` was given, which `json.loads` reads back.
-/

namespace AgentLearning

def taskToDict (item : TaskItem) : Json :=
  .obj
    [("task_id", .str item.taskId),
     ("queue_name", .str item.queueName),
     ("payload", item.payload),
     ("priority", .int item.priority),
     ("created_at", .float item.createdAt),
     ("status", .str item.status.str),
     ("attempt_count", .int item.attemptCount),
     ("max_retries", .int item.maxRetries),
     ("processing_timeout", .float item.processingTimeout),
     ("last_error", item.lastError.elim .null .str),
     ("worker_id", item.workerId.elim .null .str)]

namespace DictToTask

variable (data : Json) (name : String)

def field : Except PyError Json :=
  match data with
  | .obj fields =>
    match getEntry name fields with
    | some value => .ok value
    | none => .error (.typeError s!"TaskItem.__init__() missing 1 required argument: {name}")
  | _ => .error (.typeError "argument after ** must be a mapping")

/-- The field is not of the kind its annotation says. -/
def illTyped {α : Type} : Except PyError α := .error (.typeError s!"ill-typed field: {name}")

def str : Except PyError String := do
  match ← field data name with
  | .str s => pure s
  | _ => illTyped name

def int : Except PyError ℤ := do
  match ← field data name with
  | .int n => pure n
  | _ => illTyped name

def float : Except PyError ℚ := do
  match ← field data name with
  | .float q => pure q
  | _ => illTyped name

def optionalStr : Except PyError (Option String) := do
  match ← field data name with
  | .null => pure none
  | .str s => pure (some s)
  | _ => illTyped name

def status : Except PyError TaskStatus := do
  match ← str data name with
  | "pending" => pure .pending
  | "processing" => pure .processing
  | "completed" => pure .completed
  | "dead" => pure .dead
  | _ => illTyped name

end DictToTask

open DictToTask in
/-- `TaskItem(**data)`. A field that has a default is not optional here: every document that is
stored has them all. -/
def dictToTask (data : Json) : Except PyError TaskItem := do
  pure
    { taskId := ← str data "task_id"
      queueName := ← str data "queue_name"
      payload := ← field data "payload"
      priority := ← int data "priority"
      createdAt := ← float data "created_at"
      status := ← status data "status"
      attemptCount := ← int data "attempt_count"
      maxRetries := ← int data "max_retries"
      processingTimeout := ← float data "processing_timeout"
      lastError := ← optionalStr data "last_error"
      workerId := ← optionalStr data "worker_id" }

/-- The keys the queue uses. -/
inductive RedisKey
  | queue (queueName : String)
  | item (taskId : String)
  | dead (queueName : String)
  deriving DecidableEq

def RedisKey.text : RedisKey → String
  | .queue queueName => "tq:queue:" ++ queueName
  | .item taskId => "tq:item:" ++ taskId
  | .dead queueName => "tq:dead:" ++ queueName

/-- What the server has under the keys of each prefix; no two keys have the same text
(`RedisKey.text_injective`), so the prefixes can be kept apart. A list that is not there is
empty. -/
structure Redis where
  queue : String → List String := fun _ => []
  item : String → Option Json := fun _ => none
  dead : String → List Json := fun _ => []

/-- A client's program; it takes nothing from outside but what the server answers. -/
abbrev RedisM := Prog Unit Redis PyError

namespace Redis

/-! ## Commands -/

def set (taskId : String) (doc : Json) : RedisM Unit :=
  .atomic fun s => .ok ((), { s with item := Function.update s.item taskId (some doc) })

def get (taskId : String) : RedisM (Option Json) := .atomic fun s => .ok (s.item taskId, s)

def delete (taskId : String) : RedisM Unit :=
  .atomic fun s => .ok ((), { s with item := Function.update s.item taskId none })

def rpush (queueName taskId : String) : RedisM Unit :=
  .atomic fun s => .ok ((), { s with
    queue := Function.update s.queue queueName (s.queue queueName ++ [taskId]) })

def lpop (queueName : String) : RedisM (Option String) :=
  .atomic fun s => .ok ((s.queue queueName).head?, { s with
    queue := Function.update s.queue queueName (s.queue queueName).tail })

def rpushDead (queueName : String) (doc : Json) : RedisM Unit :=
  .atomic fun s => .ok ((), { s with
    dead := Function.update s.dead queueName (s.dead queueName ++ [doc]) })

def lrangeDead (queueName : String) : RedisM (List Json) :=
  .atomic fun s => .ok (s.dead queueName, s)

def llen (queueName : String) : RedisM ℕ := .atomic fun s => .ok ((s.queue queueName).length, s)

end Redis

namespace RedisTaskQueue

open Redis

def enqueue (item : TaskItem) : RedisM TaskItem := do
  let item := { item with status := .pending }
  set item.taskId (taskToDict item)
  rpush item.queueName item.taskId
  pure item

/-- `dequeue` after the id was read. -/
def take (taskId workerId : String) (raw : Json) : RedisM (Option TaskItem) := do
  let item ← Prog.ofExcept (dictToTask raw)
  set taskId (taskToDict (item.taken workerId))
  pure (some (item.taken workerId))

/-- `dequeue` after an id was popped. -/
def load (taskId workerId : String) : RedisM (Option TaskItem) := do
  match ← get taskId with
  | none => pure none
  | some raw => take taskId workerId raw

def dequeue (queueName workerId : String) : RedisM (Option TaskItem) := do
  match ← lpop queueName with
  | none => pure none
  | some taskId => load taskId workerId

def ack (taskId : String) : RedisM Bool := do
  match ← get taskId with
  | none => pure false
  | some _ => do
    delete taskId
    pure true

/-- `nack` after the record was read. -/
def reject (taskId error : String) (raw : Json) : RedisM Bool := do
  let item ← Prog.ofExcept (dictToTask raw)
  if item.attemptCount ≥ item.maxRetries then do
    delete taskId
    rpushDead item.queueName (taskToDict (item.rejected error .dead))
    pure true
  else do
    set taskId (taskToDict (item.rejected error .pending))
    rpush item.queueName taskId
    pure true

def nack (taskId error : String) : RedisM Bool := do
  match ← get taskId with
  | none => pure false
  | some raw => reject taskId error raw

def peekDeadLetter (queueName : String) : RedisM (List TaskItem) := do
  Prog.ofExcept ((← lrangeDead queueName).mapM dictToTask)

def queueLength (queueName : String) : RedisM ℕ := llen queueName

/-- The program of a call. -/
def prog : QueueCall → RedisM QueueResult
  | .enqueue item => .enqueued <$> enqueue item
  | .dequeue queueName workerId => .dequeued <$> dequeue queueName workerId
  | .ack taskId => .found <$> ack taskId
  | .nack taskId error => .found <$> nack taskId error
  | .queueLength queueName => .length <$> queueLength queueName
  | .peekDeadLetter queueName => .items <$> peekDeadLetter queueName

/-- A call with no other client in between. -/
def call (s : Redis) (c : QueueCall) : Except PyError QueueResult × Redis := (prog c).run () s

end RedisTaskQueue

end AgentLearning
