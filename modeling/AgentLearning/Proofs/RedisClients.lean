import AgentLearning.Proofs.QueueRun

/-!
# Clients of one server

Any number of clients call the queue in Redis at once. A `RedisStage` is where a client is in its
call: the command it sends next, with the local variables it has by then. One stage after the
other is what is left of the program of the call (`RedisStage.prog_start`, `prog_step`), so the
commands of all clients can be interleaved stage by stage. A client that stops for good is one
that takes no action any more; it stays in its stage.
-/

namespace AgentLearning

inductive RedisStage
  | enqueueSet (item : TaskItem)
  | enqueueRpush (item : TaskItem)
  | dequeueLpop (queueName workerId : String)
  | dequeueGet (taskId workerId : String)
  | dequeueSet (taskId : String) (item : TaskItem)
  | ackGet (taskId : String)
  | ackDelete (taskId : String) (raw : Json)
  | nackGet (taskId error : String)
  | nackDelete (taskId : String) (item : TaskItem)
  | nackRpushDead (item : TaskItem)
  | nackSet (taskId : String) (item : TaskItem)
  | nackRpush (taskId : String) (item : TaskItem)
  | llen (queueName : String)
  | lrange (queueName : String)
  | done (result : Except PyError QueueResult)

namespace RedisStage

/-- The first command of a call. -/
def start : QueueCall → RedisStage
  | .enqueue item => .enqueueSet { item with status := .pending }
  | .dequeue queueName workerId => .dequeueLpop queueName workerId
  | .ack taskId => .ackGet taskId
  | .nack taskId error => .nackGet taskId error
  | .queueLength queueName => .llen queueName
  | .peekDeadLetter queueName => .lrange queueName

/-- What is left to do once the record to take is decoded. -/
def taking (taskId workerId : String) : Except PyError TaskItem → RedisStage
  | .ok item => .dequeueSet taskId (item.taken workerId)
  | .error e => .done (.error e)

/-- What is left to do once the record to reject is decoded. -/
def rejecting (taskId error : String) : Except PyError TaskItem → RedisStage
  | .ok item =>
    if item.attemptCount ≥ item.maxRetries then .nackDelete taskId (item.rejected error .dead)
    else .nackSet taskId (item.rejected error .pending)
  | .error e => .done (.error e)

/-- Sends one command: the stage after it and the server after it. -/
def step (s : Redis) : RedisStage → RedisStage × Redis
  | .enqueueSet item => (.enqueueRpush item,
      { s with item := Function.update s.item item.taskId (some (taskToDict item)) })
  | .enqueueRpush item => (.done (.ok (.enqueued item)), { s with
      queue := Function.update s.queue item.queueName (s.queue item.queueName ++ [item.taskId]) })
  | .dequeueLpop queueName workerId =>
    (match (s.queue queueName).head? with
      | none => .done (.ok (.dequeued none))
      | some taskId => .dequeueGet taskId workerId,
      { s with queue := Function.update s.queue queueName (s.queue queueName).tail })
  | .dequeueGet taskId workerId =>
    (match s.item taskId with
      | none => .done (.ok (.dequeued none))
      | some raw => taking taskId workerId (dictToTask raw), s)
  | .dequeueSet taskId item => (.done (.ok (.dequeued (some item))),
      { s with item := Function.update s.item taskId (some (taskToDict item)) })
  | .ackGet taskId =>
    (match s.item taskId with
      | none => .done (.ok (.found false))
      | some raw => .ackDelete taskId raw, s)
  | .ackDelete taskId _ =>
    (.done (.ok (.found true)), { s with item := Function.update s.item taskId none })
  | .nackGet taskId error =>
    (match s.item taskId with
      | none => .done (.ok (.found false))
      | some raw => rejecting taskId error (dictToTask raw), s)
  | .nackDelete taskId item =>
    (.nackRpushDead item, { s with item := Function.update s.item taskId none })
  | .nackRpushDead item => (.done (.ok (.found true)), { s with
      dead := Function.update s.dead item.queueName
        (s.dead item.queueName ++ [taskToDict item]) })
  | .nackSet taskId item => (.nackRpush taskId item,
      { s with item := Function.update s.item taskId (some (taskToDict item)) })
  | .nackRpush taskId item => (.done (.ok (.found true)), { s with
      queue := Function.update s.queue item.queueName (s.queue item.queueName ++ [taskId]) })
  | .llen queueName => (.done (.ok (.length (s.queue queueName).length)), s)
  | .lrange queueName => (.done (((s.dead queueName).mapM dictToTask).map .items), s)
  | .done result => (.done result, s)

open Redis in
/-- What is left of the program of a call in this stage. -/
def prog : RedisStage → RedisM QueueResult
  | .enqueueSet item => .enqueued <$> do
      set item.taskId (taskToDict item)
      rpush item.queueName item.taskId
      pure item
  | .enqueueRpush item => .enqueued <$> do
      rpush item.queueName item.taskId
      pure item
  | .dequeueLpop queueName workerId => .dequeued <$> RedisTaskQueue.dequeue queueName workerId
  | .dequeueGet taskId workerId => .dequeued <$> RedisTaskQueue.load taskId workerId
  | .dequeueSet taskId item => .dequeued <$> do
      set taskId (taskToDict item)
      pure (some item)
  | .ackGet taskId => .found <$> RedisTaskQueue.ack taskId
  | .ackDelete taskId _ => .found <$> do
      delete taskId
      pure true
  | .nackGet taskId error => .found <$> RedisTaskQueue.nack taskId error
  | .nackDelete taskId item => .found <$> do
      delete taskId
      rpushDead item.queueName (taskToDict item)
      pure true
  | .nackRpushDead item => .found <$> do
      rpushDead item.queueName (taskToDict item)
      pure true
  | .nackSet taskId item => .found <$> do
      set taskId (taskToDict item)
      rpush item.queueName taskId
      pure true
  | .nackRpush taskId item => .found <$> do
      rpush item.queueName taskId
      pure true
  | .llen queueName => .length <$> RedisTaskQueue.queueLength queueName
  | .lrange queueName => .items <$> RedisTaskQueue.peekDeadLetter queueName
  | .done result => Prog.ofExcept result

def isDone : RedisStage → Bool
  | .done _ => true
  | _ => false

theorem prog_start (c : QueueCall) : (start c).prog = RedisTaskQueue.prog c := by
  cases c <;> rfl

theorem prog_taking (taskId workerId : String) (raw : Json) :
    (taking taskId workerId (dictToTask raw)).prog
      = .dequeued <$> RedisTaskQueue.take taskId workerId raw := by
  simp only [RedisTaskQueue.take]
  rcases dictToTask raw with e | item <;> rfl

theorem prog_rejecting (taskId error : String) (raw : Json) :
    (rejecting taskId error (dictToTask raw)).prog
      = .found <$> RedisTaskQueue.reject taskId error raw := by
  simp only [RedisTaskQueue.reject]
  rcases dictToTask raw with e | item
  · rfl
  · simp only [rejecting, bind, Prog.bind, Prog.ofExcept]
    split_ifs <;> rfl

/-- The command of a stage is the next action of what is left of the program. -/
theorem prog_step (stage : RedisStage) (h : stage.isDone = false) :
    ∃ upd next, stage.prog = .act upd next ∧
      ∀ s, upd () s = (stage.step s).2 ∧ next () s = (stage.step s).1.prog := by
  cases stage with
  | done result => cases h
  | dequeueLpop queueName workerId =>
    refine ⟨_, _, rfl, fun s => ⟨rfl, ?_⟩⟩
    simp only [step]
    rcases (s.queue queueName).head? with _ | taskId <;> rfl
  | dequeueGet taskId workerId =>
    refine ⟨_, _, rfl, fun s => ⟨rfl, ?_⟩⟩
    simp only [step]
    rcases s.item taskId with _ | raw
    · rfl
    · exact (prog_taking taskId workerId raw).symm
  | ackGet taskId =>
    refine ⟨_, _, rfl, fun s => ⟨rfl, ?_⟩⟩
    simp only [step]
    rcases s.item taskId with _ | raw <;> rfl
  | nackGet taskId error =>
    refine ⟨_, _, rfl, fun s => ⟨rfl, ?_⟩⟩
    simp only [step]
    rcases s.item taskId with _ | raw
    · rfl
    · exact (prog_rejecting taskId error raw).symm
  | lrange queueName =>
    refine ⟨_, _, rfl, fun s => ⟨rfl, ?_⟩⟩
    simp only [step, Prog.bind]
    rcases (s.dead queueName).mapM dictToTask with e | items <;> rfl
  | _ => exact ⟨_, _, rfl, fun s => ⟨rfl, rfl⟩⟩

end RedisStage

/-- The server, where each client is in its call, and the ledger of the tasks: a task is in it from
the start of its `enqueue`, in a client's hands from the return of a `dequeue` to the start of an
`ack` or `nack`, and acked from the command that deletes its record. -/
structure Clients (C : Type) where
  redis : Redis := {}
  busy : C → Option RedisStage := fun _ => none
  ledger : QueueLedger C := {}

/-- What a client does next: call an operation, send the next command of its call, or return. -/
inductive ClientAction (C : Type)
  | start (client : C) (call : QueueCall)
  | command (client : C)
  | finish (client : C)

namespace Clients

variable {C : Type} [DecidableEq C] (s : Clients C)

/-- What the start of a call changes in the ledger. -/
def begun (client : C) : QueueCall → QueueLedger C
  | .enqueue item => s.ledger.record (.enqueued item)
  | .ack taskId => s.ledger.release client taskId
  | .nack taskId _ => s.ledger.release client taskId
  | _ => s.ledger

/-- What a command changes in the ledger. -/
def sent (client : C) : RedisStage → QueueLedger C
  | .ackDelete _ raw =>
    match dictToTask raw with
    | .ok item => s.ledger.record (.acked client item)
    | .error _ => s.ledger
  | _ => s.ledger

/-- What the return of a call changes in the ledger. -/
def returned (client : C) : Except PyError QueueResult → QueueLedger C
  | .ok (.dequeued (some item)) =>
    (s.ledger.give client item).record (.dequeued client item.queueName item)
  | _ => s.ledger

/-- New tasks have new ids, and only the client whose `dequeue` returned a task acks or nacks it,
once. -/
def allows (client : C) : QueueCall → Bool
  | .enqueue item => item.taskId ∉ s.ledger.taskIds
  | .ack taskId => (s.ledger.held client taskId).isSome
  | .nack taskId _ => (s.ledger.held client taskId).isSome
  | _ => true

def setBusy (client : C) (stage : Option RedisStage) : C → Option RedisStage :=
  Function.update s.busy client stage

def step : ClientAction C → Option (Clients C)
  | .start client call =>
    match s.busy client with
    | some _ => none
    | none =>
      if s.allows client call then
        some { s with
          busy := s.setBusy client (some (.start call))
          ledger := s.begun client call }
      else none
  | .command client =>
    match s.busy client with
    | none => none
    | some (.done _) => none
    | some stage =>
      some { redis := (stage.step s.redis).2
             busy := s.setBusy client (some (stage.step s.redis).1)
             ledger := s.sent client stage }
  | .finish client =>
    match s.busy client with
    | some (.done result) =>
      some { s with busy := s.setBusy client none, ledger := s.returned client result }
    | _ => none

/-- Takes the actions one after the other; `none` if one of them is not enabled. -/
def run : Clients C → List (ClientAction C) → Option (Clients C)
  | s, [] => some s
  | s, action :: actions =>
    match s.step action with
    | some s' => run s' actions
    | none => none

end Clients

end AgentLearning
