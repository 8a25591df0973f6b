import AgentLearning.RedisQueue

/-!
# What the queues are

A `Pool` says what either queue is: ids in line, a record for an id, and the dead letters. Both
implementations do to it what a call does (`inMemory_implements`, `redis_implements`); they differ
only in what `dequeue` answers for an id in line that has no record (`Pool.answer`).

Every id in line has a record as long as no call takes the record of one that is still in line
(`Pool.Spares`). Then a `dequeue` returns a task exactly if the queue has a length. A call that
does take such a record leaves an id that some `dequeue` finds later (`honest_iff_spares`).
-/

namespace AgentLearning

open Function (update)

structure Pool where
  queue : String → List String := fun _ => []
  item : String → Option TaskItem := fun _ => none
  dead : String → List TaskItem := fun _ => []

namespace Pool

variable (p : Pool)

def push (queueName taskId : String) : Pool :=
  { p with queue := update p.queue queueName (p.queue queueName ++ [taskId]) }

def write (taskId : String) (item : Option TaskItem) : Pool :=
  { p with item := update p.item taskId item }

def bury (item : TaskItem) : Pool :=
  { p with dead := update p.dead item.queueName (p.dead item.queueName ++ [item]) }

def pop (queueName : String) : Pool :=
  { p with queue := update p.queue queueName (p.queue queueName).tail }

/-- The pool after a call. -/
def after : QueueCall → Pool
  | .enqueue item =>
    (p.write item.taskId (some { item with status := .pending })).push item.queueName item.taskId
  | .dequeue queueName workerId =>
    match p.queue queueName with
    | [] => p
    | taskId :: _ =>
      match p.item taskId with
      | none => p.pop queueName
      | some item => (p.pop queueName).write taskId (some (item.taken workerId))
  | .ack taskId => p.write taskId none
  | .nack taskId error =>
    match p.item taskId with
    | none => p
    | some item =>
      if item.attemptCount ≥ item.maxRetries then
        (p.write taskId none).bury (item.rejected error .dead)
      else
        (p.write taskId (some (item.rejected error .pending))).push item.queueName taskId
  | .queueLength _ => p
  | .peekDeadLetter _ => p

/-- What a call returns, where `dangling` is what `dequeue` does with an id without a record. -/
def answer (dangling : String → Except PyError (Option TaskItem)) :
    QueueCall → Except PyError QueueResult
  | .enqueue item => .ok (.enqueued { item with status := .pending })
  | .dequeue queueName workerId =>
    match p.queue queueName with
    | [] => .ok (.dequeued none)
    | taskId :: _ =>
      match p.item taskId with
      | none => (dangling taskId).map .dequeued
      | some item => .ok (.dequeued (some (item.taken workerId)))
  | .ack taskId => .ok (.found (p.item taskId).isSome)
  | .nack taskId _ => .ok (.found (p.item taskId).isSome)
  | .queueLength queueName => .ok (.length (p.queue queueName).length)
  | .peekDeadLetter queueName => .ok (.items (p.dead queueName))

@[simp]
theorem queue_push (q id : String) :
    (p.push q id).queue = update p.queue q (p.queue q ++ [id]) := rfl

@[simp]
theorem item_push (q id : String) : (p.push q id).item = p.item := rfl

@[simp]
theorem dead_push (q id : String) : (p.push q id).dead = p.dead := rfl

@[simp]
theorem queue_write (id : String) (item : Option TaskItem) : (p.write id item).queue = p.queue :=
  rfl

@[simp]
theorem item_write (id : String) (item : Option TaskItem) :
    (p.write id item).item = update p.item id item := rfl

@[simp]
theorem dead_write (id : String) (item : Option TaskItem) : (p.write id item).dead = p.dead := rfl

@[simp]
theorem queue_bury (item : TaskItem) : (p.bury item).queue = p.queue := rfl

@[simp]
theorem item_bury (item : TaskItem) : (p.bury item).item = p.item := rfl

@[simp]
theorem dead_bury (item : TaskItem) : (p.bury item).dead
    = update p.dead item.queueName (p.dead item.queueName ++ [item]) := rfl

@[simp]
theorem queue_pop (q : String) : (p.pop q).queue = update p.queue q (p.queue q).tail := rfl

@[simp]
theorem item_pop (q : String) : (p.pop q).item = p.item := rfl

@[simp]
theorem dead_pop (q : String) : (p.pop q).dead = p.dead := rfl

end Pool

/-! ## The two implementations -/

section Implements

variable {σ : Type}

/-- On the states in `I`, the calls do to the pool in view what the pool's calls do. -/
structure Implements (call : σ → QueueCall → Except PyError QueueResult × σ) (view : σ → Pool)
    (I : σ → Prop) (dangling : String → Except PyError (Option TaskItem)) : Prop where
  answer : ∀ s c, I s → (call s c).1 = (view s).answer dangling c
  after : ∀ s c, I s → view (call s c).2 = (view s).after c
  inv : ∀ s c, I s → I (call s c).2

end Implements

def InMemoryTaskQueue.view (s : InMemoryTaskQueue) : Pool where
  queue := s.waiting
  item := s.items.get?
  dead := s.dead

namespace InMemoryTaskQueue

variable (s : InMemoryTaskQueue)

theorem view_enqueue (item : TaskItem) :
    (s.enqueue item).2.view = s.view.after (.enqueue item) := by
  simp only [view, enqueue, append, Pool.after, Pool.push, Pool.write, Pool.mk.injEq]
  exact ⟨Dict.getD_get?_set .., Dict.get?_set_eq .., rfl⟩

theorem dequeue_answer (q w : String) : (s.dequeue q w).1.map .dequeued
    = s.view.answer (fun id => .error (.keyError id)) (.dequeue q w) := by
  simp only [dequeue, Pool.answer, view]
  rcases s.waiting q with _ | ⟨id, rest⟩
  · rfl
  · rcases h : s.items.get? id with _ | item <;> simp [h, Except.map]

theorem view_dequeue (q w : String) :
    (s.dequeue q w).2.view = s.view.after (.dequeue q w) := by
  simp only [dequeue, Pool.after, view]
  rcases hq : s.waiting q with _ | ⟨id, rest⟩
  · rfl
  · rcases h : s.items.get? id with _ | item
    · simp only [h, Pool.pop, hq, List.tail_cons, Pool.mk.injEq]
      exact ⟨Dict.getD_get?_set .., trivial, rfl⟩
    · simp only [h, Pool.pop, Pool.write, hq, List.tail_cons, Pool.mk.injEq]
      exact ⟨Dict.getD_get?_set .., Dict.get?_set_eq .., rfl⟩

theorem ack_answer (id : String) : .ok (.found (s.ack id).1)
    = s.view.answer (fun id => .error (.keyError id)) (.ack id) := by
  simp only [ack, Pool.answer, view]
  rcases s.items.get? id with _ | item <;> rfl

theorem view_ack (id : String) : (s.ack id).2.view = s.view.after (.ack id) := by
  simp only [ack, Pool.after, Pool.write, view]
  rcases h : s.items.get? id with _ | item
  · simp [← h]
  · simp only [Pool.mk.injEq]
    exact ⟨rfl, Dict.get?_erase_eq .., rfl⟩

theorem nack_answer (id error : String) : .ok (.found (s.nack id error).1)
    = s.view.answer (fun id => .error (.keyError id)) (.nack id error) := by
  simp only [nack, Pool.answer, view]
  rcases s.items.get? id with _ | item
  · rfl
  · simp only []
    split_ifs <;> rfl

theorem view_nack (id error : String) :
    (s.nack id error).2.view = s.view.after (.nack id error) := by
  simp only [nack, Pool.after, view]
  rcases h : s.items.get? id with _ | item
  · rfl
  · simp only []
    split_ifs
    · simp only [Pool.write, Pool.bury, Pool.mk.injEq]
      exact ⟨rfl, Dict.get?_erase_eq .., Dict.getD_get?_set ..⟩
    · simp only [append, Pool.push, Pool.write, Pool.mk.injEq]
      exact ⟨Dict.getD_get?_set .., Dict.get?_set_eq .., rfl⟩

end InMemoryTaskQueue

open InMemoryTaskQueue in
theorem inMemory_implements : Implements InMemoryTaskQueue.call InMemoryTaskQueue.view
    (fun _ => True) (fun id => .error (.keyError id)) where
  answer s c _ := by
    cases c with
    | enqueue item => rfl
    | dequeue q w => exact dequeue_answer s q w
    | ack id => exact ack_answer s id
    | nack id error => exact nack_answer s id error
    | queueLength q => rfl
    | peekDeadLetter q => rfl
  after s c _ := by
    cases c with
    | enqueue item => exact view_enqueue s item
    | dequeue q w => exact view_dequeue s q w
    | ack id => exact view_ack s id
    | nack id error => exact view_nack s id error
    | queueLength q => rfl
    | peekDeadLetter q => rfl
  inv _ _ _ := trivial

theorem dictToTask_taskToDict (item : TaskItem) : dictToTask (taskToDict item) = .ok item := by
  obtain ⟨_, _, _, _, _, status, _, _, _, lastError, workerId⟩ := item
  cases status <;> cases lastError <;> cases workerId <;> rfl

theorem RedisKey.text_injective : Function.Injective RedisKey.text := by
  have hcancel : ∀ a b c : String, a ++ b = a ++ c → b = c := fun a b c h => by
    have := congrArg String.toList h
    rw [String.toList_append, String.toList_append] at this
    exact String.toList_inj.mp (List.append_cancel_left this)
  rintro (a | a | a) (b | b | b) h <;> simp only [text] at h
  all_goals first
    | rw [hcancel _ _ _ h]
    | simpa [String.toList_append] using congrArg (fun t => t.toList.take 9) h

namespace RedisTaskQueue

/-- The records and dead letters a server has. -/
def view (s : Redis) : Pool where
  queue := s.queue
  item id := (s.item id).bind fun raw => (dictToTask raw).toOption
  dead q := (s.dead q).filterMap fun raw => (dictToTask raw).toOption

/-- The pool as the server stores it. -/
def encode (p : Pool) : Redis where
  queue := p.queue
  item := Option.map taskToDict ∘ p.item
  dead := List.map taskToDict ∘ p.dead

theorem view_encode (p : Pool) : view (encode p) = p := by
  have hitem : ∀ item : Option TaskItem,
      (item.map taskToDict).bind (fun raw => (dictToTask raw).toOption) = item := by
    intro item
    cases item <;> simp [dictToTask_taskToDict, Except.toOption]
  have hdead : ∀ l : List TaskItem,
      (l.map taskToDict).filterMap (fun raw => (dictToTask raw).toOption) = l := by
    intro l
    simp [List.filterMap_map, dictToTask_taskToDict, Except.toOption]
  simp [view, encode, hitem, hdead]

theorem mapM_dictToTask (items : List TaskItem) :
    (items.map taskToDict).mapM dictToTask = .ok items := by
  induction items with
  | nil => rfl
  | cons item items ih => simp [dictToTask_taskToDict, ih, bind, Except.bind, pure, Except.pure]

/-! ### The commands -/

section Commands

variable (p : Pool)

@[simp]
theorem encode_item (id : String) : (encode p).item id = (p.item id).map taskToDict := rfl

@[simp]
theorem encode_queue (q : String) : (encode p).queue q = p.queue q := rfl

@[simp]
theorem encode_dead (q : String) : (encode p).dead q = (p.dead q).map taskToDict := rfl

theorem encode_write (id : String) (item : Option TaskItem) : encode (p.write id item)
    = { encode p with item := Function.update (encode p).item id (item.map taskToDict) } := by
  simp [encode, Pool.write, Function.comp_update]

theorem encode_bury (item : TaskItem) : encode (p.bury item)
    = { encode p with
        dead := Function.update (encode p).dead item.queueName
          ((encode p).dead item.queueName ++ [taskToDict item]) } := by
  simp [encode, Pool.bury, Function.comp_update]

@[simp]
theorem run_set (id : String) (item : TaskItem) :
    (Redis.set id (taskToDict item)).run () (encode p)
      = (.ok (), encode (p.write id (some item))) := by
  simp [Redis.set, encode_write]

@[simp]
theorem run_get (id : String) : (Redis.get id).run () (encode p)
    = (.ok ((p.item id).map taskToDict), encode p) := by
  simp [Redis.get]

@[simp]
theorem run_delete (id : String) :
    (Redis.delete id).run () (encode p) = (.ok (), encode (p.write id none)) := by
  simp [Redis.delete, encode_write]

@[simp]
theorem run_rpush (q id : String) :
    (Redis.rpush q id).run () (encode p) = (.ok (), encode (p.push q id)) := rfl

@[simp]
theorem run_lpop (q : String) :
    (Redis.lpop q).run () (encode p) = (.ok (p.queue q).head?, encode (p.pop q)) := rfl

@[simp]
theorem run_rpushDead (item : TaskItem) :
    (Redis.rpushDead item.queueName (taskToDict item)).run () (encode p)
      = (.ok (), encode (p.bury item)) := by
  simp [Redis.rpushDead, encode_bury]

theorem run_lrangeDead (q : String) : (Redis.lrangeDead q).run () (encode p)
    = (.ok ((p.dead q).map taskToDict), encode p) := rfl

end Commands

theorem run_dequeue (p : Pool) (q w : String) : (dequeue q w).run () (encode p)
    = match p.queue q with
      | [] => (.ok none, encode p)
      | id :: _ => match p.item id with
        | none => (.ok none, encode (p.pop q))
        | some item => (.ok (some (item.taken w)),
          encode ((p.pop q).write id (some (item.taken w)))) := by
  simp only [dequeue, Prog.run_bind, run_lpop]
  rcases hq : p.queue q with _ | ⟨id, rest⟩
  · have hpop : p.pop q = p := by
      rw [Pool.pop, hq, List.tail_nil, ← hq, Function.update_eq_self]
    simp [hpop]
  · simp only [List.head?_cons, load, Prog.run_bind, run_get, Pool.item_pop]
    rcases hi : p.item id with _ | item
    · simp
    · simp [take, dictToTask_taskToDict]

theorem run_nack (p : Pool) (id error : String) : (nack id error).run () (encode p)
    = (.ok (p.item id).isSome, encode (p.after (.nack id error))) := by
  simp only [nack, Prog.run_bind, run_get, Pool.after]
  rcases hi : p.item id with _ | item
  · simp
  · simp only [Option.map_some, reject, Prog.run_bind, dictToTask_taskToDict, Prog.run_ofExcept]
    split_ifs
    · simp only [Prog.run_bind, run_delete, Prog.run_pure]
      rw [show item.queueName = (item.rejected error .dead).queueName from rfl, run_rpushDead]
      rfl
    · simp

theorem run_ack (p : Pool) (id : String) :
    (ack id).run () (encode p) = (.ok (p.item id).isSome, encode (p.after (.ack id))) := by
  simp only [ack, Prog.run_bind, run_get, Pool.after]
  rcases hi : p.item id with _ | item
  · have hsame : p.write id none = p := by rw [Pool.write, ← hi, Function.update_eq_self]
    simp [hsame]
  · simp

/-- A call of the queue on a pool the server stores. -/
theorem call_encode (p : Pool) (c : QueueCall) : call (encode p) c
    = (p.answer (fun _ => .ok none) c, encode (p.after c)) := by
  cases c with
  | enqueue item => simp [call, prog, enqueue, Pool.answer, Pool.after, Except.map]
  | dequeue q w =>
    simp only [call, prog, Prog.run_map, run_dequeue, Pool.answer, Pool.after]
    rcases p.queue q with _ | ⟨id, rest⟩
    · rfl
    · simp only []
      rcases p.item id with _ | item <;> rfl
  | ack id => simp [call, prog, run_ack, Pool.answer, Except.map]
  | nack id error => simp [call, prog, run_nack, Pool.answer, Except.map]
  | queueLength q => rfl
  | peekDeadLetter q =>
    simp only [call, prog, Prog.run_map, peekDeadLetter, Prog.run_bind, run_lrangeDead,
      Prog.run_ofExcept, mapM_dictToTask]
    rfl

end RedisTaskQueue

theorem redis_implements : Implements RedisTaskQueue.call RedisTaskQueue.view
    (fun s => ∃ p, s = RedisTaskQueue.encode p) (fun _ => .ok none) where
  answer := by
    rintro _ c ⟨p, rfl⟩
    rw [RedisTaskQueue.call_encode, RedisTaskQueue.view_encode]
  after := by
    rintro _ c ⟨p, rfl⟩
    rw [RedisTaskQueue.call_encode, RedisTaskQueue.view_encode, RedisTaskQueue.view_encode]
  inv := by
    rintro _ c ⟨p, rfl⟩
    exact ⟨p.after c, by rw [RedisTaskQueue.call_encode]⟩

/-! ## Every id in line has a record -/

namespace Pool

variable {p : Pool} {c : QueueCall}

def Waiting (p : Pool) (id : String) : Prop := ∃ q, id ∈ p.queue q

/-- The call does not take the record of an id that is in line. -/
def Spares (p : Pool) : QueueCall → Prop
  | .ack id => ¬ p.Waiting id
  | .nack id _ => ∀ item, p.item id = some item → item.attemptCount ≥ item.maxRetries →
    ¬ p.Waiting id
  | _ => True

def Backed (p : Pool) : Prop := ∀ id, p.Waiting id → (p.item id).isSome

theorem Backed.write {id : String} {item : TaskItem} (h : p.Backed) :
    (p.write id (some item)).Backed := by
  intro x hx
  rw [item_write, Function.update_apply]
  split_ifs
  · rfl
  · exact h x hx

theorem Backed.push {q id : String} (h : p.Backed) (hid : (p.item id).isSome) :
    (p.push q id).Backed := by
  rintro x ⟨q', hx⟩
  rw [queue_push, Function.update_apply] at hx
  split_ifs at hx with hq
  · rcases List.mem_append.mp hx with hx | hx
    · exact h x ⟨q, hx⟩
    · rw [List.mem_singleton] at hx
      exact hx ▸ hid
  · exact h x ⟨q', hx⟩

theorem Backed.pop {q : String} (h : p.Backed) : (p.pop q).Backed := by
  rintro x ⟨q', hx⟩
  rw [queue_pop, Function.update_apply] at hx
  split_ifs at hx with hq
  · exact h x ⟨q, List.mem_of_mem_tail hx⟩
  · exact h x ⟨q', hx⟩

theorem Backed.write_none {id : String} (h : p.Backed) (hid : ¬ p.Waiting id) :
    (p.write id none).Backed := by
  intro x hx
  rw [item_write, Function.update_of_ne]
  · exact h x hx
  · rintro rfl
    exact hid hx

theorem Backed.after (h : p.Backed) (hc : p.Spares c) : (p.after c).Backed := by
  cases c with
  | enqueue item => exact h.write.push (by simp)
  | dequeue q w =>
    simp only [Pool.after]
    split
    · exact h
    · split
      · exact h.pop
      · exact h.pop.write
  | ack id => exact h.write_none hc
  | nack id error =>
    simp only [Pool.after]
    split
    · exact h
    · rename_i item hitem
      split_ifs with hexhausted
      · exact h.write_none (hc item hitem hexhausted)
      · exact h.write.push (by simp)
  | queueLength q => exact h
  | peekDeadLetter q => exact h

/-- A call that does not spare an id leaves it in line without a record. -/
theorem dangling_of_not_spares (hc : ¬ p.Spares c) :
    ∃ q id, id ∈ (p.after c).queue q ∧ (p.after c).item id = none := by
  cases c with
  | ack id =>
    obtain ⟨q, hq⟩ := not_not.mp hc
    exact ⟨q, id, hq, by simp [Pool.after]⟩
  | nack id error =>
    simp only [Spares, not_forall, not_not] at hc
    obtain ⟨item, hitem, hexhausted, q, hq⟩ := hc
    refine ⟨q, id, ?_⟩
    simp only [Pool.after, hitem, if_pos hexhausted]
    exact ⟨hq, by simp⟩
  | _ => exact absurd trivial hc

end Pool

section Honest

variable {σ : Type} (call : σ → QueueCall → Except PyError QueueResult × σ)

/-- The states reached by calls that each meet a condition on the state before. -/
inductive Reached (C : σ → QueueCall → Prop) (start : σ) : σ → Prop
  | start : Reached C start start
  | call {s : σ} (c : QueueCall) (h : Reached C start s) (hc : C s c) : Reached C start (call s c).2

/-- A `dequeue` does not raise, and returns a task exactly if the queue has a length. -/
def Honest (s : σ) : Prop :=
  ∀ q w, ∃ item n, (call s (.dequeue q w)).1 = .ok (.dequeued item) ∧
    (call s (.queueLength q)).1 = .ok (.length n) ∧ (item.isSome ↔ 0 < n)

def QueueCall.IsDequeue : QueueCall → Prop
  | .dequeue .. => True
  | _ => False

variable {call} {view : σ → Pool} {I : σ → Prop}
  {dangling : String → Except PyError (Option TaskItem)}

theorem Reached.head {C : σ → QueueCall → Prop} {s s' : σ} {c : QueueCall} (hc : C s c)
    (h : Reached call C (call s c).2 s') : Reached call C s s' := by
  induction h with
  | start => exact .call c .start hc
  | call c' _ hc' ih => exact .call c' ih hc'

theorem Implements.honest (h : Implements call view I dangling) {s : σ} (hs : I s)
    (hb : (view s).Backed) : Honest call s := by
  intro q w
  rw [h.answer s _ hs, h.answer s _ hs]
  simp only [Pool.answer]
  rcases hq : (view s).queue q with _ | ⟨id, rest⟩
  · exact ⟨none, 0, rfl, rfl, by simp⟩
  · obtain ⟨item, hitem⟩ := Option.isSome_iff_exists.mp (hb id ⟨q, by simp [hq]⟩)
    simp only [hitem]
    exact ⟨_, _, rfl, rfl, by simp⟩

/-- An id in line without a record comes to the head after enough calls of `dequeue`. -/
theorem Implements.not_honest (h : Implements call view I dangling)
    (hd : ∀ id item, dangling id ≠ .ok (some item)) {q id : String} {l₂ : List String} :
    ∀ (l₁ : List String) (s : σ), I s → (view s).queue q = l₁ ++ id :: l₂ →
      (view s).item id = none →
      ∃ s', Reached call (fun _ c => c.IsDequeue) s s' ∧ ¬ Honest call s'
  | [], s, hs, hq, hid => by
    refine ⟨s, .start, fun hh => ?_⟩
    obtain ⟨item, n, hdeq, hlen, hiff⟩ := hh q ""
    rw [h.answer s _ hs] at hdeq hlen
    simp only [Pool.answer, hq, List.nil_append, hid, Except.ok.injEq, QueueResult.length.injEq]
      at hdeq hlen
    have hsome : item.isSome := hiff.mpr (by simp [← hlen])
    obtain ⟨task, rfl⟩ := Option.isSome_iff_exists.mp hsome
    rcases he : dangling id with e | r <;> rw [he] at hdeq
    · cases hdeq
    · simp only [Except.map, Except.ok.injEq, QueueResult.dequeued.injEq] at hdeq
      exact hd id task (he.trans (congrArg _ hdeq))
  | x :: l₁, s, hs, hq, hid => by
    have hqueue : (view (call s (.dequeue q "")).2).queue q = l₁ ++ id :: l₂ := by
      rw [h.after s _ hs]
      simp only [Pool.after, hq, List.cons_append]
      split <;> simp [hq]
    have hitem : (view (call s (.dequeue q "")).2).item id = none := by
      rw [h.after s _ hs]
      simp only [Pool.after, hq, List.cons_append]
      split
      · exact hid
      · rename_i item hx
        have hne : id ≠ x := by
          rintro rfl
          rw [hid] at hx
          cases hx
        simp [hne, hid]
    obtain ⟨s', hs', hbad⟩ := Implements.not_honest h hd l₁ _ (h.inv s _ hs) hqueue hitem
    exact ⟨s', hs'.head (c := .dequeue q "") trivial, hbad⟩

/-- Each of the calls spares the ids that are in line by then. -/
def Pool.SparesAll : Pool → List QueueCall → Prop
  | _, [] => True
  | p, c :: calls => p.Spares c ∧ (p.after c).SparesAll calls

/-- Calls that spare what the pool has in line are calls that the queue may get. -/
theorem Implements.reached (h : Implements call view I dangling) {start : σ} :
    ∀ {s : σ} (calls : List QueueCall), Reached call (fun s c => (view s).Spares c) start s →
      I s → (view s).SparesAll calls →
      Reached call (fun s c => (view s).Spares c) start (calls.foldl (fun s c => (call s c).2) s)
  | _, [], hs, _, _ => hs
  | s, c :: calls, hs, hI, hc =>
    h.reached calls (.call c hs hc.1) (h.inv s c hI) (by
      rw [h.after s c hI]
      exact hc.2)

/-- Where every call so far spared the ids in line, the queue is honest, and stays so however it
is emptied exactly if the next call spares them too. -/
theorem Implements.honest_iff_spares (h : Implements call view I dangling)
    (hd : ∀ id item, dangling id ≠ .ok (some item)) {start s : σ} (hstart : I start)
    (hb : (view start).Backed) (hs : Reached call (fun s c => (view s).Spares c) start s) :
    Honest call s ∧ ∀ c, (view s).Spares c ↔
      ∀ s', Reached call (fun _ c => c.IsDequeue) (call s c).2 s' → Honest call s' := by
  have hinv : ∀ {s}, Reached call (fun s c => (view s).Spares c) start s →
      I s ∧ (view s).Backed := by
    intro s hs
    induction hs with
    | start => exact ⟨hstart, hb⟩
    | call c _ hc ih => exact ⟨h.inv _ c ih.1, by rw [h.after _ c ih.1]; exact ih.2.after hc⟩
  obtain ⟨hI, hbacked⟩ := hinv hs
  refine ⟨h.honest hI hbacked, fun c => ⟨fun hc s' hs' => ?_, fun hall => ?_⟩⟩
  · have hreach : Reached call (fun s c => (view s).Spares c) start s' := by
      induction hs' with
      | start => exact .call c hs hc
      | call c' _ hc' ih =>
        refine .call c' ih ?_
        cases c' with
        | dequeue q w => exact trivial
        | _ => exact hc'.elim
    exact h.honest (hinv hreach).1 (hinv hreach).2
  · by_contra hc
    obtain ⟨q, id, hq, hid⟩ := Pool.dangling_of_not_spares hc
    rw [← h.after s c hI] at hq hid
    obtain ⟨l₁, l₂, hl⟩ := List.append_of_mem hq
    obtain ⟨s', hs', hbad⟩ := h.not_honest hd l₁ _ (h.inv s c hI) hl hid
    exact hbad (hall s' hs')

end Honest

theorem backed_empty {p : Pool} (h : ∀ q, p.queue q = []) : p.Backed := by
  rintro id ⟨q, hid⟩
  simp [h] at hid

/-- Both queues are honest as long as no call takes the record of an id that is in line, and after
one that does, some `dequeue` raises or returns nothing though the queue has a length. -/
theorem queues_honest_iff_spares {memory : InMemoryTaskQueue} {redis : Redis}
    (hm : Reached InMemoryTaskQueue.call (fun s c => s.view.Spares c) {} memory)
    (hr : Reached RedisTaskQueue.call (fun s c => (RedisTaskQueue.view s).Spares c) {} redis) :
    (Honest InMemoryTaskQueue.call memory ∧ ∀ c, memory.view.Spares c ↔
      ∀ s', Reached InMemoryTaskQueue.call (fun _ c => c.IsDequeue) (memory.call c).2 s' →
        Honest InMemoryTaskQueue.call s') ∧
    Honest RedisTaskQueue.call redis ∧ ∀ c, (RedisTaskQueue.view redis).Spares c ↔
      ∀ s', Reached RedisTaskQueue.call (fun _ c => c.IsDequeue)
        (RedisTaskQueue.call redis c).2 s' → Honest RedisTaskQueue.call s' :=
  ⟨inMemory_implements.honest_iff_spares (fun _ _ => by simp) trivial
      (backed_empty fun _ => rfl) hm,
    redis_implements.honest_iff_spares (fun _ _ => by simp) ⟨{}, rfl⟩
      (backed_empty fun _ => rfl) hr⟩

/-- A task fails once, is taken again and is done. -/
def retriedCalls : List QueueCall :=
  [.enqueue { taskId := "t", queueName := "q", payload := .null, createdAt := 0, maxRetries := 2 },
   .dequeue "q" "w", .nack "t" "boom", .dequeue "q" "w", .ack "t"]

theorem sparesAll_retriedCalls : ({} : Pool).SparesAll retriedCalls := by
  refine ⟨trivial, trivial, ?_, trivial, ?_, trivial⟩
  · rintro item - - ⟨q, hq⟩
    simp [Pool.after, Pool.pop, Pool.push, Pool.write] at hq
  · rintro ⟨q, hq⟩
    simp [Pool.after, Pool.pop, Pool.push, Pool.write, TaskItem.taken, TaskItem.rejected] at hq

theorem queues_honest_iff_spares_retried :
    Honest InMemoryTaskQueue.call (retriedCalls.foldl (fun s c => (s.call c).2) {}) ∧
      Honest RedisTaskQueue.call
        (retriedCalls.foldl (fun s c => (RedisTaskQueue.call s c).2) ({} : Redis)) := by
  have h := queues_honest_iff_spares
    (inMemory_implements.reached retriedCalls .start trivial sparesAll_retriedCalls)
    (redis_implements.reached retriedCalls .start ⟨{}, rfl⟩ sparesAll_retriedCalls)
  exact ⟨h.1.1, h.2.1⟩

/-- A task is acked while it waits. In memory the next `dequeue` raises; in Redis it returns
nothing though the queue has a length. -/
theorem queues_not_honest_after_ack :
    let calls : List QueueCall :=
      [.enqueue { taskId := "t", queueName := "q", payload := .null, createdAt := 0 }, .ack "t"]
    let memory := calls.foldl (fun s c => (s.call c).2) ({} : InMemoryTaskQueue)
    let redis := calls.foldl (fun s c => (RedisTaskQueue.call s c).2) ({} : Redis)
    (memory.call (.dequeue "q" "")).1 = .error (.keyError "t") ∧
      (memory.call (.queueLength "q")).1 = .ok (.length 1) ∧
      (RedisTaskQueue.call redis (.dequeue "q" "")).1 = .ok (.dequeued none) ∧
      (RedisTaskQueue.call redis (.queueLength "q")).1 = .ok (.length 1) ∧
      ¬ Honest InMemoryTaskQueue.call memory ∧ ¬ Honest RedisTaskQueue.call redis := by
  refine ⟨rfl, rfl, rfl, rfl, fun h => ?_, fun h => ?_⟩
  · obtain ⟨item, n, hdeq, -, -⟩ := h "q" ""
    cases hdeq
  · obtain ⟨item, n, hdeq, hlen, hiff⟩ := h "q" ""
    cases hdeq
    cases hlen
    exact absurd (hiff.mpr (by decide)) (by decide)

end AgentLearning
