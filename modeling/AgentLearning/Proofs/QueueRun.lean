import AgentLearning.Proofs.QueuePool

/-!
# Runs of a queue

Workers call a queue, and a `QueueLedger` keeps who holds what they were given and what happened so
far. A run is disciplined if every enqueued task has an id of its own, and only who holds a task
acks or nacks it. Then every task is in one place at a time (`Located`): a call moves one task and
no other (`Touches`), so what is to be shown of it is shown of the view on one task (`Aspect`).
-/

namespace AgentLearning

inductive QueueEvent (W : Type)
  | enqueued (item : TaskItem)
  | dequeued (worker : W) (queueName : String) (item : TaskItem)
  | acked (worker : W) (item : TaskItem)
  | nacked (worker : W) (item : TaskItem) (error : String)

namespace QueueEvent

variable {W : Type}

def item : QueueEvent W → TaskItem
  | .enqueued item => item
  | .dequeued _ _ item => item
  | .acked _ item => item
  | .nacked _ item _ => item

@[simp]
def task? : QueueEvent W → Option TaskItem
  | .enqueued item => some item
  | _ => none

@[simp]
def acked? : QueueEvent W → Option TaskItem
  | .acked _ item => some item
  | _ => none

@[simp]
def isDequeue : QueueEvent W → Bool
  | .dequeued .. => true
  | _ => false

/-- The id that got in line in this queue. -/
def enters (q : String) : QueueEvent W → Option String
  | .enqueued item => if item.queueName = q then some item.taskId else none
  | .nacked _ item _ =>
    if item.attemptCount < item.maxRetries ∧ item.queueName = q then some item.taskId else none
  | _ => none

/-- The id that was taken out of this queue. -/
def leaves (q : String) : QueueEvent W → Option String
  | .dequeued _ q' item => if q' = q then some item.taskId else none
  | _ => none

/-- The dead letter that a `nack` with no retries left makes. -/
def buried (q : String) : QueueEvent W → Option TaskItem
  | .nacked _ item error =>
    if item.attemptCount ≥ item.maxRetries ∧ item.queueName = q then
      some (item.rejected error .dead) else none
  | _ => none

end QueueEvent

/-- Who holds which task as it was handed out, and the events so far. -/
structure QueueLedger (W : Type) where
  hands : List (W × TaskItem) := []
  log : List (QueueEvent W) := []

namespace QueueLedger

variable {W : Type} [DecidableEq W] (b : QueueLedger W) (w : W) (id : String)

def held : Option TaskItem := (b.hands.find? fun h => h.1 = w ∧ h.2.taskId = id).map Prod.snd

def record (event : QueueEvent W) : QueueLedger W := { b with log := b.log ++ [event] }

def give (item : TaskItem) : QueueLedger W := { b with hands := b.hands ++ [(w, item)] }

def release : QueueLedger W :=
  { b with hands := b.hands.filter fun h => ¬ (h.1 = w ∧ h.2.taskId = id) }

/-- The ledger after a worker's call and what it returned. -/
def note (c : QueueCall) (answer : Except PyError QueueResult) : QueueLedger W :=
  match c with
  | .enqueue item => b.record (.enqueued item)
  | .dequeue queueName _ =>
    match answer with
    | .ok (.dequeued (some item)) => (b.give w item).record (.dequeued w queueName item)
    | _ => b
  | .ack taskId =>
    match b.held w taskId with
    | some item => (b.release w taskId).record (.acked w item)
    | none => b
  | .nack taskId error =>
    match b.held w taskId with
    | some item => (b.release w taskId).record (.nacked w item error)
    | none => b
  | _ => b

/-- The ids of the tasks that were enqueued. -/
def taskIds : List String := (b.log.filterMap QueueEvent.task?).map (·.taskId)

/-- How often a task was taken out of its queue. -/
def dequeues : ℕ := (b.log.filter fun event => event.item.taskId = id).countP QueueEvent.isDequeue

/-- New tasks have new ids, and only the holder of a task acks or nacks it. -/
def Allows (P : TaskItem → Prop) : QueueCall → Prop
  | .enqueue item => item.taskId ∉ b.taskIds ∧ P item
  | .ack taskId => (b.held w taskId).isSome
  | .nack taskId _ => (b.held w taskId).isSome
  | _ => True

end QueueLedger

section Runs

variable {σ W : Type} [DecidableEq W] (call : σ → QueueCall → Except PyError QueueResult × σ)

/-- The state and the ledger after the calls of a list of workers. -/
def runCalls (s : σ) (b : QueueLedger W) : List (W × QueueCall) → σ × QueueLedger W
  | [] => (s, b)
  | (w, c) :: calls => runCalls (call s c).2 (b.note w c (call s c).1) calls

/-- Every call is allowed when it is made. -/
def Disciplined (P : TaskItem → Prop) (s : σ) (b : QueueLedger W) : List (W × QueueCall) → Prop
  | [] => True
  | (w, c) :: calls =>
    b.Allows w P c ∧ Disciplined P (call s c).2 (b.note w c (call s c).1) calls

/-- What the calls return, one after the other. -/
def answers (s : σ) : List QueueCall → List (Except PyError QueueResult)
  | [] => []
  | c :: calls => (call s c).1 :: answers (call s c).2 calls

end Runs

/-! ## One task -/

section Aspect

variable {W : Type}

/-- What the pool and the ledger have of one task. -/
@[ext]
structure Aspect (W : Type) where
  queue : String → ℕ
  item : Option TaskItem
  hands : List (W × TaskItem)
  dead : String → List TaskItem
  log : List (QueueEvent W)

def aspect (p : Pool) (b : QueueLedger W) (id : String) : Aspect W where
  queue q := (p.queue q).count id
  item := p.item id
  hands := b.hands.filter fun h => h.2.taskId = id
  dead q := (p.dead q).filter fun item => item.taskId = id
  log := b.log.filter fun event => event.item.taskId = id

/-- Nothing of the task is anywhere. -/
def Aspect.absent : Aspect W := ⟨fun _ => 0, none, [], fun _ => [], []⟩

/-- Where a task is, with its record. -/
inductive Place (W : Type)
  | waiting (item : TaskItem)
  | held (worker : W) (item : TaskItem)
  | dead (item : TaskItem)
  | acked (item : TaskItem)

namespace Place

@[simp]
def item : Place W → TaskItem
  | .waiting item => item
  | .held _ item => item
  | .dead item => item
  | .acked item => item

/-- How often it is in line in a queue. -/
@[simp]
def inQueue (q : String) : Place W → ℕ
  | .waiting item => if item.queueName = q then 1 else 0
  | _ => 0

@[simp]
def record : Place W → Option TaskItem
  | .waiting item => some item
  | .held _ item => some item
  | _ => none

@[simp]
def inHands : Place W → List (W × TaskItem)
  | .held worker item => [(worker, item)]
  | _ => []

@[simp]
def inDead (q : String) : Place W → List TaskItem
  | .dead item => if item.queueName = q then [item] else []
  | _ => []

@[simp]
def inAcked : Place W → List TaskItem
  | .acked item => [item]
  | _ => []

/-- The status of the record in this place; that of an acked task is not kept. -/
def HasStatus : Place W → Prop
  | .waiting item => item.status = .pending
  | .held _ item => item.status = .processing
  | .dead item => item.status = .dead
  | .acked _ => True

/-- After `n` times out of the queue: a task gets back in line only with a retry left. -/
def Retried (n : ℕ) : Place W → Prop
  | .waiting item => n = 0 ∨ item.attemptCount < item.maxRetries
  | .held _ item => n ≤ 1 ∨ item.attemptCount ≤ item.maxRetries
  | .dead item => n ≤ 1 ∨ item.attemptCount ≤ item.maxRetries
  | .acked item => n ≤ 1 ∨ item.attemptCount ≤ item.maxRetries

end Place

/-- The task is in this place, once, and nowhere else. -/
structure Located (task : TaskItem) (a : Aspect W) (place : Place W) : Prop where
  queue : ∀ q, a.queue q = place.inQueue q
  item : a.item = place.record
  hands : a.hands = place.inHands
  dead : ∀ q, a.dead q = place.inDead q
  tasks : a.log.filterMap QueueEvent.task? = [task]
  acked : a.log.filterMap QueueEvent.acked? = place.inAcked
  taskId : place.item.taskId = task.taskId
  queueName : place.item.queueName = task.queueName
  maxRetries : place.item.maxRetries = task.maxRetries
  status : place.HasStatus
  attempts : place.item.attemptCount = task.attemptCount + a.log.countP QueueEvent.isDequeue
  retried : place.Retried (a.log.countP QueueEvent.isDequeue)

/-! ## The moves of a task -/

namespace Located

variable {task item : TaskItem} {a : Aspect W} {w : W}

theorem enqueue (task : TaskItem) : Located (W := W) task
    { queue := fun q => if task.queueName = q then 1 else 0
      item := some { task with status := .pending }
      hands := []
      dead := fun _ => []
      log := [.enqueued task] } (.waiting { task with status := .pending }) where
  queue _ := rfl
  item := rfl
  hands := rfl
  dead _ := rfl
  tasks := rfl
  acked := rfl
  taskId := rfl
  queueName := rfl
  maxRetries := rfl
  status := rfl
  attempts := by simp
  retried := .inl rfl

theorem dequeue (h : Located task a (.waiting item)) (w : W) (q workerId : String) :
    Located task
      { a with
        queue := fun _ => 0
        item := some (item.taken workerId)
        hands := [(w, item.taken workerId)]
        log := a.log ++ [.dequeued w q (item.taken workerId)] }
      (.held w (item.taken workerId)) where
  queue _ := rfl
  item := rfl
  hands := rfl
  dead := h.dead
  tasks := by simpa [List.filterMap_cons] using h.tasks
  acked := by simpa [List.filterMap_cons] using h.acked
  taskId := h.taskId
  queueName := h.queueName
  maxRetries := h.maxRetries
  status := rfl
  attempts := by
    have := h.attempts
    simp only [Place.item, TaskItem.taken, List.countP_append, List.countP_singleton,
      QueueEvent.isDequeue, if_true] at this ⊢
    omega
  retried := by
    have := h.retried
    simp only [Place.Retried, TaskItem.taken, List.countP_append, List.countP_singleton,
      QueueEvent.isDequeue, if_true] at this ⊢
    omega

theorem ack (h : Located task a (.held w item)) :
    Located task { a with item := none, hands := [], log := a.log ++ [.acked w item] }
      (.acked item) where
  queue := h.queue
  item := rfl
  hands := rfl
  dead := h.dead
  tasks := by simpa [List.filterMap_cons] using h.tasks
  acked := by simp [h.acked]
  taskId := h.taskId
  queueName := h.queueName
  maxRetries := h.maxRetries
  status := trivial
  attempts := by simpa [TaskItem.rejected] using h.attempts
  retried := by simpa [Place.Retried, TaskItem.rejected] using h.retried

theorem bury (h : Located task a (.held w item)) (error : String) :
    Located task
      { a with
        item := none
        hands := []
        dead := fun q => if item.queueName = q then [item.rejected error .dead] else []
        log := a.log ++ [.nacked w item error] }
      (.dead (item.rejected error .dead)) where
  queue := h.queue
  item := rfl
  hands := rfl
  dead _ := rfl
  tasks := by simpa [List.filterMap_cons] using h.tasks
  acked := by simpa [List.filterMap_cons] using h.acked
  taskId := h.taskId
  queueName := h.queueName
  maxRetries := h.maxRetries
  status := rfl
  attempts := by simpa [TaskItem.rejected] using h.attempts
  retried := by simpa [Place.Retried, TaskItem.rejected] using h.retried

theorem requeue (h : Located task a (.held w item)) (error : String)
    (hretry : item.attemptCount < item.maxRetries) :
    Located task
      { a with
        queue := fun q => if item.queueName = q then 1 else 0
        item := some (item.rejected error .pending)
        hands := []
        log := a.log ++ [.nacked w item error] }
      (.waiting (item.rejected error .pending)) where
  queue _ := rfl
  item := rfl
  hands := rfl
  dead := h.dead
  tasks := by simpa [List.filterMap_cons] using h.tasks
  acked := by simpa [List.filterMap_cons] using h.acked
  taskId := h.taskId
  queueName := h.queueName
  maxRetries := h.maxRetries
  status := rfl
  attempts := by simpa [TaskItem.rejected] using h.attempts
  retried := .inr hretry

/-- What is seen of a task is seen in one place only. -/
theorem unique {place place' : Place W} (h : Located task a place) (h' : Located task a place') :
    place = place' := by
  have hitem := h.item.symm.trans h'.item
  have hhands := h.hands.symm.trans h'.hands
  have hacked := h.acked.symm.trans h'.acked
  have hdead : ∀ q, place.inDead q = place'.inDead q := fun q => (h.dead q).symm.trans (h'.dead q)
  cases place <;> cases place' <;> simp_all
  -- both are dead: the letters of its own queue are the same
  rename_i item item'
  have hown := hdead item.queueName
  simp only [if_true] at hown
  split_ifs at hown
  exact (List.singleton_inj.mp hown)

/-- A task that was enqueued with no attempts is taken out at most as often as it may be. -/
theorem dequeues_le {place : Place W} (h : Located task a place) (h₀ : 0 ≤ task.attemptCount) :
    (a.log.countP QueueEvent.isDequeue : ℤ) ≤ max 1 task.maxRetries := by
  have hattempts := h.attempts
  have hretried := h.retried
  have hmax := h.maxRetries
  cases place <;> simp only [Place.Retried, Place.item] at hattempts hretried hmax <;> omega

end Located

end Aspect

/-! ## What a call touches -/

section Touches

variable {W : Type} {p p' p'' : Pool} {b b' b'' : QueueLedger W} {x q : String}

/-- Of every task but `x` everything stayed as it was. -/
def Touches (x : String) (p : Pool) (b : QueueLedger W) (p' : Pool) (b' : QueueLedger W) : Prop :=
  ∀ id, id ≠ x → aspect p' b' id = aspect p b id

theorem Touches.trans (h : Touches x p b p' b') (h' : Touches x p' b' p'' b'') :
    Touches x p b p'' b'' := fun id hid => (h' id hid).trans (h id hid)

theorem touches_push : Touches x p b (p.push q x) b := by
  intro id hid
  ext1
  · funext q'
    by_cases hq : q' = q
    · subst hq
      simp [aspect, Ne.symm hid]
    · simp [aspect, hq]
  all_goals rfl

theorem touches_write {item : Option TaskItem} : Touches x p b (p.write x item) b := by
  intro id hid
  ext1
  case item => simp [aspect, hid]
  all_goals rfl

theorem touches_bury {item : TaskItem} (hx : item.taskId = x) : Touches x p b (p.bury item) b := by
  intro id hid
  ext1
  case dead =>
    funext q'
    by_cases hq : q' = item.queueName
    · subst hq
      simp [aspect, hx, Ne.symm hid]
    · simp [aspect, hq]
  all_goals rfl

theorem touches_pop {rest : List String} (hq : p.queue q = x :: rest) :
    Touches x p b (p.pop q) b := by
  intro id hid
  ext1
  · funext q'
    by_cases hq' : q' = q
    · subst hq'
      simp [aspect, hq, Ne.symm hid]
    · simp [aspect, hq']
  all_goals rfl

theorem touches_record {event : QueueEvent W} (hx : event.item.taskId = x) :
    Touches x p b p (b.record event) := by
  intro id hid
  ext1
  case log => simp [aspect, QueueLedger.record, hx, Ne.symm hid]
  all_goals rfl

theorem touches_give {w : W} {item : TaskItem} (hx : item.taskId = x) :
    Touches x p b p (b.give w item) := by
  intro id hid
  ext1
  case hands => simp [aspect, QueueLedger.give, hx, Ne.symm hid]
  all_goals rfl

theorem touches_release [DecidableEq W] {w : W} : Touches x p b p (b.release w x) := by
  intro id hid
  ext1
  case hands =>
    simp only [aspect, QueueLedger.release, List.filter_filter]
    refine List.filter_congr fun h _ => ?_
    by_cases hh : h.2.taskId = id
    · simp [hh, hid]
    · simp [hh]
  all_goals rfl

/-! ### The task that is touched -/

variable {a : Aspect W} (h : aspect p b x = a)

include h

theorem aspect_push (q : String) : aspect (p.push q x) b x
    = { a with queue := fun q' => a.queue q' + if q = q' then 1 else 0 } := by
  subst h
  ext1
  · funext q'
    by_cases hq : q' = q
    · subst hq
      simp [aspect]
    · simp [aspect, hq, Ne.symm hq]
  all_goals rfl

theorem aspect_write (item : Option TaskItem) :
    aspect (p.write x item) b x = { a with item } := by
  subst h
  ext1
  case item => simp [aspect]
  all_goals rfl

theorem aspect_bury {item : TaskItem} (hx : item.taskId = x) : aspect (p.bury item) b x
    = { a with dead := fun q' => a.dead q' ++ if item.queueName = q' then [item] else [] } := by
  subst h
  ext1
  case dead =>
    funext q'
    by_cases hq : q' = item.queueName
    · subst hq
      simp [aspect, hx]
    · simp [aspect, hq, Ne.symm hq]
  all_goals rfl

theorem aspect_pop {rest : List String} (hq : p.queue q = x :: rest) : aspect (p.pop q) b x
    = { a with queue := fun q' => a.queue q' - if q = q' then 1 else 0 } := by
  subst h
  ext1
  · funext q'
    by_cases hq' : q' = q
    · subst hq'
      simp [aspect, hq]
    · simp [aspect, hq', Ne.symm hq']
  all_goals rfl

theorem aspect_record {e : QueueEvent W} (hx : e.item.taskId = x) :
    aspect p (b.record e) x = { a with log := a.log ++ [e] } := by
  subst h
  ext1
  case log => simp [aspect, QueueLedger.record, hx]
  all_goals rfl

theorem aspect_give {item : TaskItem} (w : W) (hx : item.taskId = x) :
    aspect p (b.give w item) x = { a with hands := a.hands ++ [(w, item)] } := by
  subst h
  ext1
  case hands => simp [aspect, QueueLedger.give, hx]
  all_goals rfl

theorem aspect_release [DecidableEq W] (w : W) : aspect p (b.release w x) x
    = { a with hands := a.hands.filter (·.1 ≠ w) } := by
  subst h
  ext1
  case hands =>
    simp only [aspect, QueueLedger.release, List.filter_filter]
    refine List.filter_congr fun h _ => ?_
    by_cases hh : h.2.taskId = x <;> simp [hh]
  all_goals rfl

end Touches

section Sight

variable {W : Type} {p : Pool} {b : QueueLedger W} {x q : String}

theorem mem_taskIds_of_aspect {task : TaskItem}
    (h : task ∈ (aspect p b x).log.filterMap QueueEvent.task?) : task.taskId ∈ b.taskIds := by
  obtain ⟨event, hevent, htask⟩ := List.mem_filterMap.mp h
  exact List.mem_map_of_mem
    (List.mem_filterMap.mpr ⟨event, List.mem_of_mem_filter hevent, htask⟩)

theorem mem_aspect_tasks {task : TaskItem} (h : .enqueued task ∈ b.log) :
    task ∈ (aspect p b task.taskId).log.filterMap QueueEvent.task? := by
  have hown : .enqueued task ∈ (aspect p b task.taskId).log :=
    List.mem_filter.mpr ⟨h, by simp [QueueEvent.item]⟩
  exact List.mem_filterMap.mpr ⟨.enqueued task, hown, rfl⟩

theorem aspect_queue_ne_zero (hx : x ∈ p.queue q) : (aspect p b x).queue q ≠ 0 := by
  simpa [aspect, List.count_eq_zero] using hx

theorem mem_aspect_hands [DecidableEq W] {w : W} {item : TaskItem} (hx : b.held w x = some item) :
    (w, item) ∈ (aspect p b x).hands := by
  obtain ⟨⟨w', item'⟩, hfind, rfl⟩ := Option.map_eq_some_iff.mp hx
  have hprop := List.find?_some hfind
  simp only [decide_eq_true_eq] at hprop
  obtain ⟨rfl, hid⟩ := hprop
  exact List.mem_filter.mpr ⟨List.mem_of_find?_eq_some hfind, by simpa using hid⟩

end Sight

/-! ## The books balance -/

section Booked

variable {W : Type} {p : Pool} {b : QueueLedger W} {x q : String}

/-- Every task is absent or in one place. -/
def Placed (p : Pool) (b : QueueLedger W) : Prop :=
  ∀ id, aspect p b id = .absent ∨
    ∃ task place, task.taskId = id ∧ Located task (aspect p b id) place

structure Booked (p : Pool) (b : QueueLedger W) : Prop where
  placed : Placed p b
  fifo : ∀ q, b.log.filterMap (QueueEvent.enters q)
    = b.log.filterMap (QueueEvent.leaves q) ++ p.queue q
  dead : ∀ q, p.dead q = b.log.filterMap (QueueEvent.buried q)

theorem Placed.move {p' : Pool} {b' : QueueLedger W} (h : Placed p b) (task : TaskItem)
    (place : Place W) (ht : Touches task.taskId p b p' b')
    (hx : Located task (aspect p' b' task.taskId) place) : Placed p' b' := by
  intro id
  by_cases hid : id = task.taskId
  · exact .inr ⟨task, place, hid.symm, hid ▸ hx⟩
  · rw [ht id hid]
    exact h id

theorem booked_empty : Booked ({} : Pool) ({} : QueueLedger W) where
  placed _ := .inl rfl
  fifo _ := rfl
  dead _ := rfl

theorem Placed.absent (h : Placed p b) (hx : x ∉ b.taskIds) : aspect p b x = .absent := by
  rcases h x with h | ⟨task, place, rfl, hl⟩
  · exact h
  · have hmem : task ∈ (aspect p b task.taskId).log.filterMap QueueEvent.task? := by
      simp [hl.tasks]
    exact absurd (mem_taskIds_of_aspect hmem) hx

/-- An id in line is that of a task that waits in this queue. -/
theorem Placed.waiting (h : Placed p b) (hx : x ∈ p.queue q) :
    ∃ task item, task.taskId = x ∧ Located task (aspect p b x) (.waiting item) ∧
      item.queueName = q := by
  have hcount : (aspect p b x).queue q ≠ 0 := aspect_queue_ne_zero hx
  rcases h x with h | ⟨task, place, htask, hl⟩
  · simp [h, Aspect.absent] at hcount
  · rw [hl.queue q] at hcount
    cases place <;> simp only [Place.inQueue, ne_eq, not_true_eq_false] at hcount
    rename_i item
    exact ⟨task, item, htask, hl, by simpa using hcount⟩

theorem Booked.enqueue (h : Booked p b) {item : TaskItem} (hx : item.taskId ∉ b.taskIds) :
    Booked (p.after (.enqueue item)) (b.record (.enqueued item)) := by
  refine ⟨h.placed.move item (.waiting { item with status := .pending }) ?_ ?_, fun q => ?_,
    fun q => ?_⟩
  · exact (touches_write.trans touches_push).trans (touches_record rfl)
  · have hnew := aspect_record (e := .enqueued item) (aspect_push (aspect_write
      (h.placed.absent hx) (some { item with status := .pending })) item.queueName) rfl
    rw [Pool.after, hnew]
    convert Located.enqueue (W := W) item using 1
    simp [Aspect.absent]
  · simp only [QueueLedger.record, List.filterMap_append, h.fifo q, Pool.after, Pool.queue_push,
      Pool.queue_write, Function.update_apply, List.filterMap_cons, List.filterMap_nil,
      QueueEvent.enters, QueueEvent.leaves]
    by_cases hq : q = item.queueName
    · simp [hq]
    · simp [hq, Ne.symm hq]
  · simp [QueueLedger.record, h.dead q, Pool.after, QueueEvent.buried, List.filterMap_cons]

theorem Booked.located (h : Booked p b) {task : TaskItem}
    (ht : .enqueued task ∈ b.log) : ∃ place, Located task (aspect p b task.taskId) place := by
  have hmem : task ∈ (aspect p b task.taskId).log.filterMap QueueEvent.task? :=
    mem_aspect_tasks ht
  rcases h.placed task.taskId with habsent | ⟨task', place, -, hl⟩
  · simp [habsent, Aspect.absent] at hmem
  · rw [hl.tasks, List.mem_singleton] at hmem
    exact ⟨place, hmem ▸ hl⟩

theorem Booked.backed (h : Booked p b) : p.Backed := by
  rintro id ⟨q, hid⟩
  obtain ⟨task, item, rfl, hl, -⟩ := h.placed.waiting hid
  have hitem : p.item task.taskId = some item := hl.item
  simp [hitem]

variable [DecidableEq W]

theorem Placed.held {w : W} {item : TaskItem} (h : Placed p b) (hx : b.held w x = some item) :
    ∃ task, task.taskId = x ∧ Located task (aspect p b x) (.held w item) := by
  have hmem : (w, item) ∈ (aspect p b x).hands := mem_aspect_hands hx
  rcases h x with h | ⟨task, place, htask, hl⟩
  · simp [h, Aspect.absent] at hmem
  · rw [hl.hands] at hmem
    cases place <;> simp only [Place.inHands, List.not_mem_nil, List.mem_singleton] at hmem
    cases hmem
    exact ⟨task, htask, hl⟩

theorem Booked.dequeue (h : Booked p b) (w : W) (workerId : String)
    (dangling : String → Except PyError (Option TaskItem)) :
    Booked (p.after (.dequeue q workerId))
      (b.note w (.dequeue q workerId) (p.answer dangling (.dequeue q workerId))) := by
  rcases hq : p.queue q with _ | ⟨x, rest⟩
  · simpa [Pool.after, Pool.answer, QueueLedger.note, hq] using h
  · obtain ⟨task, item, rfl, hl, hname⟩ := h.placed.waiting (x := x) (q := q) (by simp [hq])
    have hitem : p.item task.taskId = some item := hl.item
    have hid : (item.taken workerId).taskId = task.taskId := hl.taskId
    have hafter : p.after (.dequeue q workerId)
        = (p.pop q).write task.taskId (some (item.taken workerId)) := by
      simp [Pool.after, hq, hitem]
    have hnote : b.note w (.dequeue q workerId) (p.answer dangling (.dequeue q workerId))
        = (b.give w (item.taken workerId)).record (.dequeued w q (item.taken workerId)) := by
      simp [Pool.answer, hq, hitem, QueueLedger.note]
    rw [hafter, hnote]
    refine ⟨h.placed.move task (.held w (item.taken workerId)) ?_ ?_, fun q' => ?_, fun q' => ?_⟩
    · exact (((touches_pop hq).trans touches_write).trans (touches_give hid)).trans
        (touches_record hid)
    · rw [aspect_record (e := .dequeued w q (item.taken workerId))
        (aspect_give (aspect_write (aspect_pop rfl hq) _) w hid) hid]
      convert hl.dequeue w q workerId using 1
      simp [hl.queue, hl.hands, hname]
    · have hfifo := h.fifo q'
      simp only [QueueLedger.record, QueueLedger.give, List.filterMap_append, hfifo,
        List.filterMap_cons, List.filterMap_nil, QueueEvent.enters, QueueEvent.leaves,
        Pool.queue_write, Pool.queue_pop, Function.update_apply]
      by_cases hq' : q' = q
      · subst hq'
        simp [hq, hid]
      · simp [hq', Ne.symm hq']
    · simp [QueueLedger.record, QueueLedger.give, h.dead q', QueueEvent.buried,
        List.filterMap_cons]

theorem Booked.ack (h : Booked p b) {w : W} {item : TaskItem} (hx : b.held w x = some item) :
    Booked (p.after (.ack x)) ((b.release w x).record (.acked w item)) := by
  obtain ⟨task, rfl, hl⟩ := h.placed.held hx
  refine ⟨h.placed.move task (.acked item) ?_ ?_, fun q => ?_, fun q => ?_⟩
  · exact (touches_write.trans touches_release).trans (touches_record hl.taskId)
  · rw [Pool.after, aspect_record (e := .acked w item) (aspect_release (aspect_write rfl _) w)
      hl.taskId]
    convert hl.ack using 1
    simp [hl.hands]
  · simpa [QueueLedger.record, QueueLedger.release, Pool.after, QueueEvent.enters,
      QueueEvent.leaves, List.filterMap_cons] using h.fifo q
  · simp [QueueLedger.record, QueueLedger.release, Pool.after, h.dead q, QueueEvent.buried,
      List.filterMap_cons]

theorem Booked.nack (h : Booked p b) {w : W} {item : TaskItem} (hx : b.held w x = some item)
    (error : String) :
    Booked (p.after (.nack x error)) ((b.release w x).record (.nacked w item error)) := by
  obtain ⟨task, rfl, hl⟩ := h.placed.held hx
  have hitem : p.item task.taskId = some item := hl.item
  simp only [Pool.after, hitem]
  split_ifs with hexhausted
  · have hid : (item.rejected error .dead).taskId = task.taskId := hl.taskId
    refine ⟨h.placed.move task (.dead (item.rejected error .dead)) ?_ ?_, fun q => ?_,
      fun q => ?_⟩
    · exact ((touches_write.trans (touches_bury hid)).trans touches_release).trans
        (touches_record hl.taskId)
    · rw [aspect_record (e := .nacked w item error)
        (aspect_release (aspect_bury (aspect_write rfl _) hid) w) hl.taskId]
      convert hl.bury error using 1
      simp only [hl.hands, hl.dead, Place.inHands, Place.inDead, List.nil_append,
        List.filter_cons, ne_eq, not_true_eq_false, decide_false, Bool.false_eq_true, if_false,
        List.filter_nil]
      rfl
    · have hlt : ¬ item.attemptCount < item.maxRetries := by omega
      simpa [QueueLedger.record, QueueLedger.release, QueueEvent.enters, QueueEvent.leaves,
        List.filterMap_cons, hlt] using h.fifo q
    · simp only [Pool.dead_bury, Pool.dead_write, Function.update_apply, QueueLedger.record,
        QueueLedger.release, List.filterMap_append, List.filterMap_cons, List.filterMap_nil,
        QueueEvent.buried, hexhausted, true_and, ← h.dead]
      by_cases hq : q = item.queueName
      · simp [hq, TaskItem.rejected]
      · simp [hq, Ne.symm hq, TaskItem.rejected]
  · have hlt : item.attemptCount < item.maxRetries := by omega
    refine ⟨h.placed.move task (.waiting (item.rejected error .pending)) ?_ ?_, fun q => ?_,
      fun q => ?_⟩
    · exact ((touches_write.trans touches_push).trans touches_release).trans
        (touches_record hl.taskId)
    · rw [aspect_record (e := .nacked w item error)
        (aspect_release (aspect_push (aspect_write rfl _) _) w) hl.taskId]
      convert hl.requeue error hlt using 1
      simp [hl.hands, hl.queue]
    · simp only [Pool.queue_push, Pool.queue_write, Function.update_apply, QueueLedger.record,
        QueueLedger.release, List.filterMap_append, List.filterMap_cons, List.filterMap_nil,
        QueueEvent.enters, QueueEvent.leaves, hlt, true_and, h.fifo q]
      by_cases hq : q = item.queueName
      · simp [hq, ← hl.taskId]
      · simp [hq, Ne.symm hq]
    · simp [QueueLedger.record, QueueLedger.release, h.dead q, QueueEvent.buried,
        Int.not_le.mpr hlt]

/-- One allowed call keeps the books. -/
theorem Booked.call (h : Booked p b) {P : TaskItem → Prop} {w : W} {c : QueueCall}
    (hc : b.Allows w P c) (dangling : String → Except PyError (Option TaskItem)) :
    Booked (p.after c) (b.note w c (p.answer dangling c)) := by
  cases c with
  | enqueue item => exact h.enqueue hc.1
  | dequeue q workerId => exact h.dequeue w workerId dangling
  | ack id =>
    obtain ⟨item, hitem⟩ := Option.isSome_iff_exists.mp hc
    simpa [QueueLedger.note, hitem] using h.ack hitem
  | nack id error =>
    obtain ⟨item, hitem⟩ := Option.isSome_iff_exists.mp hc
    simpa [QueueLedger.note, hitem] using h.nack hitem error
  | queueLength q => exact h
  | peekDeadLetter q => exact h

/-- Every task in the books is one that the run promised. -/
def Promised (P : TaskItem → Prop) (b : QueueLedger W) : Prop :=
  ∀ task, .enqueued task ∈ b.log → P task

theorem Promised.note {P : TaskItem → Prop} {w : W} {c : QueueCall} (h : Promised P b)
    (hc : b.Allows w P c) (answer : Except PyError QueueResult) :
    Promised P (b.note w c answer) := by
  intro task htask
  cases c with
  | enqueue item =>
    simp only [QueueLedger.note, QueueLedger.record, List.mem_append, List.mem_singleton,
      QueueEvent.enqueued.injEq] at htask
    rcases htask with htask | rfl
    · exact h task htask
    · exact hc.2
  | dequeue q workerId =>
    simp only [QueueLedger.note] at htask
    split at htask
    · exact h task (by simpa [QueueLedger.record, QueueLedger.give] using htask)
    · exact h task htask
  | ack id | nack id error =>
    simp only [QueueLedger.note] at htask
    split at htask
    · exact h task (by simpa [QueueLedger.record, QueueLedger.release] using htask)
    · exact h task htask
  | queueLength q => exact h task htask
  | peekDeadLetter q => exact h task htask

end Booked

section Conserved

variable {σ W : Type} [DecidableEq W] {call : σ → QueueCall → Except PyError QueueResult × σ}
  {view : σ → Pool} {I : σ → Prop} {dangling : String → Except PyError (Option TaskItem)}
  {P : TaskItem → Prop}

theorem Implements.booked (hi : Implements call view I dangling) :
    ∀ (calls : List (W × QueueCall)) {s : σ} {b : QueueLedger W}, I s → Booked (view s) b →
      Promised P b → Disciplined call P s b calls →
      Booked (view (runCalls call s b calls).1) (runCalls call s b calls).2 ∧
        Promised P (runCalls call s b calls).2
  | [], _, _, _, hb, hp, _ => ⟨hb, hp⟩
  | (w, c) :: calls, s, b, hs, hb, hp, hd => by
    refine Implements.booked hi calls (hi.inv s c hs) ?_ (hp.note hd.1 _) hd.2
    rw [hi.after s c hs, hi.answer s c hs]
    exact hb.call hd.1 dangling

/-- Over any disciplined run with new tasks, every task is in exactly one place, its attempts are
its dequeues and are bounded, queues are first in first out, and the dead letters are the tasks
that were nacked with no retries left. -/
theorem tasks_conserved (calls : List (W × QueueCall))
    (h : Disciplined InMemoryTaskQueue.call (fun item => item.attemptCount = 0) {} {} calls) :
    let r := runCalls InMemoryTaskQueue.call {} ({} : QueueLedger W) calls
    (∀ task, .enqueued task ∈ r.2.log →
      (∃! place, Located task (aspect r.1.view r.2 task.taskId) place) ∧
      (∀ place, Located task (aspect r.1.view r.2 task.taskId) place →
        place.item.attemptCount = r.2.dequeues task.taskId) ∧
      (r.2.dequeues task.taskId : ℤ) ≤ max 1 task.maxRetries) ∧
    (∀ q, r.2.log.filterMap (QueueEvent.enters q)
      = r.2.log.filterMap (QueueEvent.leaves q) ++ r.1.waiting q) ∧
    ∀ q, r.1.dead q = r.2.log.filterMap (QueueEvent.buried q) := by
  intro r
  obtain ⟨hb, hp⟩ := inMemory_implements.booked calls (s := {}) (b := {}) trivial booked_empty
    (fun _ h => by simp at h) h
  refine ⟨fun task htask => ?_, hb.fifo, hb.dead⟩
  obtain ⟨place, hl⟩ := hb.located htask
  have hzero : task.attemptCount = 0 := hp task htask
  refine ⟨⟨place, hl, fun place' hl' => hl'.unique hl⟩, fun place' hl' => ?_,
    hl.dequeues_le (Int.le_of_eq hzero.symm)⟩
  have := hl'.attempts
  rw [hzero, Int.zero_add] at this
  exact this

def sampleTask (taskId : String) (maxRetries : ℤ) : TaskItem :=
  { taskId, queueName := "q", payload := .null, createdAt := 0, maxRetries }

/-- Two tasks in one queue: the first is nacked, gets back in line behind the second, and is nacked
again with no retries left; the second is acked. -/
def retryRun : List (ℕ × QueueCall) :=
  [(0, .enqueue (sampleTask "a" 2)), (0, .enqueue (sampleTask "b" 3)),
    (1, .dequeue "q" "w1"), (1, .nack "a" "timeout"), (2, .dequeue "q" "w2"),
    (1, .dequeue "q" "w1"), (2, .ack "b"), (1, .nack "a" "timeout"), (2, .dequeue "q" "w2"),
    (0, .peekDeadLetter "q"), (0, .queueLength "q")]

theorem tasks_conserved_retryRun :
    Disciplined InMemoryTaskQueue.call (fun item => item.attemptCount = 0) {} {} retryRun ∧
    let r := runCalls InMemoryTaskQueue.call {} {} retryRun
    (r.1.dead "q").map (·.taskId) = ["a"] ∧
      r.1.dead "q" = r.2.log.filterMap (QueueEvent.buried "q") ∧
      r.2.log.filterMap (QueueEvent.leaves "q") = ["a", "b", "a"] := by
  have h : Disciplined InMemoryTaskQueue.call (fun item => item.attemptCount = 0) {} {} retryRun :=
    ⟨⟨by decide, rfl⟩, ⟨by decide, rfl⟩, trivial, rfl, trivial, trivial, rfl, rfl, trivial, trivial,
      trivial, trivial⟩
  exact ⟨h, rfl, (tasks_conserved retryRun h).2.2 "q", rfl⟩

theorem Pool.answer_of_backed {p : Pool} (h : p.Backed) (c : QueueCall)
    (dangling dangling' : String → Except PyError (Option TaskItem)) :
    p.answer dangling c = p.answer dangling' c := by
  cases c with
  | dequeue q workerId =>
    simp only [Pool.answer]
    rcases hq : p.queue q with _ | ⟨id, rest⟩
    · rfl
    · obtain ⟨item, hitem⟩ := Option.isSome_iff_exists.mp (h id ⟨q, by simp [hq]⟩)
      simp [hitem]
  | _ => rfl

theorem answers_eq : ∀ (calls : List (W × QueueCall)) (s : InMemoryTaskQueue) (b : QueueLedger W),
    Booked s.view b → Disciplined InMemoryTaskQueue.call P s b calls →
    answers InMemoryTaskQueue.call s (calls.map Prod.snd)
      = answers RedisTaskQueue.call (RedisTaskQueue.encode s.view) (calls.map Prod.snd)
  | [], _, _, _, _ => rfl
  | (w, c) :: calls, s, b, hb, hd => by
    have hanswer := inMemory_implements.answer s c trivial
    have hafter := inMemory_implements.after s c trivial
    have hbooked : Booked (s.call c).2.view (b.note w c (s.call c).1) := by
      rw [hafter, hanswer]
      exact hb.call hd.1 _
    have ih := answers_eq calls (s.call c).2 _ hbooked hd.2
    rw [hafter] at ih
    simp only [List.map_cons, answers, RedisTaskQueue.call_encode, ih, hanswer, List.cons.injEq,
      and_true]
    exact Pool.answer_of_backed hb.backed c _ _

/-- The two queues return the same at every call of a disciplined run. -/
theorem queues_agree (calls : List (W × QueueCall))
    (h : Disciplined InMemoryTaskQueue.call (fun _ => True) {} {} calls) :
    answers InMemoryTaskQueue.call {} (calls.map Prod.snd)
      = answers RedisTaskQueue.call {} (calls.map Prod.snd) :=
  answers_eq calls {} {} booked_empty h

theorem queues_agree_retryRun :
    Disciplined InMemoryTaskQueue.call (fun _ => True) {} {} retryRun ∧
      answers InMemoryTaskQueue.call {} (retryRun.map Prod.snd)
        = answers RedisTaskQueue.call {} (retryRun.map Prod.snd) := by
  have h : Disciplined InMemoryTaskQueue.call (fun _ => True) {} {} retryRun :=
    ⟨⟨by decide, trivial⟩, ⟨by decide, trivial⟩, trivial, rfl, trivial, trivial, rfl, rfl, trivial,
      trivial, trivial, trivial⟩
  exact ⟨h, queues_agree retryRun h⟩

end Conserved

end AgentLearning
