import AgentLearning.Proofs.RedisClients

/-!
# Who has a task

Between two commands of a client a task is in its custody: its record is out of line, or it is
nowhere in Redis at all. `Custody` lists where a task can be, settled or with a client at work on
it, and `Kept` says what Redis and the ledger then have of it. Every command moves one task from
one custody to the next, and a client can work on no task but the one it has, so over all
interleavings a task has one client at most.
-/

namespace AgentLearning

inductive Custody (C : Type)
  /-- Its `enqueue` has begun and nothing is stored. -/
  | storing (client : C) (item : TaskItem)
  /-- Its record is stored as pending and it is not in line: it is about to get in line, or was
  popped and not taken yet. -/
  | apart (client : C) (item : TaskItem)
  | waiting (item : TaskItem)
  /-- Its record is stored as taken and the `dequeue` has not returned. -/
  | taking (client : C) (item : TaskItem)
  | held (client : C) (item : TaskItem)
  /-- An `ack` or `nack` has begun and its record is as it was held. -/
  | returning (client : C) (item : TaskItem)
  /-- Its record is deleted and the dead letter is not there yet. -/
  | burying (client : C) (item : TaskItem)
  | dead (item : TaskItem)
  | acked (item : TaskItem)

namespace Custody

variable {C : Type}

@[simp]
def item : Custody C → TaskItem
  | .storing _ item => item
  | .apart _ item => item
  | .waiting item => item
  | .taking _ item => item
  | .held _ item => item
  | .returning _ item => item
  | .burying _ item => item
  | .dead item => item
  | .acked item => item

/-- The client at work on the task. -/
def owner : Custody C → Option C
  | .storing client _ => some client
  | .apart client _ => some client
  | .taking client _ => some client
  | .returning client _ => some client
  | .burying client _ => some client
  | _ => none

@[simp]
def inQueue (q : String) : Custody C → ℕ
  | .waiting item => if item.queueName = q then 1 else 0
  | _ => 0

@[simp]
def record : Custody C → Option TaskItem
  | .apart _ item => some item
  | .waiting item => some item
  | .taking _ item => some item
  | .held _ item => some item
  | .returning _ item => some item
  | _ => none

@[simp]
def inHands : Custody C → List (C × TaskItem)
  | .held client item => [(client, item)]
  | _ => []

@[simp]
def inDead (q : String) : Custody C → List TaskItem
  | .dead item => if item.queueName = q then [item] else []
  | _ => []

@[simp]
def inAcked : Custody C → List TaskItem
  | .acked item => [item]
  | _ => []

@[simp]
def HasStatus : Custody C → Prop
  | .storing _ item => item.status = .pending
  | .apart _ item => item.status = .pending
  | .waiting item => item.status = .pending
  | .taking _ item => item.status = .processing
  | .held _ item => item.status = .processing
  | .returning _ item => item.status = .processing
  | .burying _ item => item.status = .dead
  | .dead item => item.status = .dead
  | .acked _ => True

/-- The times it was taken that no `dequeue` has returned yet. -/
@[simp]
def unreturned : Custody C → ℕ
  | .taking _ _ => 1
  | _ => 0

/-- Whether it was not yet taken out of line since it last got there, or is about to. -/
@[simp]
def untaken : Custody C → Bool
  | .storing _ _ => true
  | .apart _ _ => true
  | .waiting _ => true
  | _ => false

/-- The record is the task's, and was taken out of line `n` times. -/
structure Tracks (k : Custody C) (task : TaskItem) (n : ℕ) : Prop where
  taskId : k.item.taskId = task.taskId
  queueName : k.item.queueName = task.queueName
  maxRetries : k.item.maxRetries = task.maxRetries
  status : k.HasStatus
  attempts : k.item.attemptCount = task.attemptCount + n
  retried : if k.untaken then n = 0 ∨ k.item.attemptCount < k.item.maxRetries
    else n ≤ 1 ∨ k.item.attemptCount ≤ k.item.maxRetries

/-- A change of custody that leaves the record as it is. -/
theorem Tracks.carry {k k' : Custody C} {task : TaskItem} {n : ℕ} (h : k.Tracks task n)
    (hitem : k'.item = k.item) (huntaken : k'.untaken = k.untaken) (hstatus : k'.HasStatus) :
    k'.Tracks task n where
  taskId := by rw [hitem, h.taskId]
  queueName := by rw [hitem, h.queueName]
  maxRetries := by rw [hitem, h.maxRetries]
  status := hstatus
  attempts := by rw [hitem, h.attempts]
  retried := by
    rw [hitem, huntaken]
    exact h.retried

end Custody

/-- What is seen of a task in this custody. -/
structure Kept {C : Type} (task : TaskItem) (a : Aspect C) (k : Custody C) : Prop where
  queue : ∀ q, a.queue q = k.inQueue q
  item : a.item = k.record
  hands : a.hands = k.inHands
  dead : ∀ q, a.dead q = k.inDead q
  tasks : a.log.filterMap QueueEvent.task? = [task]
  acked : a.log.filterMap QueueEvent.acked? = k.inAcked
  tracks : k.Tracks task (a.log.countP QueueEvent.isDequeue + k.unreturned)

/-! ## From one custody to the next -/

namespace Kept

variable {C : Type} {task item : TaskItem} {a : Aspect C} {c : C}

theorem begin (task : TaskItem) (c : C) :
    Kept task { (Aspect.absent : Aspect C) with log := [.enqueued task] }
      (.storing c { task with status := .pending }) where
  queue _ := rfl
  item := rfl
  hands := rfl
  dead _ := rfl
  tasks := rfl
  acked := rfl
  tracks := ⟨rfl, rfl, rfl, rfl, by simp, by simp⟩

theorem store (h : Kept task a (.storing c item)) :
    Kept task { a with item := some item } (.apart c item) where
  queue := h.queue
  item := rfl
  hands := h.hands
  dead := h.dead
  tasks := h.tasks
  acked := h.acked
  tracks := h.tracks.carry rfl rfl h.tracks.status

theorem lineUp (h : Kept task a (.apart c item)) :
    Kept task { a with queue := fun q => if item.queueName = q then 1 else 0 } (.waiting item) where
  queue _ := rfl
  item := h.item
  hands := h.hands
  dead := h.dead
  tasks := h.tasks
  acked := h.acked
  tracks := h.tracks.carry rfl rfl h.tracks.status

theorem pop (h : Kept task a (.waiting item)) (c : C) :
    Kept task { a with queue := fun _ => 0 } (.apart c item) where
  queue _ := rfl
  item := h.item
  hands := h.hands
  dead := h.dead
  tasks := h.tasks
  acked := h.acked
  tracks := h.tracks.carry rfl rfl h.tracks.status

theorem take (h : Kept task a (.apart c item)) (workerId : String) :
    Kept task { a with item := some (item.taken workerId) } (.taking c (item.taken workerId)) where
  queue := h.queue
  item := rfl
  hands := h.hands
  dead := h.dead
  tasks := h.tasks
  acked := h.acked
  tracks := by
    have hattempts := h.tracks.attempts
    have hretried := h.tracks.retried
    refine ⟨h.tracks.taskId, h.tracks.queueName, h.tracks.maxRetries, rfl, ?_, ?_⟩ <;>
      simp only [Custody.item, Custody.unreturned, Custody.untaken, TaskItem.taken, if_true,
        Bool.false_eq_true, if_false] at hattempts hretried ⊢ <;> omega

theorem give (h : Kept task a (.taking c item)) :
    Kept task { a with
      hands := [(c, item)]
      log := a.log ++ [.dequeued c item.queueName item] } (.held c item) where
  queue := h.queue
  item := h.item
  hands := rfl
  dead := h.dead
  tasks := by simpa [List.filterMap_cons] using h.tasks
  acked := by simpa [List.filterMap_cons] using h.acked
  tracks := by
    simp only [List.countP_append, List.countP_singleton, QueueEvent.isDequeue, if_true]
    exact h.tracks.carry rfl rfl h.tracks.status

theorem giveBack (h : Kept task a (.held c item)) :
    Kept task { a with hands := [] } (.returning c item) where
  queue := h.queue
  item := h.item
  hands := rfl
  dead := h.dead
  tasks := h.tasks
  acked := h.acked
  tracks := h.tracks.carry rfl rfl h.tracks.status

theorem ack (h : Kept task a (.returning c item)) :
    Kept task { a with item := none, log := a.log ++ [.acked c item] } (.acked item) where
  queue := h.queue
  item := rfl
  hands := h.hands
  dead := h.dead
  tasks := by simpa [List.filterMap_cons] using h.tasks
  acked := by simp [h.acked]
  tracks := by
    simp only [List.countP_append, List.countP_singleton, QueueEvent.isDequeue,
      Bool.false_eq_true, if_false, Nat.add_zero]
    exact h.tracks.carry rfl rfl trivial

theorem remove (h : Kept task a (.returning c item)) (error : String) :
    Kept task { a with item := none } (.burying c (item.rejected error .dead)) where
  queue := h.queue
  item := rfl
  hands := h.hands
  dead := h.dead
  tasks := h.tasks
  acked := h.acked
  tracks := ⟨h.tracks.taskId, h.tracks.queueName, h.tracks.maxRetries, rfl,
    h.tracks.attempts, h.tracks.retried⟩

theorem bury (h : Kept task a (.burying c item)) :
    Kept task { a with dead := fun q => if item.queueName = q then [item] else [] }
      (.dead item) where
  queue := h.queue
  item := h.item
  hands := h.hands
  dead _ := rfl
  tasks := h.tasks
  acked := h.acked
  tracks := h.tracks.carry rfl rfl h.tracks.status

theorem reset (h : Kept task a (.returning c item)) (error : String)
    (hretry : item.attemptCount < item.maxRetries) :
    Kept task { a with item := some (item.rejected error .pending) }
      (.apart c (item.rejected error .pending)) where
  queue := h.queue
  item := rfl
  hands := h.hands
  dead := h.dead
  tasks := h.tasks
  acked := h.acked
  tracks := ⟨h.tracks.taskId, h.tracks.queueName, h.tracks.maxRetries, rfl,
    h.tracks.attempts, .inr hretry⟩

end Kept

/-! ## Clients at work -/

namespace RedisStage

/-- The task a client in this stage works on. -/
def target : RedisStage → Option String
  | .enqueueSet item => some item.taskId
  | .enqueueRpush item => some item.taskId
  | .dequeueGet taskId _ => some taskId
  | .dequeueSet taskId _ => some taskId
  | .ackGet taskId => some taskId
  | .ackDelete taskId _ => some taskId
  | .nackGet taskId _ => some taskId
  | .nackDelete taskId _ => some taskId
  | .nackRpushDead item => some item.taskId
  | .nackSet taskId _ => some taskId
  | .nackRpush taskId _ => some taskId
  | .done (.ok (.dequeued (some item))) => some item.taskId
  | _ => none

/-- What the client has in this stage is what it knows of the task. -/
def Fits {C : Type} : RedisStage → Custody C → Prop
  | .enqueueSet item, .storing _ item' => item = item'
  | .enqueueRpush item, .apart _ item' => item = item'
  | .dequeueGet _ _, .apart _ _ => True
  | .dequeueSet _ item, .apart _ item' => ∃ workerId, item = item'.taken workerId
  | .done (.ok (.dequeued (some item))), .taking _ item' => item = item'
  | .ackGet _, .returning _ _ => True
  | .ackDelete _ raw, .returning _ item' => raw = taskToDict item'
  | .nackGet _ _, .returning _ _ => True
  | .nackDelete _ item, .returning _ item' => ∃ error, item = item'.rejected error .dead
  | .nackRpushDead item, .burying _ item' => item = item'
  | .nackSet _ item, .returning _ item' =>
    item'.attemptCount < item'.maxRetries ∧ ∃ error, item = item'.rejected error .pending
  | .nackRpush _ item, .apart _ item' => item = item'
  | _, _ => False

end RedisStage

section Entrusted

variable {C : Type} {s s' : Clients C} {p p' : Pool} {b' : QueueLedger C}
  {K : String → Option (TaskItem × Custody C)} {c : C} {x : String} {task : TaskItem}
  {k k' : Custody C} {stage : Option RedisStage}

/-- What is seen of an id is that of its task in its custody, or nothing if it has none. -/
def Known (id : String) (a : Aspect C) : Option (TaskItem × Custody C) → Prop
  | none => a = .absent
  | some (task, k) => task.taskId = id ∧ Kept task a k

/-- The server stores a pool, every task is in its custody, and the clients at work on a task are
those that have it. -/
structure Entrusted (s : Clients C) (p : Pool) (K : String → Option (TaskItem × Custody C)) :
    Prop where
  redis : s.redis = RedisTaskQueue.encode p
  known : ∀ id, Known id (aspect p s.ledger id) (K id)
  owned : ∀ id task k c, K id = some (task, k) → k.owner = some c →
    ∃ st, s.busy c = some st ∧ st.target = some id
  works : ∀ c st id, s.busy c = some st → st.target = some id →
    ∃ task k, K id = some (task, k) ∧ k.owner = some c ∧ st.Fits k

theorem Entrusted.absent (h : Entrusted s p K) (hK : K x = none) :
    aspect p s.ledger x = .absent := by
  have hknown := h.known x
  rwa [hK] at hknown

theorem Entrusted.kept (h : Entrusted s p K) (hK : K x = some (task, k)) :
    task.taskId = x ∧ Kept task (aspect p s.ledger x) k := by
  have hknown := h.known x
  rwa [hK] at hknown

theorem Entrusted.none_of_fresh (h : Entrusted s p K) (hx : x ∉ s.ledger.taskIds) :
    K x = none := by
  rcases hK : K x with _ | ⟨task, k⟩
  · rfl
  · obtain ⟨rfl, hk⟩ := h.kept hK
    have hmem : task ∈ (aspect p s.ledger task.taskId).log.filterMap QueueEvent.task? := by
      simp [hk.tasks]
    exact absurd (mem_taskIds_of_aspect hmem) hx

theorem Entrusted.waiting (h : Entrusted s p K) {q : String} (hx : x ∈ p.queue q) :
    ∃ task item, K x = some (task, .waiting item) ∧ task.taskId = x ∧
      Kept task (aspect p s.ledger x) (.waiting item) ∧ item.queueName = q := by
  have hcount : (aspect p s.ledger x).queue q ≠ 0 := aspect_queue_ne_zero hx
  rcases hK : K x with _ | ⟨task, k⟩
  · simp [h.absent hK, Aspect.absent] at hcount
  · obtain ⟨htask, hk⟩ := h.kept hK
    rw [hk.queue q] at hcount
    cases k <;> simp only [Custody.inQueue, ne_eq, not_true_eq_false] at hcount
    rename_i item
    exact ⟨task, item, rfl, htask, hk, by simpa using hcount⟩

theorem Entrusted.of_hands (h : Entrusted s p K) {item : TaskItem}
    (hmem : (c, item) ∈ (aspect p s.ledger x).hands) : ∃ task, K x = some (task, .held c item) ∧
      task.taskId = x ∧ Kept task (aspect p s.ledger x) (.held c item) := by
  rcases hK : K x with _ | ⟨task, k⟩
  · simp [h.absent hK, Aspect.absent] at hmem
  · obtain ⟨htask, hk⟩ := h.kept hK
    rw [hk.hands] at hmem
    cases k <;> simp only [Custody.inHands, List.not_mem_nil, List.mem_singleton] at hmem
    cases hmem
    exact ⟨task, rfl, htask, hk⟩

variable [DecidableEq C]

/-- A client's move of the one task it works on, or takes up: everything else stays. -/
theorem Entrusted.move (h : Entrusted s p K)
    (hbefore : ∀ st, s.busy c = some st → st.target = none ∨ st.target = some x)
    (hothers : ∀ task k c', K x = some (task, k) → k.owner = some c' → c' = c)
    (ht : Touches x p s.ledger p' b') (hx : task.taskId = x)
    (hk : Kept task (aspect p' b' x) k)
    (hafter : ∀ st, stage = some st → st.target = none ∨ st.target = some x ∧ k.owner = some c
      ∧ st.Fits k)
    (howner : ∀ c', k.owner = some c' → c' = c ∧ ∃ st, stage = some st ∧ st.target = some x) :
    Entrusted { redis := RedisTaskQueue.encode p', busy := s.setBusy c stage, ledger := b' } p'
      (Function.update K x (some (task, k))) where
  redis := rfl
  known id := by
    by_cases hid : id = x
    · subst hid
      simpa [Known] using ⟨hx, hk⟩
    · rw [Function.update_of_ne hid]
      simpa [ht id hid] using h.known id
  owned id task' k' c' hK hown := by
    by_cases hid : id = x
    · subst hid
      rw [Function.update_self] at hK
      cases hK
      obtain ⟨rfl, st, rfl, hst⟩ := howner c' hown
      exact ⟨st, by simp [Clients.setBusy], hst⟩
    · rw [Function.update_of_ne hid] at hK
      obtain ⟨st, hst, htarget⟩ := h.owned id task' k' c' hK hown
      have hne : c' ≠ c := by
        rintro rfl
        rcases hbefore st hst with hn | hn
        · rw [hn] at htarget
          cases htarget
        · rw [hn] at htarget
          exact hid (Option.some.inj htarget).symm
      exact ⟨st, by simpa [Clients.setBusy, hne] using hst, htarget⟩
  works c' st id hst htarget := by
    by_cases hc : c' = c
    · subst hc
      simp only [Clients.setBusy, Function.update_self] at hst
      rcases hafter st hst with hn | ⟨hn, hown, hfits⟩
      · rw [hn] at htarget
        cases htarget
      · rw [hn] at htarget
        cases htarget
        exact ⟨task, k, by simp, hown, hfits⟩
    · simp only [Clients.setBusy, Function.update_of_ne hc] at hst
      obtain ⟨task', k', hK, hown, hfits⟩ := h.works c' st id hst htarget
      have hid : id ≠ x := by
        rintro rfl
        exact hc (hothers task' k' c' hK hown)
      exact ⟨task', k', by simpa [hid] using hK, hown, hfits⟩

section AtWork

variable {st : RedisStage} (h : Entrusted s p K) (hbusy : s.busy c = some st)
  (htarget : st.target = some x)

include h hbusy htarget

omit [DecidableEq C] in
/-- The task a client works on is in its custody, and is as it knows it. -/
theorem Entrusted.work : ∃ task k, K x = some (task, k) ∧ k.owner = some c ∧ st.Fits k ∧
    task.taskId = x ∧ Kept task (aspect p s.ledger x) k := by
  obtain ⟨task, k, hK, hown, hfits⟩ := h.works c st x hbusy htarget
  exact ⟨task, k, hK, hown, hfits, h.kept hK⟩

/-- The client moves the task it works on. -/
theorem Entrusted.moveOn (hK : K x = some (task, k)) (hown : k.owner = some c)
    (ht : Touches x p s.ledger p' b') (hx : task.taskId = x) (hk : Kept task (aspect p' b' x) k')
    (hafter : ∀ st, stage = some st → st.target = none ∨ st.target = some x ∧ k'.owner = some c
      ∧ st.Fits k')
    (howner : ∀ c', k'.owner = some c' → c' = c ∧ ∃ st, stage = some st ∧ st.target = some x) :
    Entrusted { redis := RedisTaskQueue.encode p', busy := s.setBusy c stage, ledger := b' } p'
      (Function.update K x (some (task, k'))) := by
  refine h.move ?_ ?_ ht hx hk hafter howner
  · intro st₀ hst₀
    rw [hbusy] at hst₀
    cases hst₀
    exact .inr htarget
  · intro task₀ k₀ c₀ hK₀ hown₀
    rw [hK] at hK₀
    cases hK₀
    rw [hown] at hown₀
    exact (Option.some.inj hown₀).symm

/-- The client goes on with its task. -/
theorem Entrusted.advance {st' : RedisStage} (hK : K x = some (task, k)) (hown : k.owner = some c)
    (k' : Custody C) (ht : Touches x p s.ledger p' b') (hx : task.taskId = x)
    (hk : Kept task (aspect p' b' x) k') (hst' : st'.target = some x) (hown' : k'.owner = some c)
    (hfits : st'.Fits k') :
    Entrusted { redis := RedisTaskQueue.encode p', busy := s.setBusy c (some st'), ledger := b' }
      p' (Function.update K x (some (task, k'))) := by
  refine h.moveOn hbusy htarget hK hown ht hx hk ?_ ?_
  · rintro _ ⟨rfl⟩
    exact .inr ⟨hst', hown', hfits⟩
  · intro c₀ hown₀
    rw [hown'] at hown₀
    exact ⟨(Option.some.inj hown₀).symm, st', rfl, hst'⟩

/-- The client is done with its task. -/
theorem Entrusted.settle (hK : K x = some (task, k)) (hown : k.owner = some c)
    (k' : Custody C) (ht : Touches x p s.ledger p' b') (hx : task.taskId = x)
    (hk : Kept task (aspect p' b' x) k') (hstage : ∀ st, stage = some st → st.target = none)
    (hown' : k'.owner = none) :
    Entrusted { redis := RedisTaskQueue.encode p', busy := s.setBusy c stage, ledger := b' }
      p' (Function.update K x (some (task, k'))) := by
  refine h.moveOn hbusy htarget hK hown ht hx hk ?_ ?_
  · exact fun st₀ hst₀ => .inl (hstage st₀ hst₀)
  · intro c₀ hown₀
    rw [hown'] at hown₀
    cases hown₀

end AtWork

/-- A client that works on no task takes up one that nobody works on. -/
theorem Entrusted.takeUp (h : Entrusted s p K)
    (hidle : ∀ st, s.busy c = some st → st.target = none)
    (hfree : ∀ task k, K x = some (task, k) → k.owner = none) {st : RedisStage}
    (ht : Touches x p s.ledger p' b') (hx : task.taskId = x) (hk : Kept task (aspect p' b' x) k)
    (hst : st.target = some x) (hown : k.owner = some c) (hfits : st.Fits k) :
    Entrusted { redis := RedisTaskQueue.encode p', busy := s.setBusy c (some st), ledger := b' }
      p' (Function.update K x (some (task, k))) := by
  refine h.move (fun st₀ hst₀ => .inl (hidle st₀ hst₀)) ?_ ht hx hk ?_ ?_
  · intro task₀ k₀ c₀ hK₀ hown₀
    rw [hfree task₀ k₀ hK₀] at hown₀
    cases hown₀
  · rintro _ ⟨rfl⟩
    exact .inr ⟨hst, hown, hfits⟩
  · intro c₀ hown₀
    rw [hown] at hown₀
    exact ⟨(Option.some.inj hown₀).symm, st, rfl, hst⟩

/-- A client's move that is about no task. -/
theorem Entrusted.pass (h : Entrusted s p K) (stage : Option RedisStage)
    (hbefore : ∀ st, s.busy c = some st → st.target = none)
    (hafter : ∀ st, stage = some st → st.target = none) :
    Entrusted { s with busy := s.setBusy c stage } p K where
  redis := h.redis
  known := h.known
  owned id task k c' hK hown := by
    obtain ⟨st, hst, htarget⟩ := h.owned id task k c' hK hown
    have hne : c' ≠ c := by
      rintro rfl
      rw [hbefore st hst] at htarget
      cases htarget
    exact ⟨st, by simpa [Clients.setBusy, hne] using hst, htarget⟩
  works c' st id hst htarget := by
    by_cases hc : c' = c
    · subst hc
      simp only [Clients.setBusy, Function.update_self] at hst
      rw [hafter st hst] at htarget
      cases htarget
    · simp only [Clients.setBusy, Function.update_of_ne hc] at hst
      exact h.works c' st id hst htarget

/-! ### The start of a call -/

theorem Entrusted.start_enqueue (h : Entrusted s p K) (hidle : s.busy c = none) {item : TaskItem}
    (hfresh : item.taskId ∉ s.ledger.taskIds) :
    ∃ K', Entrusted { s with
      busy := s.setBusy c (some (.enqueueSet { item with status := .pending }))
      ledger := s.ledger.record (.enqueued item) } p K' := by
  have hnone := h.none_of_fresh hfresh
  have hkept := Kept.begin item c
  have hnew := aspect_record (e := .enqueued item) (h.absent hnone) rfl
  rw [h.redis]
  refine ⟨_, h.takeUp (x := item.taskId) (by simp [hidle]) (by simp [hnone]) (touches_record rfl)
    rfl (k := .storing c { item with status := .pending }) ?_ rfl rfl rfl⟩
  rw [hnew]
  exact hkept

/-- An `ack` or `nack` takes the task out of the client's hands. -/
theorem Entrusted.start_return (h : Entrusted s p K) (hidle : s.busy c = none)
    (hheld : (s.ledger.held c x).isSome) {st : RedisStage} (hst : st.target = some x)
    (hfits : ∀ item, st.Fits (.returning c item)) :
    ∃ K', Entrusted { s with
      busy := s.setBusy c (some st), ledger := s.ledger.release c x } p K' := by
  obtain ⟨item, hitem⟩ := Option.isSome_iff_exists.mp hheld
  obtain ⟨task, hK, hx, hk⟩ := h.of_hands (mem_aspect_hands hitem)
  rw [h.redis]
  refine ⟨_, h.takeUp (by simp [hidle]) ?_ touches_release hx (k := .returning c item) ?_ hst rfl
    (hfits item)⟩
  · intro task₀ k₀ hK₀
    rw [hK] at hK₀
    cases hK₀
    rfl
  · rw [aspect_release rfl]
    convert hk.giveBack using 1
    simp [hk.hands]

/-! ### Commands -/

/-- After the command of this stage every task is accounted for. -/
def Leaves (s : Clients C) (c : C) (st : RedisStage) : Prop :=
  ∃ p' K', Entrusted
    { redis := (st.step s.redis).2
      busy := s.setBusy c (some (st.step s.redis).1)
      ledger := s.sent c st } p' K'

omit [DecidableEq C] in
/-- The custody in which a client is in this stage of its call. -/
theorem RedisStage.fits_cases {st : RedisStage} (h : st.Fits k) (hown : k.owner = some c) :
    (∃ item, st = .enqueueSet item ∧ k = .storing c item) ∨
    (∃ item, st = .enqueueRpush item ∧ k = .apart c item) ∨
    (∃ id w item, st = .dequeueGet id w ∧ k = .apart c item) ∨
    (∃ id w item, st = .dequeueSet id (item.taken w) ∧ k = .apart c item) ∨
    (∃ item, st = .done (.ok (.dequeued (some item))) ∧ k = .taking c item) ∨
    (∃ id item, st = .ackGet id ∧ k = .returning c item) ∨
    (∃ id item, st = .ackDelete id (taskToDict item) ∧ k = .returning c item) ∨
    (∃ id error item, st = .nackGet id error ∧ k = .returning c item) ∨
    (∃ id error item, st = .nackDelete id (item.rejected error .dead) ∧ k = .returning c item) ∨
    (∃ item, st = .nackRpushDead item ∧ k = .burying c item) ∨
    (∃ id error item, st = .nackSet id (item.rejected error .pending) ∧ k = .returning c item ∧
      item.attemptCount < item.maxRetries) ∨
    ∃ id item, st = .nackRpush id item ∧ k = .apart c item := by
  unfold Fits at h
  split at h <;> first | (cases hown; simp_all) | exact h.elim

theorem Leaves.of {st st' : RedisStage} {K' : String → Option (TaskItem × Custody C)}
    (hstep : st.step s.redis = (st', RedisTaskQueue.encode p')) (hsent : s.sent c st = b')
    (h : Entrusted ⟨RedisTaskQueue.encode p', s.setBusy c (some st'), b'⟩ p' K') :
    Leaves s c st := by
  subst hsent
  rw [Leaves, hstep]
  exact ⟨p', K', h⟩

/-- A command that the ledger does not note. -/
theorem Leaves.quiet {st st' : RedisStage} {K' : String → Option (TaskItem × Custody C)}
    (hstep : st.step s.redis = (st', RedisTaskQueue.encode p')) (hsent : s.sent c st = s.ledger)
    (h : Entrusted ⟨RedisTaskQueue.encode p', s.setBusy c (some st'), s.ledger⟩ p' K') :
    Leaves s c st := .of hstep hsent h

section Commands

open RedisTaskQueue

variable (h : Entrusted s p K) {id q w error : String} {item : TaskItem}

include h

theorem Entrusted.enqueueSet (hbusy : s.busy c = some (.enqueueSet item)) :
    Leaves s c (.enqueueSet item) := by
  obtain ⟨task, k, hK, hown, hfits, hx, hk⟩ := h.work hbusy rfl
  obtain rfl : k = .storing c item := by simpa using RedisStage.fits_cases hfits hown
  have hstep : (RedisStage.enqueueSet item).step s.redis
      = (.enqueueRpush item, encode (p.write item.taskId (some item))) := by
    simp [RedisStage.step, h.redis, encode_write]
  refine .quiet hstep rfl
    (h.advance hbusy rfl hK rfl (.apart c item) touches_write hx ?_ rfl rfl rfl)
  rw [aspect_write rfl]
  exact hk.store

/-- The client puts the item it holds at the end of its queue, and is done. -/
theorem Entrusted.rpush {st st' : RedisStage} {task : TaskItem} (hbusy : s.busy c = some st)
    (htarget : st.target = some id) (hst' : st'.target = none) (hsent : s.sent c st = s.ledger)
    (hstep : st.step s.redis = (st', encode (p.push item.queueName id)))
    (hK : K id = some (task, .apart c item)) (hx : task.taskId = id)
    (hk : Kept task (aspect p s.ledger id) (.apart c item)) : Leaves s c st := by
  refine .quiet hstep hsent (h.settle hbusy htarget hK rfl (.waiting item) touches_push hx ?_
    (by rintro _ ⟨rfl⟩; exact hst') rfl)
  rw [aspect_push rfl]
  convert hk.lineUp using 1
  simp [hk.queue]

theorem Entrusted.enqueueRpush (hbusy : s.busy c = some (.enqueueRpush item)) :
    Leaves s c (.enqueueRpush item) := by
  obtain ⟨task, k, hK, hown, hfits, hx, hk⟩ := h.work hbusy rfl
  obtain rfl : k = .apart c item := by simpa using RedisStage.fits_cases hfits hown
  have hstep : (RedisStage.enqueueRpush item).step s.redis
      = (.done (.ok (.enqueued item)), encode (p.push item.queueName item.taskId)) := by
    rw [h.redis]
    rfl
  exact h.rpush hbusy rfl rfl rfl hstep hK hx hk

theorem Entrusted.dequeueLpop (hbusy : s.busy c = some (.dequeueLpop q w)) :
    Leaves s c (.dequeueLpop q w) := by
  have hidle : ∀ st, s.busy c = some st → st.target = none := by
    intro st hst
    rw [hbusy] at hst
    cases hst
    rfl
  rcases hq : p.queue q with _ | ⟨id, rest⟩
  · have hpop : p.pop q = p := by
      rw [Pool.pop, hq, List.tail_nil, ← hq, Function.update_eq_self]
    have hstep : (RedisStage.dequeueLpop q w).step s.redis
        = (.done (.ok (.dequeued none)), encode (p.pop q)) := by
      simp only [RedisStage.step, h.redis, encode_queue, hq, List.head?_nil]
      rw [← hq]
      rfl
    have hpass := h.pass (c := c) (some (.done (.ok (.dequeued none)))) hidle
      (by rintro _ ⟨rfl⟩; rfl)
    rw [hpop] at hstep
    rw [h.redis] at hpass
    exact .quiet hstep rfl hpass
  · obtain ⟨task, item, hK, hx, hk, hname⟩ := h.waiting (x := id) (q := q) (by simp [hq])
    have hstep : (RedisStage.dequeueLpop q w).step s.redis
        = (.dequeueGet id w, encode (p.pop q)) := by
      simp only [RedisStage.step, h.redis, encode_queue, hq, List.head?_cons]
      rw [← hq]
      rfl
    refine .quiet hstep rfl (h.takeUp hidle ?_ (touches_pop hq) hx (k := .apart c item) ?_ rfl rfl
      trivial)
    · intro task₀ k₀ hK₀
      rw [hK] at hK₀
      cases hK₀
      rfl
    · rw [aspect_pop rfl hq]
      convert hk.pop c using 1
      simp [hk.queue, hname]

theorem Entrusted.dequeueGet (hbusy : s.busy c = some (.dequeueGet id w)) :
    Leaves s c (.dequeueGet id w) := by
  obtain ⟨task, k, hK, hown, hfits, hx, hk⟩ := h.work hbusy rfl
  obtain ⟨item, rfl⟩ : ∃ item, k = .apart c item := by
    simpa using RedisStage.fits_cases hfits hown
  have hitem : p.item id = some item := hk.item
  have hstep : (RedisStage.dequeueGet id w).step s.redis
      = (.dequeueSet id (item.taken w), encode p) := by
    simp [RedisStage.step, h.redis, hitem, dictToTask_taskToDict, RedisStage.taking]
  exact .quiet hstep rfl (h.advance hbusy rfl hK rfl (.apart c item) (fun _ _ => rfl) hx hk rfl rfl
    ⟨w, rfl⟩)

theorem Entrusted.dequeueSet (hbusy : s.busy c = some (.dequeueSet id item)) :
    Leaves s c (.dequeueSet id item) := by
  obtain ⟨task, k, hK, hown, hfits, hx, hk⟩ := h.work hbusy rfl
  obtain ⟨w, old, rfl, rfl⟩ : ∃ w old, item = TaskItem.taken old w ∧ k = .apart c old := by
    simpa using RedisStage.fits_cases hfits hown
  have hstep : (RedisStage.dequeueSet id (old.taken w)).step s.redis
      = (.done (.ok (.dequeued (some (old.taken w)))),
        encode (p.write id (some (old.taken w)))) := by
    simp [RedisStage.step, h.redis, encode_write]
  refine .quiet hstep rfl (h.advance hbusy rfl hK rfl (.taking c (old.taken w)) touches_write hx ?_
    (congrArg some (hk.tracks.taskId.trans hx)) rfl rfl)
  rw [aspect_write rfl]
  exact hk.take w

theorem Entrusted.ackGet (hbusy : s.busy c = some (.ackGet id)) : Leaves s c (.ackGet id) := by
  obtain ⟨task, k, hK, hown, hfits, hx, hk⟩ := h.work hbusy rfl
  obtain ⟨item, rfl⟩ : ∃ item, k = .returning c item := by
    simpa using RedisStage.fits_cases hfits hown
  have hitem : p.item id = some item := hk.item
  have hstep : (RedisStage.ackGet id).step s.redis
      = (.ackDelete id (taskToDict item), encode p) := by
    simp [RedisStage.step, h.redis, hitem]
  exact .quiet hstep rfl (h.advance hbusy rfl hK rfl (.returning c item) (fun _ _ => rfl) hx hk rfl
    rfl rfl)

theorem Entrusted.ackDelete {raw : Json} (hbusy : s.busy c = some (.ackDelete id raw)) :
    Leaves s c (.ackDelete id raw) := by
  obtain ⟨task, k, hK, hown, hfits, hx, hk⟩ := h.work hbusy rfl
  obtain ⟨item, rfl, rfl⟩ : ∃ item, raw = taskToDict item ∧ k = .returning c item := by
    simpa using RedisStage.fits_cases hfits hown
  have hid : item.taskId = id := hk.tracks.taskId.trans hx
  have hstep : (RedisStage.ackDelete id (taskToDict item)).step s.redis
      = (.done (.ok (.found true)), encode (p.write id none)) := by
    simp [RedisStage.step, h.redis, encode_write]
  have hsent : s.sent c (.ackDelete id (taskToDict item)) = s.ledger.record (.acked c item) := by
    simp [Clients.sent, dictToTask_taskToDict]
  refine .of hstep hsent (h.settle hbusy rfl hK rfl (.acked item)
    (touches_write.trans (touches_record hid)) hx ?_ (by rintro _ ⟨rfl⟩; rfl) rfl)
  rw [aspect_record (e := .acked c item) (aspect_write rfl none) hid]
  exact hk.ack

theorem Entrusted.nackGet (hbusy : s.busy c = some (.nackGet id error)) :
    Leaves s c (.nackGet id error) := by
  obtain ⟨task, k, hK, hown, hfits, hx, hk⟩ := h.work hbusy rfl
  obtain ⟨item, rfl⟩ : ∃ item, k = .returning c item := by
    simpa using RedisStage.fits_cases hfits hown
  have hitem : p.item id = some item := hk.item
  have hstep : (RedisStage.nackGet id error).step s.redis
      = (RedisStage.rejecting id error (.ok item), encode p) := by
    simp [RedisStage.step, h.redis, hitem, dictToTask_taskToDict]
  have htouch : Touches id p s.ledger p s.ledger := fun _ _ => rfl
  by_cases hexhausted : item.attemptCount ≥ item.maxRetries
  · simp only [RedisStage.rejecting, if_pos hexhausted] at hstep
    exact .quiet hstep rfl (h.advance hbusy rfl hK rfl (.returning c item) htouch hx hk rfl rfl
      ⟨error, rfl⟩)
  · simp only [RedisStage.rejecting, if_neg hexhausted] at hstep
    exact .quiet hstep rfl (h.advance hbusy rfl hK rfl (.returning c item) htouch hx hk rfl rfl
      ⟨Int.not_le.mp hexhausted, error, rfl⟩)

theorem Entrusted.nackDelete (hbusy : s.busy c = some (.nackDelete id item)) :
    Leaves s c (.nackDelete id item) := by
  obtain ⟨task, k, hK, hown, hfits, hx, hk⟩ := h.work hbusy rfl
  obtain ⟨error, old, rfl, rfl⟩ :
      ∃ error old, item = TaskItem.rejected old error .dead ∧ k = .returning c old := by
    simpa using RedisStage.fits_cases hfits hown
  have hstep : (RedisStage.nackDelete id (old.rejected error .dead)).step s.redis
      = (.nackRpushDead (old.rejected error .dead), encode (p.write id none)) := by
    simp [RedisStage.step, h.redis, encode_write]
  refine .quiet hstep rfl (h.advance hbusy rfl hK rfl (.burying c (old.rejected error .dead))
    touches_write hx ?_ (congrArg some (hk.tracks.taskId.trans hx)) rfl rfl)
  rw [aspect_write rfl]
  exact hk.remove error

theorem Entrusted.nackRpushDead (hbusy : s.busy c = some (.nackRpushDead item)) :
    Leaves s c (.nackRpushDead item) := by
  obtain ⟨task, k, hK, hown, hfits, hx, hk⟩ := h.work hbusy rfl
  obtain rfl : k = .burying c item := by simpa using RedisStage.fits_cases hfits hown
  have hstep : (RedisStage.nackRpushDead item).step s.redis
      = (.done (.ok (.found true)), encode (p.bury item)) := by
    simp [RedisStage.step, h.redis, encode_bury]
  refine .quiet hstep rfl (h.settle hbusy rfl hK rfl (.dead item) (touches_bury rfl) hx ?_
    (by rintro _ ⟨rfl⟩; rfl) rfl)
  rw [aspect_bury rfl rfl]
  convert hk.bury using 1
  simp [hk.dead]

theorem Entrusted.nackSet (hbusy : s.busy c = some (.nackSet id item)) :
    Leaves s c (.nackSet id item) := by
  obtain ⟨task, k, hK, hown, hfits, hx, hk⟩ := h.work hbusy rfl
  obtain ⟨error, old, rfl, rfl, hretry⟩ : ∃ error old, item = TaskItem.rejected old error .pending ∧
      k = .returning c old ∧ old.attemptCount < old.maxRetries := by
    simpa using RedisStage.fits_cases hfits hown
  have hstep : (RedisStage.nackSet id (old.rejected error .pending)).step s.redis
      = (.nackRpush id (old.rejected error .pending),
        encode (p.write id (some (old.rejected error .pending)))) := by
    simp [RedisStage.step, h.redis, encode_write]
  refine .quiet hstep rfl (h.advance hbusy rfl hK rfl (.apart c (old.rejected error .pending))
    touches_write hx ?_ rfl rfl rfl)
  rw [aspect_write rfl]
  exact hk.reset error hretry

theorem Entrusted.nackRpush (hbusy : s.busy c = some (.nackRpush id item)) :
    Leaves s c (.nackRpush id item) := by
  obtain ⟨task, k, hK, hown, hfits, hx, hk⟩ := h.work hbusy rfl
  obtain rfl : k = .apart c item := by simpa using RedisStage.fits_cases hfits hown
  have hstep : (RedisStage.nackRpush id item).step s.redis
      = (.done (.ok (.found true)), encode (p.push item.queueName id)) := by
    rw [h.redis]
    rfl
  exact h.rpush hbusy rfl rfl rfl hstep hK hx hk

end Commands

theorem Entrusted.llen (h : Entrusted s p K) {q : String} (hbusy : s.busy c = some (.llen q)) :
    Leaves s c (.llen q) := by
  have hpass := h.pass (c := c) (some (.done (.ok (.length (s.redis.queue q).length))))
    (by simp [hbusy, RedisStage.target]) (by rintro _ ⟨rfl⟩; rfl)
  exact ⟨p, K, hpass⟩

theorem Entrusted.lrange (h : Entrusted s p K) {q : String}
    (hbusy : s.busy c = some (.lrange q)) : Leaves s c (.lrange q) := by
  have hpass := h.pass (c := c) (some (.done (((s.redis.dead q).mapM dictToTask).map .items)))
    (by simp [hbusy, RedisStage.target]) ?_
  · exact ⟨p, K, hpass⟩
  · rintro _ ⟨rfl⟩
    rcases (s.redis.dead q).mapM dictToTask with e | items <;> rfl

theorem Entrusted.command (h : Entrusted s p K) {st : RedisStage} (hbusy : s.busy c = some st)
    (hnd : st.isDone = false) : Leaves s c st := by
  cases st with
  | enqueueSet item => exact h.enqueueSet hbusy
  | enqueueRpush item => exact h.enqueueRpush hbusy
  | dequeueLpop q w => exact h.dequeueLpop hbusy
  | dequeueGet id w => exact h.dequeueGet hbusy
  | dequeueSet id item => exact h.dequeueSet hbusy
  | ackGet id => exact h.ackGet hbusy
  | ackDelete id raw => exact h.ackDelete hbusy
  | nackGet id error => exact h.nackGet hbusy
  | nackDelete id item => exact h.nackDelete hbusy
  | nackRpushDead item => exact h.nackRpushDead hbusy
  | nackSet id item => exact h.nackSet hbusy
  | nackRpush id item => exact h.nackRpush hbusy
  | llen q => exact h.llen hbusy
  | lrange q => exact h.lrange hbusy
  | done result => cases hnd

/-! ### Whole runs -/

theorem Entrusted.start (h : Entrusted s p K) (hidle : s.busy c = none) {call : QueueCall}
    (hallows : s.allows c call) :
    ∃ K', Entrusted { s with
      busy := s.setBusy c (some (.start call)), ledger := s.begun c call } p K' := by
  cases call with
  | enqueue item => exact h.start_enqueue hidle (by simpa [Clients.allows] using hallows)
  | ack id => exact h.start_return hidle hallows rfl fun _ => trivial
  | nack id error => exact h.start_return hidle hallows rfl fun _ => trivial
  | dequeue | queueLength | peekDeadLetter =>
    exact ⟨K, h.pass _ (by simp [hidle]) (by rintro _ ⟨rfl⟩; rfl)⟩

theorem Entrusted.finish (h : Entrusted s p K) {result : Except PyError QueueResult}
    (hbusy : s.busy c = some (.done result)) :
    ∃ K', Entrusted { s with
      busy := s.setBusy c none, ledger := s.returned c result } p K' := by
  have hpass : (RedisStage.done result).target = none →
      Entrusted { s with busy := s.setBusy c none } p K := by
    intro htarget
    refine h.pass none ?_ (by simp)
    intro st hst
    rw [hbusy] at hst
    cases hst
    exact htarget
  rcases result with e | (item | (_ | item) | found | length | items)
  · exact ⟨K, hpass rfl⟩
  · exact ⟨K, hpass rfl⟩
  · exact ⟨K, hpass rfl⟩
  · obtain ⟨task, k, hK, hown, hfits, hx, hk⟩ := h.work hbusy rfl
    obtain rfl : k = .taking c item := by simpa using RedisStage.fits_cases hfits hown
    rw [h.redis]
    refine ⟨_, h.settle hbusy rfl hK rfl (.held c item)
      ((touches_give rfl).trans (touches_record rfl)) hx ?_ (by simp) rfl⟩
    have hreturned : s.returned c (.ok (.dequeued (some item)))
        = (s.ledger.give c item).record (.dequeued c item.queueName item) := rfl
    rw [hreturned, aspect_record (x := item.taskId) (e := .dequeued c item.queueName item)
      (aspect_give rfl c rfl) rfl]
    convert hk.give using 1
    simp [hk.hands]
  · exact ⟨K, hpass rfl⟩
  · exact ⟨K, hpass rfl⟩
  · exact ⟨K, hpass rfl⟩

theorem Entrusted.step (h : Entrusted s p K) {action : ClientAction C}
    (hs : s.step action = some s') : ∃ p' K', Entrusted s' p' K' := by
  cases action with
  | start c call =>
    simp only [Clients.step] at hs
    split at hs
    · cases hs
    · split_ifs at hs with hallows
      cases hs
      exact ⟨p, h.start ‹_› hallows⟩
  | command c =>
    simp only [Clients.step] at hs
    split at hs
    · cases hs
    · cases hs
    · rename_i stage hnd hbusy
      cases hs
      refine h.command hbusy ?_
      cases stage with
      | done result => exact (hnd result rfl).elim
      | _ => rfl
  | finish c =>
    simp only [Clients.step] at hs
    split at hs
    · cases hs
      exact ⟨p, h.finish ‹_›⟩
    · cases hs

omit [DecidableEq C] in
theorem entrusted_empty : Entrusted ({} : Clients C) {} (fun _ => none) where
  redis := rfl
  known _ := rfl
  owned _ _ _ _ h := by cases h
  works _ _ _ h := by cases h

theorem Entrusted.run : ∀ (actions : List (ClientAction C)) {s : Clients C} {p : Pool}
    {K : String → Option (TaskItem × Custody C)}, Entrusted s p K → s.run actions = some s' →
    ∃ p' K', Entrusted s' p' K'
  | [], _, _, _, h, hs => by
    cases hs
    exact ⟨_, _, h⟩
  | action :: actions, s, _, _, h, hs => by
    simp only [Clients.run] at hs
    split at hs
    · rename_i s₁ hs₁
      obtain ⟨p₁, K₁, h₁⟩ := h.step hs₁
      exact Entrusted.run actions h₁ hs
    · cases hs

end Entrusted

end AgentLearning
