import AgentLearning.Proofs.Custody

/-!
# Many clients, and clients that stop

What follows over every interleaving from every task being in one custody: a task has one client at
most, a popped id has a record, and with no call in progress every task is in one place. A task
whose client stops can still be found unless the client stopped with the record out of line, or
with no record at all.
-/

namespace AgentLearning

variable {C : Type} {s : Clients C} {p : Pool} {K : String → Option (TaskItem × Custody C)}
  {task : TaskItem} {a : Aspect C} {k : Custody C}

/-- The client that has the task in its hands or works on it. -/
def Custody.user : Custody C → Option C
  | .held client _ => some client
  | k => k.owner

theorem Custody.record_eq {item : TaskItem} (h : k.record = some item) : k.item = item := by
  cases k <;> simp_all

theorem Kept.attempts_le (h : Kept task a k) (h₀ : 0 ≤ task.attemptCount) :
    (a.log.countP QueueEvent.isDequeue : ℤ) ≤ k.item.attemptCount := by
  have := h.tracks.attempts
  omega

theorem Kept.dequeues_le (h : Kept task a k) (h₀ : 0 ≤ task.attemptCount) :
    (a.log.countP QueueEvent.isDequeue : ℤ) ≤ max 1 task.maxRetries := by
  have hattempts := h.tracks.attempts
  have hretried := h.tracks.retried
  have hmax := h.tracks.maxRetries
  split_ifs at hretried <;> omega

/-- The custody of a task that no client works on. -/
def Place.custody : Place C → Custody C
  | .waiting item => .waiting item
  | .held client item => .held client item
  | .dead item => .dead item
  | .acked item => .acked item

theorem Custody.exists_place (hown : k.owner = none) : ∃ place : Place C, place.custody = k := by
  cases k with
  | waiting item => exact ⟨.waiting item, rfl⟩
  | held c item => exact ⟨.held c item, rfl⟩
  | dead item => exact ⟨.dead item, rfl⟩
  | acked item => exact ⟨.acked item, rfl⟩
  | _ => cases hown

theorem Kept.located {place : Place C} (h : Kept task a place.custody) :
    Located task a place := by
  cases place <;>
    exact ⟨h.queue, h.item, h.hands, h.dead, h.tasks, h.acked, h.tracks.taskId,
      h.tracks.queueName, h.tracks.maxRetries, h.tracks.status, h.tracks.attempts,
      h.tracks.retried⟩

theorem Entrusted.view (h : Entrusted s p K) : RedisTaskQueue.view s.redis = p := by
  rw [h.redis, RedisTaskQueue.view_encode]

theorem Entrusted.of_enqueued (h : Entrusted s p K) (ht : .enqueued task ∈ s.ledger.log) :
    ∃ k, K task.taskId = some (task, k) ∧ Kept task (aspect p s.ledger task.taskId) k := by
  have hmem : task ∈ (aspect p s.ledger task.taskId).log.filterMap QueueEvent.task? :=
    mem_aspect_tasks ht
  rcases hK : K task.taskId with _ | ⟨task', k⟩
  · simp [h.absent hK, Aspect.absent] at hmem
  · have hk := (h.kept hK).2
    rw [hk.tasks, List.mem_singleton] at hmem
    subst hmem
    exact ⟨k, rfl, hk⟩

/-! ## Interleavings -/

/-- The client was given the task and has not called `ack` or `nack`, or it is in a call about
it. -/
def Clients.Has (s : Clients C) (c : C) (id : String) : Prop :=
  (∃ item, (c, item) ∈ s.ledger.hands ∧ item.taskId = id) ∨
    ∃ st, s.busy c = some st ∧ st.target = some id

theorem Entrusted.user (h : Entrusted s p K) {c : C} {id : String} (hc : s.Has c id) :
    ∃ task k, K id = some (task, k) ∧ k.user = some c := by
  rcases hc with ⟨item, hitem, hid⟩ | ⟨st, hst, htarget⟩
  · have hmem : (c, item) ∈ (aspect p s.ledger id).hands :=
      List.mem_filter.mpr ⟨hitem, by simpa using hid⟩
    obtain ⟨task, hK, -⟩ := h.of_hands hmem
    exact ⟨task, _, hK, rfl⟩
  · obtain ⟨task, k, hK, hown, -⟩ := h.works c st id hst htarget
    refine ⟨task, k, hK, ?_⟩
    cases k <;> first | exact hown | cases hown

theorem Entrusted.hands_le_one (h : Entrusted s p K) (id : String) :
    (s.ledger.hands.filter fun hand => hand.2.taskId = id).length ≤ 1 := by
  show (aspect p s.ledger id).hands.length ≤ 1
  rcases hK : K id with _ | ⟨task, k⟩
  · simp [h.absent hK, Aspect.absent]
  · rw [(h.kept hK).2.hands]
    cases k <;> simp

/-! ## Clients that stop -/

/-- The commands of the task's `enqueue` were all sent. -/
def Clients.Enqueued (s : Clients C) (task : TaskItem) : Prop :=
  .enqueued task ∈ s.ledger.log ∧ ∀ c item, item.taskId = task.taskId →
    s.busy c ≠ some (.enqueueSet item) ∧ s.busy c ≠ some (.enqueueRpush item)

/-- An `ack` of its holder deleted the record. -/
def Clients.Acked (s : Clients C) (id : String) : Prop :=
  ∃ c item, .acked c item ∈ s.ledger.log ∧ item.taskId = id

/-- The id is in line in its queue, or its record says that it is being processed, or it is among
the dead letters of its queue. -/
def Clients.Discoverable (s : Clients C) (task : TaskItem) : Prop :=
  task.taskId ∈ s.redis.queue task.queueName ∨
    (∃ item, (RedisTaskQueue.view s.redis).item task.taskId = some item ∧
      item.status = .processing) ∨
    ∃ item ∈ (RedisTaskQueue.view s.redis).dead task.queueName, item.taskId = task.taskId

/-- A client is, or has stopped, between the `LPOP` and the `SET` of a `dequeue` of the task, or
between the two writes of a `nack` of it. -/
def Clients.Between (s : Clients C) (id : String) : Prop :=
  ∃ c, (∃ w, s.busy c = some (.dequeueGet id w)) ∨
    (∃ item, s.busy c = some (.dequeueSet id item)) ∨
    (∃ item, s.busy c = some (.nackRpush id item)) ∨
    ∃ item, item.taskId = id ∧ s.busy c = some (.nackRpushDead item)

theorem Entrusted.not_between (h : Entrusted s p K) {id : String} (hK : K id = some (task, k))
    (hk : ∀ c item, k ≠ .apart c item ∧ k ≠ .burying c item) : ¬ s.Between id := by
  have key : ∀ c st, s.busy c = some st → st.target = some id → st.Fits k := by
    intro c st hst htarget
    obtain ⟨task', k', hK', -, hfits⟩ := h.works c st id hst htarget
    rw [hK] at hK'
    cases hK'
    exact hfits
  rintro ⟨c, ⟨w, hb⟩ | ⟨item, hb⟩ | ⟨item, hb⟩ | ⟨item, rfl, hb⟩⟩
  all_goals
    have hfits := key c _ hb rfl
    cases k <;> first | exact hfits | exact absurd rfl (hk _ _).1 | exact absurd rfl (hk _ _).2

/-- Where a task can be found, by its custody. -/
theorem Entrusted.discoverable_iff (h : Entrusted s p K)
    (hk : Kept task (aspect p s.ledger task.taskId) k) :
    s.Discoverable task ↔ k.inQueue task.queueName ≠ 0 ∨
      (∃ item, k.record = some item ∧ item.status = .processing) ∨
      k.inDead task.queueName ≠ [] := by
  have hqueue : task.taskId ∈ s.redis.queue task.queueName ↔ k.inQueue task.queueName ≠ 0 := by
    rw [← hk.queue, h.redis]
    simp [aspect, List.count_eq_zero]
  have hitem : p.item task.taskId = k.record := hk.item
  have hdead : (∃ item ∈ p.dead task.queueName, item.taskId = task.taskId) ↔
      k.inDead task.queueName ≠ [] := by
    rw [← hk.dead]
    simp [aspect, List.filter_eq_nil_iff]
  rw [Clients.Discoverable, hqueue, h.view, hitem, hdead]

/-- The client at work on a task, in its stage. -/
theorem Entrusted.at_work (h : Entrusted s p K) {id : String} (hK : K id = some (task, k)) {c : C}
    (hown : k.owner = some c) : ∃ st, s.busy c = some st ∧ st.target = some id ∧ st.Fits k := by
  obtain ⟨st, hst, htarget⟩ := h.owned id task k c hK hown
  obtain ⟨task', k', hK', -, hfits⟩ := h.works c st id hst htarget
  rw [hK] at hK'
  cases hK'
  exact ⟨st, hst, htarget, hfits⟩

theorem Entrusted.between_of_apart (h : Entrusted s p K) (ht : s.Enqueued task) {c : C}
    {item : TaskItem} (hK : K task.taskId = some (task, .apart c item)) :
    s.Between task.taskId := by
  obtain ⟨st, hst, htarget, hfits⟩ := h.at_work hK rfl
  have hcases := RedisStage.fits_cases hfits rfl
  simp only [Custody.apart.injEq, reduceCtorEq, and_false, false_and, exists_false, false_or]
    at hcases
  rcases hcases with ⟨i, rfl, -⟩ | ⟨id, w, i, rfl, -⟩ | ⟨id, w, i, rfl, -⟩ | ⟨id, i, rfl, -⟩
  · exact absurd hst (ht.2 c i (Option.some.inj htarget)).2
  · exact ⟨c, .inl ⟨w, Option.some.inj htarget ▸ hst⟩⟩
  · exact ⟨c, .inr (.inl ⟨_, Option.some.inj htarget ▸ hst⟩)⟩
  · exact ⟨c, .inr (.inr (.inl ⟨i, Option.some.inj htarget ▸ hst⟩))⟩

theorem Entrusted.between_of_burying (h : Entrusted s p K) {c : C} {item : TaskItem} {id : String}
    (hK : K id = some (task, .burying c item)) : s.Between id := by
  obtain ⟨st, hst, htarget, hfits⟩ := h.at_work hK rfl
  obtain rfl : st = .nackRpushDead item := by simpa using RedisStage.fits_cases hfits rfl
  exact ⟨c, .inr (.inr (.inr ⟨item, Option.some.inj htarget, hst⟩))⟩

variable [DecidableEq C]

/-- Over every interleaving of any clients: a task is in one client's hands at most and no two
clients have it, a popped id has a record, the attempts stored are no less than the dequeues that
returned and these are bounded, and with no call in progress every task is in one place. -/
theorem clients_safe {actions : List (ClientAction C)}
    (hrun : ({} : Clients C).run actions = some s) :
    (∀ id, (s.ledger.hands.filter fun hand => hand.2.taskId = id).length ≤ 1 ∧
      ∀ c c', s.Has c id → s.Has c' id → c = c') ∧
    (∀ c id w, s.busy c = some (.dequeueGet id w) →
      ((RedisTaskQueue.view s.redis).item id).isSome) ∧
    (∀ task, .enqueued task ∈ s.ledger.log → 0 ≤ task.attemptCount →
      (∀ item, (RedisTaskQueue.view s.redis).item task.taskId = some item →
        (s.ledger.dequeues task.taskId : ℤ) ≤ item.attemptCount) ∧
      (s.ledger.dequeues task.taskId : ℤ) ≤ max 1 task.maxRetries) ∧
    ((∀ c, s.busy c = none) → ∀ task, .enqueued task ∈ s.ledger.log →
      ∃! place, Located task
        (aspect (RedisTaskQueue.view s.redis) s.ledger task.taskId) place) := by
  obtain ⟨p, K, h⟩ := entrusted_empty.run actions hrun
  rw [h.view]
  refine ⟨fun id => ⟨h.hands_le_one id, fun c c' hc hc' => ?_⟩, fun c id w hbusy => ?_,
    fun task ht h₀ => ?_, fun hidle task ht => ?_⟩
  · obtain ⟨task, k, hK, hk⟩ := h.user hc
    obtain ⟨task', k', hK', hk'⟩ := h.user hc'
    rw [hK] at hK'
    cases hK'
    rw [hk] at hk'
    exact Option.some.inj hk'
  · obtain ⟨task, k, -, hown, hfits, -, hk⟩ := h.work hbusy rfl
    obtain ⟨item, rfl⟩ : ∃ item, k = .apart c item := by
      simpa using RedisStage.fits_cases hfits hown
    have hitem : p.item id = some item := hk.item
    simp [hitem]
  · obtain ⟨k, -, hk⟩ := h.of_enqueued ht
    refine ⟨fun item hitem => ?_, hk.dequeues_le h₀⟩
    rw [← Custody.record_eq (hk.item.symm.trans hitem)]
    exact hk.attempts_le h₀
  · obtain ⟨k, hK, hk⟩ := h.of_enqueued ht
    have hown : k.owner = none := by
      rcases hown : k.owner with _ | c
      · rfl
      · obtain ⟨st, hst, -⟩ := h.owned _ task k c hK hown
        simp [hidle c] at hst
    obtain ⟨place, rfl⟩ := Custody.exists_place hown
    exact ⟨place, hk.located, fun place' hplace' => hplace'.unique hk.located⟩

/-- One client enqueues a task; two others call `dequeue` at once, one gets the task and acks it. -/
def racingClients : List (ClientAction ℕ) :=
  [.start 0 (.enqueue (sampleTask "t" 1)), .start 1 (.dequeue "q" "w1"),
    .start 2 (.dequeue "q" "w2"), .command 0, .command 0, .command 2, .command 1, .finish 1,
    .command 2, .command 2, .finish 0, .finish 2, .start 2 (.ack "t"), .command 2, .command 2,
    .finish 2]

theorem clients_safe_racing : ∃ s, ({} : Clients ℕ).run racingClients = some s ∧
    s.ledger.dequeues "t" = 1 ∧
    (s.ledger.dequeues "t" : ℤ) ≤ max 1 (sampleTask "t" 1).maxRetries := by
  refine ⟨_, rfl, rfl, ?_⟩
  have hrun : ({} : Clients ℕ).run racingClients = some _ := rfl
  exact ((clients_safe hrun).2.2.1 (sampleTask "t" 1) (List.Mem.head _) (by decide)).2

/-- A task that is enqueued with a negative count of attempts is taken out more often than it may
be, and the attempts stored fall behind. -/
theorem negative_attempts_fall_behind :
    let task : TaskItem := { sampleTask "t" 1 with attemptCount := -1 }
    let dequeueOnce : List (ClientAction ℕ) :=
      [.start 0 (.dequeue "q" "w"), .command 0, .command 0, .command 0, .finish 0]
    let actions : List (ClientAction ℕ) :=
      [.start 0 (.enqueue task), .command 0, .command 0, .finish 0] ++ dequeueOnce ++
        [.start 0 (.nack "t" "e"), .command 0, .command 0, .command 0, .finish 0] ++ dequeueOnce
    ∃ s, ({} : Clients ℕ).run actions = some s ∧ s.ledger.dequeues "t" = 2 ∧
      max 1 task.maxRetries = 1 ∧
      ((RedisTaskQueue.view s.redis).item "t").map (·.attemptCount) = some 1 :=
  ⟨_, rfl, rfl, rfl, rfl⟩

/-- A task that was enqueued and not acked can be found, whichever clients have stopped, exactly if
none of them is between two commands of a `dequeue` or `nack` that take it off one list and
put it on the next. -/
theorem discoverable_iff_not_between {actions : List (ClientAction C)}
    (hrun : ({} : Clients C).run actions = some s) (task : TaskItem) (ht : s.Enqueued task)
    (hack : ¬ s.Acked task.taskId) : s.Discoverable task ↔ ¬ s.Between task.taskId := by
  obtain ⟨p, K, h⟩ := entrusted_empty.run actions hrun
  obtain ⟨k, hK, hk⟩ := h.of_enqueued ht.1
  rw [h.discoverable_iff hk]
  have hname := hk.tracks.queueName
  have hstatus := hk.tracks.status
  cases k with
  | storing c item =>
    obtain ⟨st, hst, htarget, hfits⟩ := h.at_work hK rfl
    obtain rfl : st = .enqueueSet item := by simpa using RedisStage.fits_cases hfits rfl
    exact absurd hst (ht.2 c item (Option.some.inj htarget)).1
  | apart c item =>
    have hbetween := h.between_of_apart ht hK
    simp only [Custody.HasStatus] at hstatus
    simp [hbetween, hstatus]
  | burying c item =>
    have hbetween := h.between_of_burying hK
    simp [hbetween]
  | waiting item =>
    have hnot := h.not_between hK (by simp)
    simp only [Custody.item] at hname
    simp [hnot, hname]
  | dead item =>
    have hnot := h.not_between hK (by simp)
    simp only [Custody.item] at hname
    simp [hnot, hname]
  | acked item =>
    have hmem : item ∈ (aspect p s.ledger task.taskId).log.filterMap QueueEvent.acked? := by
      simp [hk.acked]
    obtain ⟨event, hevent, hitem⟩ := List.mem_filterMap.mp hmem
    obtain ⟨hlog, -⟩ := List.mem_filter.mp hevent
    cases event with
    | acked c item' =>
      cases hitem
      exact absurd ⟨c, item, hlog, hk.tracks.taskId⟩ hack
    | _ => cases hitem
  | taking c item | held c item | returning c item =>
    have hnot := h.not_between hK (by simp)
    simp only [Custody.HasStatus] at hstatus
    simp [hnot, hstatus]

/-- A client that has its task and stops between the `GET` and the `DEL` of an `ack`. -/
theorem discoverable_iff_not_between_ack :
    let actions : List (ClientAction Bool) :=
      [.start false (.enqueue (sampleTask "t" 3)), .command false, .command false, .finish false,
        .start true (.dequeue "q" "w"), .command true, .command true, .command true, .finish true,
        .start true (.ack "t"), .command true]
    ∃ s, ({} : Clients Bool).run actions = some s ∧ s.Enqueued (sampleTask "t" 3) ∧
      ¬ s.Acked "t" ∧ (s.Discoverable (sampleTask "t" 3) ↔ ¬ s.Between "t") := by
  intro actions
  suffices h : ∃ s, ({} : Clients Bool).run actions = some s ∧ s.Enqueued (sampleTask "t" 3) ∧
      ¬ s.Acked "t" by
    obtain ⟨s, hrun, ht, hack⟩ := h
    exact ⟨s, hrun, ht, hack, discoverable_iff_not_between hrun _ ht hack⟩
  refine ⟨_, rfl, ⟨List.Mem.head _, fun c item _ => ?_⟩, ?_⟩
  · cases c <;> exact ⟨nofun, nofun⟩
  · rintro ⟨c, item, hmem, -⟩
    cases hmem with
    | tail _ h =>
      cases h with
      | tail _ h => cases h

/-- A client stops between `LPOP` and `GET`: the id is in no list, the record is still pending. -/
theorem not_discoverable_after_lpop :
    let actions : List (ClientAction Bool) :=
      [.start false (.enqueue (sampleTask "t" 3)), .command false, .command false, .finish false,
        .start true (.dequeue "q" "w"), .command true]
    ∃ s, ({} : Clients Bool).run actions = some s ∧ s.Enqueued (sampleTask "t" 3) ∧
      ¬ s.Acked "t" ∧ ¬ s.Discoverable (sampleTask "t" 3) := by
  refine ⟨_, rfl, ⟨List.Mem.head _, fun c item _ => ?_⟩, ?_, ?_⟩
  · cases c <;> exact ⟨nofun, nofun⟩
  · rintro ⟨c, item, hmem, -⟩
    cases hmem with
    | tail _ h => cases h
  · rintro (h | ⟨item, hitem, hstatus⟩ | ⟨item, hmem, -⟩)
    · cases h
    · cases hitem
      cases hstatus
    · cases hmem

end AgentLearning
