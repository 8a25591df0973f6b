import AgentLearning.Lib.Lease
import AgentLearning.DistributedLock

/-!
# Mutual exclusion in memory

Any number of threads call one `InMemoryDistributedLock`, and their critical sections come in any
order. The entries of the lock guard the log of who acquired and released what
(`Lease.Guards`): the cleanup takes out what is over, `release` what its caller has.
-/

namespace AgentLearning

namespace InMemoryDistributedLock

variable (lock : InMemoryDistributedLock) {lockName holderId : String}

theorem get?_cleanupExpired (now : ℚ) (k : String) :
    (lock.cleanupExpired now).locks.get? k
      = (lock.locks.get? k).filter fun entry => now < entry.2 := by
  simp only [cleanupExpired, Dict.get?_foldl_erase, List.mem_filter, Dict.mem_keys_iff]
  rcases lock.locks.get? k with _ | ⟨holder, exp⟩
  · simp
  · by_cases h : exp ≤ now
    · simp [h, Option.filter_some]
    · simp [h, Option.filter_some, not_le.mp h]

/-- An attempt only cleans up, or it takes a name that nobody has then. -/
theorem attempt_cases (lockName holderId : String) (ttl now later : ℚ) :
    lock.attempt lockName holderId ttl now later = (false, lock.cleanupExpired now)
      ∨ (lock.cleanupExpired now).locks.get? lockName = none
        ∧ lock.attempt lockName holderId ttl now later = (true,
          { locks := (lock.cleanupExpired now).locks.set lockName (holderId, later + ttl) }) := by
  unfold attempt
  by_cases hnone : ((lock.cleanupExpired now).locks.get? lockName).isNone
  · exact .inr ⟨Option.isNone_iff_eq_none.mp hnone, if_pos hnone⟩
  · exact .inl (if_neg hnone)

variable {lock} {log : List (Lease.Event String String ℚ)} {now later ttl : ℚ}

theorem guards_cleanupExpired (h : Lease.Guards lock.locks.get? now log) :
    Lease.Guards (lock.cleanupExpired now).locks.get? now log := by
  refine h.clear fun k holder exp hk => ?_
  rw [get?_cleanupExpired, hk, Option.filter_some]
  by_cases hexp : now < exp
  · exact .inl (by simp [hexp])
  · exact .inr (.inl (not_lt.mp hexp))

theorem guards_attempt (h : Lease.Guards lock.locks.get? now log) (hlater : now ≤ later)
    (hok : (lock.attempt lockName holderId ttl now later).1 = true) :
    Lease.Guards (lock.attempt lockName holderId ttl now later).2.locks.get? later
      (log ++ [.acquired holderId lockName now (later + ttl)]) := by
  have hclean := guards_cleanupExpired h
  rcases lock.attempt_cases lockName holderId ttl now later with hattempt | ⟨hnone, hattempt⟩
  · rw [hattempt] at hok
    cases hok
  · rw [hattempt, Dict.get?_set_eq]
    exact (hclean.acquire (fun c till hc => by simp [hnone] at hc) _ _).tick hlater

theorem attempt_eq_cleanupExpired
    (hok : (lock.attempt lockName holderId ttl now later).1 = false) :
    (lock.attempt lockName holderId ttl now later).2 = lock.cleanupExpired now := by
  rcases lock.attempt_cases lockName holderId ttl now later with hattempt | ⟨-, hattempt⟩
  · rw [hattempt]
  · rw [hattempt] at hok
    cases hok

theorem guards_release (h : Lease.Guards lock.locks.get? now log) (hholder : holderId ≠ "") :
    Lease.Guards (lock.release lockName holderId).2.locks.get? now
      (log ++ [.released holderId lockName]) := by
  have hlog := h.release holderId lockName
  unfold release
  rcases hentry : lock.locks.get? lockName with _ | ⟨holder, exp⟩
  · exact hlog
  · simp only [ne_eq, hholder, not_false_eq_true, true_and]
    split_ifs with hne
    · refine hlog.clear fun k c till hk => ?_
      rw [Dict.get?_erase]
      split_ifs with hkey
      · rw [← hkey, hentry] at hk
        cases hk
        refine .inr (.inr fun till' hlive => ?_)
        exact (Lease.live_append_released hlive).2 ⟨hne, hkey.symm⟩
      · exact .inl hk
    · exact hlog

end InMemoryDistributedLock

/-- The lock, the last reading of the clock, where each thread is in its call of `acquire`, and the
log; an acquisition is logged with the first reading of the attempt that succeeded. -/
structure LockThreads (C : Type) where
  lock : InMemoryDistributedLock := {}
  now : ℚ
  busy : C → Option LockStage := fun _ => none
  log : List (Lease.Event String String ℚ) := []

/-- What a thread does next, with the readings of the clock it takes: call `acquire`, make an
attempt, compare the deadline, return; or the whole of another call. -/
inductive LockThreadAction (C : Type)
  | acquire (thread : C) (lockName : String) (timeout ttl now : ℚ)
  | attempt (thread : C) (now later : ℚ)
  | check (thread : C) (now : ℚ)
  | finish (thread : C)
  | release (thread : C) (lockName : String)
  | isLocked (thread : C) (lockName : String) (now : ℚ)

namespace LockThreads

variable {C : Type} [DecidableEq C] (holder : C → String) (s : LockThreads C)

def setBusy (thread : C) (stage : Option LockStage) : C → Option LockStage :=
  Function.update s.busy thread stage

/-- No reading of the clock is before the one before it. A failed attempt does not take its second
reading, which may then be the first again. -/
def step : LockThreadAction C → Option (LockThreads C)
  | .acquire thread lockName timeout ttl now =>
    match s.busy thread with
    | some _ => none
    | none =>
      if s.now ≤ now then
        some { s with now, busy := s.setBusy thread (some (.attempt lockName ttl (now + timeout))) }
      else none
  | .attempt thread now later =>
    match s.busy thread with
    | some (.attempt lockName ttl deadline) =>
      if s.now ≤ now ∧ now ≤ later then
        match s.lock.attempt lockName (holder thread) ttl now later with
        | (true, lock) =>
          some { lock, now := later, busy := s.setBusy thread (some (.done (.ok true)))
                 log := s.log ++ [.acquired (holder thread) lockName now (later + ttl)] }
        | (false, lock) =>
          some { s with lock, now := later
                        busy := s.setBusy thread (some (.check lockName ttl deadline)) }
      else none
    | _ => none
  | .check thread now =>
    match s.busy thread with
    | some (.check lockName ttl deadline) =>
      if s.now ≤ now then
        some { s with
          now
          busy := s.setBusy thread
            (some ((LockStage.check lockName ttl deadline).checkDeadline now)) }
      else none
    | _ => none
  | .finish thread =>
    match s.busy thread with
    | some (.done _) => some { s with busy := s.setBusy thread none }
    | _ => none
  | .release thread lockName =>
    match s.busy thread with
    | some _ => none
    | none =>
      some { s with
        lock := (s.lock.release lockName (holder thread)).2
        log := s.log ++ [.released (holder thread) lockName] }
  | .isLocked thread lockName now =>
    match s.busy thread with
    | some _ => none
    | none =>
      if s.now ≤ now then some { s with now, lock := (s.lock.isLocked lockName now).2 } else none

/-- Takes the actions one after the other; `none` if one of them is not enabled. -/
def run : LockThreads C → List (LockThreadAction C) → Option (LockThreads C)
  | s, [] => some s
  | s, action :: actions =>
    match s.step holder action with
    | some s' => run s' actions
    | none => none

/-- The entries of the lock guard the log. -/
def Guarded : Prop := Lease.Guards s.lock.locks.get? s.now s.log

variable {holder} {s} {s' : LockThreads C}

theorem Guarded.step (hholder : ∀ c, holder c ≠ "") (h : s.Guarded) {action : LockThreadAction C}
    (hstep : s.step holder action = some s') : s'.Guarded := by
  unfold Guarded at h ⊢
  cases action with
  | acquire thread lockName timeout ttl now =>
    simp only [LockThreads.step] at hstep
    split at hstep
    · cases hstep
    · split_ifs at hstep with hnow
      cases hstep
      exact h.tick hnow
  | attempt thread now later =>
    simp only [LockThreads.step] at hstep
    split at hstep
    · rename_i lockName ttl deadline hbusy
      split_ifs at hstep with hnow
      have hguards := h.tick hnow.1
      split at hstep
      · rename_i lock hattempt
        cases hstep
        have hok := InMemoryDistributedLock.guards_attempt hguards hnow.2
          (congrArg Prod.fst hattempt)
        rw [hattempt] at hok
        exact hok
      · rename_i lock hattempt
        cases hstep
        have hfail := InMemoryDistributedLock.attempt_eq_cleanupExpired
          (congrArg Prod.fst hattempt)
        rw [hattempt] at hfail
        subst hfail
        exact (InMemoryDistributedLock.guards_cleanupExpired hguards).tick hnow.2
    · cases hstep
  | check thread now =>
    simp only [LockThreads.step] at hstep
    split at hstep
    · split_ifs at hstep with hnow
      cases hstep
      exact h.tick hnow
    · cases hstep
  | finish thread =>
    simp only [LockThreads.step] at hstep
    split at hstep
    · cases hstep
      exact h
    · cases hstep
  | release thread lockName =>
    simp only [LockThreads.step] at hstep
    split at hstep
    · cases hstep
    · cases hstep
      exact InMemoryDistributedLock.guards_release h (hholder thread)
  | isLocked thread lockName now =>
    simp only [LockThreads.step] at hstep
    split at hstep
    · cases hstep
    · split_ifs at hstep with hnow
      cases hstep
      exact InMemoryDistributedLock.guards_cleanupExpired (h.tick hnow)

theorem Guarded.run (hholder : ∀ c, holder c ≠ "") :
    ∀ {s : LockThreads C} (actions : List (LockThreadAction C)), s.Guarded →
      s.run holder actions = some s' → s'.Guarded
  | s, [], h, hrun => by
    cases hrun
    exact h
  | s, action :: actions, h, hrun => by
    simp only [LockThreads.run] at hrun
    split at hrun
    · rename_i s₁ hstep
      exact Guarded.run hholder actions (h.step hholder hstep) hrun
    · cases hrun

end LockThreads

/-- However the critical sections of any threads interleave, and whatever the clock reads: nobody
acquires a name before the `ttl` of another holder who has not released it is over. -/
theorem inMemoryDistributedLock_exclusive {C : Type} [DecidableEq C] {holder : C → String}
    (hholder : ∀ c, holder c ≠ "") (now : ℚ) {actions : List (LockThreadAction C)}
    {s : LockThreads C} (hrun : ({ now } : LockThreads C).run holder actions = some s) :
    Lease.Exclusive s.log := by
  have hstart : ({ now } : LockThreads C).Guarded := Lease.Guards.nil _ now
  exact (LockThreads.Guarded.run hholder actions hstart hrun).exclusive

/-- A thread acquires a name and its `ttl` ends; another gets the name in its second attempt, and
the late `release` of the first changes nothing. -/
theorem inMemoryDistributedLock_exclusive_late_release :
    let holder : Bool → String := fun c => if c then "worker-1" else "worker-0"
    let actions : List (LockThreadAction Bool) :=
      [.acquire false "task" 10 2 0, .attempt false 0 1, .finish false, .acquire true "task" 10 2 2,
        .attempt true 2 2, .check true 2, .attempt true 3 3, .release false "task", .finish true,
        .isLocked false "task" 4]
    ∃ s, ({ now := 0 } : LockThreads Bool).run holder actions = some s ∧
      s.log = [.acquired "worker-0" "task" 0 3, .acquired "worker-1" "task" 3 5,
        .released "worker-0" "task"] ∧ Lease.Exclusive s.log := by
  intro holder actions
  have hlog : (({ now := 0 } : LockThreads Bool).run holder actions).map (·.log)
      = some [.acquired "worker-0" "task" 0 3, .acquired "worker-1" "task" 3 5,
        .released "worker-0" "task"] := by
    decide +kernel
  obtain ⟨s, hrun, hlog⟩ := Option.map_eq_some_iff.mp hlog
  refine ⟨s, hrun, hlog, inMemoryDistributedLock_exclusive (fun c => ?_) 0 hrun⟩
  cases c <;> decide

end AgentLearning
