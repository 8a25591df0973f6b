import AgentLearning.Lib.Trace
import AgentLearning.Proofs.InMemoryLock
import AgentLearning.Proofs.RedisLock

/-!
# Who may release a lock

What was acquired last, and not released since, is read off the log of what a lock has answered:
the holder id and the end of the time to live. A lock that is held and not over is released by its
holder, or by a caller without an id, and by nobody else. In memory this is one critical section; in
Redis each command that answers the caller is right about the moment it is carried out.
-/

namespace AgentLearning

open Trace

/-- By whom the lock is held at this time. -/
def heldBy (table : String → Option (String × ℚ)) (now : ℚ) (lockName : String) : Option String :=
  ((table lockName).filter fun entry => now < entry.2).map Prod.fst

/-- The caller is the holder, or gives no id. -/
def MayRelease (held : Option String) (holderId : String) : Prop :=
  ∃ holder ∈ held, holderId = "" ∨ holderId = holder

instance (held : Option String) (holderId : String) : Decidable (MayRelease held holderId) := by
  unfold MayRelease
  infer_instance

section HeldBy

variable {table : String → Option (String × ℚ)} {now : ℚ} {lockName holder : String}

theorem heldBy_eq_some_iff : heldBy table now lockName = some holder
    ↔ ∃ till, table lockName = some (holder, till) ∧ now < till := by
  unfold heldBy
  rcases table lockName with _ | ⟨id, till⟩
  · simp
  · by_cases hlt : now < till
    · simp [Option.filter_some, hlt]
    · simp [Option.filter_some, hlt]

theorem mayRelease_some_iff {holderId : String} :
    MayRelease (some holder) holderId ↔ holderId = "" ∨ holderId = holder := by
  simp [MayRelease]

theorem not_mayRelease_none {holderId : String} : ¬ MayRelease none holderId := by
  simp [MayRelease]

end HeldBy

/-! ## In memory -/

namespace InMemoryDistributedLock

/-- What a thread does at once, with the readings of the clock it takes. -/
inductive Block
  | attempt (lockName holderId : String) (ttl now later : ℚ)
  | release (lockName holderId : String)
  | isLocked (lockName : String) (now : ℚ)

def Block.readings : Block → List ℚ
  | attempt _ _ _ now later => [now, later]
  | release _ _ => []
  | isLocked _ now => [now]

def exec (lock : InMemoryDistributedLock) : Block → Bool × InMemoryDistributedLock
  | .attempt lockName holderId ttl now later => lock.attempt lockName holderId ttl now later
  | .release lockName holderId => lock.release lockName holderId
  | .isLocked lockName now => lock.isLocked lockName now

abbrev BlockEvent := Trace.Event InMemoryDistributedLock Block Bool

/-- An attempt that succeeds acquires the lock, a release that succeeds frees it. -/
def change (e : BlockEvent) : Option (String × Option (String × ℚ)) :=
  match e.input, e.output with
  | .attempt lockName holderId ttl _ later, true =>
    some (lockName, some (holderId, later + ttl))
  | .release lockName _, true => some (lockName, none)
  | _, _ => none

/-- By whom each lock is held, and how long. -/
def holding (log : List BlockEvent) : String → Option (String × ℚ) := lastChanges change log

/-- A time that some reading of the clock has come to. -/
def Past (log : List BlockEvent) (till : ℚ) : Prop :=
  ∃ e ∈ log, ∃ now ∈ e.input.readings, till ≤ now

/-- The lock has the entries of the table, but for some that are over. -/
structure Keeps (table : String → Option (String × ℚ)) (past : ℚ → Prop)
    (lock : InMemoryDistributedLock) : Prop where
  held : ∀ name entry, lock.locks.get? name = some entry → table name = some entry
  past : ∀ name entry, table name = some entry → lock.locks.get? name = none → past entry.2

section Keeps

variable {table : String → Option (String × ℚ)} {past past' : ℚ → Prop}
  {lock lock' : InMemoryDistributedLock} {lockName : String} {now : ℚ}

theorem release_cases (lock : InMemoryDistributedLock) (lockName holderId : String) :
    lock.release lockName holderId = (false, lock)
      ∨ lock.release lockName holderId = (true, { locks := lock.locks.erase lockName }) := by
  unfold release
  rcases lock.locks.get? lockName with _ | ⟨holder, till⟩
  · exact .inl rfl
  · by_cases hother : holderId ≠ "" ∧ holder ≠ holderId
    · exact .inl (if_pos hother)
    · exact .inr (if_neg hother)

theorem Keeps.mono (h : Keeps table past lock) (hsub : ∀ till, past till → past' till) :
    Keeps table past' lock :=
  ⟨h.held, fun name entry htable hnone => hsub _ (h.past name entry htable hnone)⟩

theorem Keeps.cleanupExpired (h : Keeps table past lock) (hnow : ∀ till ≤ now, past till) :
    Keeps table past (lock.cleanupExpired now) := by
  constructor
  · intro name entry hentry
    rw [get?_cleanupExpired] at hentry
    exact h.held name entry (Option.eq_some_of_filter_eq_some hentry)
  · intro name entry htable hnone
    rcases hentry : lock.locks.get? name with _ | entry'
    · exact h.past name entry htable hentry
    · have hsame := h.held name entry' hentry
      rw [htable, Option.some.injEq] at hsame
      subst hsame
      rw [get?_cleanupExpired, hentry, Option.filter_some] at hnone
      refine hnow _ ?_
      by_contra hlt
      simp [not_le.mp hlt] at hnone

theorem Keeps.update (h : Keeps table past lock) {entry : Option (String × ℚ)}
    (hget : lock'.locks.get? = Function.update lock.locks.get? lockName entry) :
    Keeps (Function.update table lockName entry) past lock' := by
  constructor
  · intro name entry' hentry
    rw [hget] at hentry
    by_cases hname : name = lockName
    · subst hname
      simpa using hentry
    · rw [Function.update_of_ne hname] at hentry ⊢
      exact h.held name entry' hentry
  · intro name entry' htable hnone
    rw [hget] at hnone
    by_cases hname : name = lockName
    · subst hname
      simp_all
    · rw [Function.update_of_ne hname] at htable hnone
      exact h.past name entry' htable hnone

/-- By cases on what is done: a block that changes nothing of what is held only cleans up. -/
theorem Keeps.exec {log : List BlockEvent} (h : Keeps (holding log) (Past log) lock)
    (block : Block) :
    Keeps (holding (log ++ [event exec lock block])) (Past (log ++ [event exec lock block]))
      (exec lock block).2 := by
  have hpast (till) : Past log till → Past (log ++ [event InMemoryDistributedLock.exec lock block])
      till := by
    rintro ⟨e, he, hover⟩
    exact ⟨e, List.mem_append_left _ he, hover⟩
  have hreading (now) (hnow : now ∈ block.readings) (till) (htill : till ≤ now) :
      Past (log ++ [event InMemoryDistributedLock.exec lock block]) till :=
    ⟨event InMemoryDistributedLock.exec lock block, by simp, now, hnow, htill⟩
  have hkeeps := h.mono hpast
  cases block with
  | attempt lockName holderId ttl now later =>
    have hclean := hkeeps.cleanupExpired (hreading now (by simp [Block.readings]))
    have hexec : InMemoryDistributedLock.exec lock (.attempt lockName holderId ttl now later)
        = lock.attempt lockName holderId ttl now later := rfl
    rcases attempt_cases lock lockName holderId ttl now later with hattempt | ⟨-, hattempt⟩
    · have hchange : change (event InMemoryDistributedLock.exec lock
          (.attempt lockName holderId ttl now later)) = none := by
        simp [change, hexec, hattempt]
      rw [holding, lastChanges_concat_none hchange, hexec, hattempt]
      exact hclean
    · have hchange : change (event InMemoryDistributedLock.exec lock
          (.attempt lockName holderId ttl now later))
          = some (lockName, some (holderId, later + ttl)) := by
        simp [change, hexec, hattempt]
      rw [holding, lastChanges_concat_some hchange, hexec, hattempt]
      exact hclean.update (Dict.get?_set_eq ..)
  | release lockName holderId =>
    have hexec : InMemoryDistributedLock.exec lock (.release lockName holderId)
        = lock.release lockName holderId := rfl
    rcases release_cases lock lockName holderId with hrelease | hrelease
    · have hchange : change (event InMemoryDistributedLock.exec lock
          (.release lockName holderId)) = none := by
        simp [change, hexec, hrelease]
      rw [holding, lastChanges_concat_none hchange, hexec, hrelease]
      exact hkeeps
    · have hchange : change (event InMemoryDistributedLock.exec lock
          (.release lockName holderId)) = some (lockName, none) := by
        simp [change, hexec, hrelease]
      rw [holding, lastChanges_concat_some hchange, hexec, hrelease]
      exact hkeeps.update (Dict.get?_erase_eq ..)
  | isLocked lockName now =>
    have hholding :
        holding (log ++ [event InMemoryDistributedLock.exec lock (.isLocked lockName now)])
          = holding log := lastChanges_concat_none rfl
    rw [hholding]
    exact hkeeps.cleanupExpired (hreading now (by simp [Block.readings]))

theorem keeps_final (blocks : List Block) :
    Keeps (holding (events exec {} blocks)) (Past (events exec {} blocks)) (final exec {} blocks) :=
  history_induct (R := fun log lock => Keeps (holding log) (Past log) lock)
    ⟨by simp, by simp [holding, lastChanges]⟩ fun _ _ block _ h => h.exec block

end Keeps

/-- The answer at any time, unless an entry is left that is over. -/
theorem release_eq {blocks : List Block} {now : ℚ}
    (hnow : ∀ block ∈ blocks, ∀ x ∈ block.readings, x ≤ now) (lockName holderId : String)
    (hclean : heldBy (holding (events exec {} blocks)) now lockName = none →
      (final exec {} blocks).locks.get? lockName = none) :
    (final exec {} blocks).release lockName holderId
      = if MayRelease (heldBy (holding (events exec {} blocks)) now lockName) holderId then
          (true, { locks := (final exec {} blocks).locks.erase lockName })
        else (false, final exec {} blocks) := by
  have hkeeps := keeps_final blocks
  rcases hheld : heldBy (holding (events exec {} blocks)) now lockName with _ | holder
  · rw [if_neg not_mayRelease_none, release, hclean hheld]
  · obtain ⟨till, htable, hlt⟩ := heldBy_eq_some_iff.mp hheld
    rcases hentry : (final exec {} blocks).locks.get? lockName with _ | entry
    · obtain ⟨e, he, x, hx, hle⟩ := hkeeps.past lockName _ htable hentry
      rw [← map_input_events exec blocks {}] at hnow
      have hpast := hnow e.input (List.mem_map_of_mem he) x hx
      exact absurd (hle.trans hpast) (not_le.mpr hlt)
    · have hsame := hkeeps.held lockName entry hentry
      rw [htable, Option.some.injEq] at hsame
      subst hsame
      simp only [release, hentry, mayRelease_some_iff]
      by_cases hempty : holderId = ""
      · simp [hempty]
      · by_cases hholder : holderId = holder
        · simp [hholder]
        · simp [hempty, hholder, Ne.symm hholder]

end InMemoryDistributedLock

/-! ## In Redis -/

namespace RedisDistributedLock

/-- What comes to the server: the next command of some caller's call, or more time. -/
inductive Message
  | command (holderId : String) (stage : LockStage)
  | advance (elapsed : ℚ)

/-- Time does not go back. -/
def exec (s : LockServer) : Message → Option LockStage × LockServer
  | .command holderId stage => ((command s holderId stage).1, (command s holderId stage).2)
  | .advance elapsed => (none, { s with now := s.now + max elapsed 0 })

abbrev MessageEvent := Trace.Event LockServer Message (Option LockStage)

/-- A `SET` that succeeds acquires the lock, for whole milliseconds; a `DEL` that succeeds frees
it. -/
def change (e : MessageEvent) : Option (String × Option (String × ℚ)) :=
  match e.input, e.output with
  | .command holderId (.attempt lockName ttl _), some (.done (.ok true)) =>
    some (lockName, some (holderId, e.before.now + intOfFloat (ttl * 1000) / 1000))
  | .command _ (.releaseDelete lockName), some (.done (.ok true)) => some (lockName, none)
  | _, _ => none

def holding (log : List MessageEvent) : String → Option (String × ℚ) := lastChanges change log

/-- What a key is set to. -/
def stored (holderId : String) : String := if holderId = "" then "_" else holderId

/-- The server shows what is held, now and at any later time. -/
def Shows (table : String → Option (String × ℚ)) (s : LockServer) : Prop :=
  ∀ t, s.now ≤ t → ∀ lockName,
    ({ s with now := t } : LockServer).get lockName = (heldBy table t lockName).map stored

section Shows

variable {table : String → Option (String × ℚ)} {s : LockServer} {lockName : String}

theorem get_congr {s s' : LockServer} (hkeys : s.keys lockName = s'.keys lockName)
    (hnow : s.now = s'.now) : s.get lockName = s'.get lockName := by
  unfold LockServer.get
  rw [hkeys, hnow]

theorem Shows.get (h : Shows table s) (lockName : String) :
    s.get lockName = (heldBy table s.now lockName).map stored :=
  h s.now le_rfl lockName

theorem Shows.advance (h : Shows table s) (elapsed : ℚ) :
    Shows table { s with now := s.now + max elapsed 0 } := by
  intro t ht
  refine h t (le_trans ?_ ht)
  exact le_add_of_nonneg_right (le_max_right elapsed 0)

theorem Shows.update (h : Shows table s) {entry key : Option (String × ℚ)}
    (hkey : key = entry.map fun held => (stored held.1, held.2)) :
    Shows (Function.update table lockName entry)
      { s with keys := Function.update s.keys lockName key } := by
  intro t ht name
  by_cases hname : name = lockName
  · subst hname
    rcases entry with _ | ⟨holder, till⟩
    · simp [LockServer.get, heldBy, hkey]
    · by_cases hlt : t < till
      · simp [LockServer.get, heldBy, hkey, hlt, Option.filter_some]
      · simp [LockServer.get, heldBy, hkey, hlt, Option.filter_some]
  · rw [heldBy, Function.update_of_ne hname, ← heldBy, ← h t ht name]
    exact get_congr (Function.update_of_ne hname ..) rfl

/-- A key that is gone may be deleted. -/
theorem Shows.delete_none (h : Shows table s) (hnone : s.get lockName = none) :
    Shows table { s with keys := Function.update s.keys lockName none } := by
  intro t ht name
  by_cases hname : name = lockName
  · subst hname
    have hgone : ({ s with now := t } : LockServer).get name = none := by
      rw [LockServer.get_eq_none_iff] at hnone ⊢
      exact fun holder expiry hkey => (hnone holder expiry hkey).trans ht
    rw [← h t ht, hgone]
    simp [LockServer.get]
  · rw [← h t ht name]
    exact get_congr (Function.update_of_ne hname ..) rfl

/-- A `SET` sets the key, or changes nothing. -/
theorem command_attempt (s : LockServer) (holderId lockName : String) (ttl deadline : ℚ) :
    command s holderId (.attempt lockName ttl deadline) = (.done (.ok true), { s with
        keys := Function.update s.keys lockName
          (some (stored holderId, s.now + intOfFloat (ttl * 1000) / 1000)) })
      ∨ ∃ stage, stage ≠ .done (.ok true)
        ∧ command s holderId (.attempt lockName ttl deadline) = (stage, s) := by
  rw [command, ← stored]
  rcases s.setNxPx_cases lockName (stored holderId) (intOfFloat (ttl * 1000))
    with ⟨-, hset⟩ | hset | ⟨error, hset⟩
  · exact .inl (by rw [hset])
  · exact .inr ⟨.check lockName ttl deadline, by simp, by rw [hset]⟩
  · exact .inr ⟨.done (.error error), by simp, by rw [hset]⟩

theorem Shows.exec {log : List MessageEvent} (h : Shows (holding log) s) (message : Message) :
    Shows (holding (log ++ [event exec s message])) (exec s message).2 := by
  cases message with
  | advance elapsed =>
    rw [holding, lastChanges_concat_none rfl]
    exact h.advance elapsed
  | command holderId stage =>
    cases stage with
    | check | existsKey | done =>
      rw [holding, lastChanges_concat_none rfl]
      exact h
    | releaseGet lockName =>
      have hserver : (command s holderId (.releaseGet lockName)).2 = s := by
        simp only [command]
        split
        · rfl
        · split_ifs <;> rfl
      rw [holding, lastChanges_concat_none rfl]
      change Shows _ (command s holderId (.releaseGet lockName)).2
      rw [hserver]
      exact h
    | releaseDelete lockName =>
      rcases hget : s.get lockName with _ | key
      · have hchange : change (event RedisDistributedLock.exec s
            (.command holderId (.releaseDelete lockName))) = none := by
          simp [change, RedisDistributedLock.exec, command, LockServer.delete, hget]
        rw [holding, lastChanges_concat_none hchange]
        exact h.delete_none hget
      · have hchange : change (event RedisDistributedLock.exec s
            (.command holderId (.releaseDelete lockName))) = some (lockName, none) := by
          simp [change, RedisDistributedLock.exec, command, LockServer.delete, hget]
        rw [holding, lastChanges_concat_some hchange]
        exact h.update rfl
    | attempt lockName ttl deadline =>
      rcases command_attempt s holderId lockName ttl deadline with hnext | ⟨stage, hstage, hnext⟩
      · have hchange : change (event RedisDistributedLock.exec s
            (.command holderId (.attempt lockName ttl deadline)))
            = some (lockName, some (holderId, s.now + intOfFloat (ttl * 1000) / 1000)) := by
          simp [change, RedisDistributedLock.exec, hnext]
        rw [holding, lastChanges_concat_some hchange, RedisDistributedLock.exec, hnext]
        exact h.update rfl
      · have hchange : change (event RedisDistributedLock.exec s
            (.command holderId (.attempt lockName ttl deadline))) = none := by
          simp only [change, RedisDistributedLock.exec, event_input, event_output, hnext]
          split <;> simp_all
        rw [holding, lastChanges_concat_none hchange, RedisDistributedLock.exec, hnext]
        exact h

theorem shows_final (start : ℚ) (messages : List Message) :
    Shows (holding (events exec { now := start } messages))
      (final exec { now := start } messages) :=
  history_induct (R := fun log s => Shows (holding log) s)
    (by intro t ht lockName; simp [LockServer.get, heldBy, holding, lastChanges])
    fun _ _ message _ h => h.exec message

end Shows

section Release

variable {table : String → Option (String × ℚ)} {s : LockServer} {lockName holderId : String}

/-- The `GET` of a caller with an id, unless a caller without one has the key under the name of
this one. -/
theorem releaseGet_eq (h : Shows table s) (hid : holderId ≠ "")
    (halias : ¬ (holderId = "_" ∧ heldBy table s.now lockName = some "")) :
    command s holderId (.releaseGet lockName)
      = if MayRelease (heldBy table s.now lockName) holderId then (.releaseDelete lockName, s)
        else (.done (.ok false), s) := by
  simp only [command, h.get]
  rcases hheld : heldBy table s.now lockName with _ | holder
  · simp [not_mayRelease_none]
  · have hstored : stored holder = holderId ↔ holderId = holder := by
      unfold stored
      by_cases hempty : holder = ""
      · subst hempty
        have hne : holderId ≠ "_" := fun hunder => halias ⟨hunder, hheld⟩
        simp [hid, Ne.symm hne]
      · simp [hempty, eq_comm]
    simp [mayRelease_some_iff, hid, hstored, ite_not]

/-- The `DEL` of a caller that may release the lock, or of one that comes when nobody holds it. -/
theorem releaseDelete_eq (h : Shows table s) {held : Option String}
    (hheld : heldBy table s.now lockName = held) (hmay : held = none ∨ MayRelease held holderId) :
    ∃ s', command s holderId (.releaseDelete lockName)
        = (.done (.ok (decide (MayRelease held holderId))), s')
      ∧ s'.now = s.now ∧ s'.get = Function.update s.get lockName none := by
  refine ⟨(s.delete lockName).2, ?_, rfl, ?_⟩
  · have hget := h.get lockName
    rw [hheld] at hget
    rcases hmay with rfl | hmay
    · simp [command, LockServer.delete, hget, not_mayRelease_none]
    · obtain ⟨holder, rfl, hholder⟩ := hmay
      have hmay : MayRelease (some holder) holderId := mayRelease_some_iff.mpr hholder
      simp [command, LockServer.delete, hget, hmay]
  · funext name
    by_cases hname : name = lockName
    · subst hname
      simp [LockServer.delete, LockServer.get]
    · rw [Function.update_of_ne hname]
      exact get_congr (Function.update_of_ne hname ..) rfl

end Release

end RedisDistributedLock

/-- A lock that is held is released by its holder and by callers without an id, and by nobody else;
one that nobody holds is not released. In memory this leaves out an entry that is over and has not
been cleaned up; in Redis, the key of a caller without an id under the name that it is given, and a
key that has come to another holder between the two commands. -/
theorem release_by_holder (lockName holderId : String) :
    (∀ (blocks : List InMemoryDistributedLock.Block) (now : ℚ),
      (∀ block ∈ blocks, ∀ x ∈ block.readings, x ≤ now) →
      let lock := final InMemoryDistributedLock.exec {} blocks
      let held := heldBy (InMemoryDistributedLock.holding
        (events InMemoryDistributedLock.exec {} blocks)) now lockName
      (held = none → lock.locks.get? lockName = none) →
      lock.release lockName holderId
        = if MayRelease held holderId then (true, { locks := lock.locks.erase lockName })
          else (false, lock))
    ∧ ∀ (start : ℚ) (messages : List RedisDistributedLock.Message),
      let s := final RedisDistributedLock.exec { now := start } messages
      let held := heldBy (RedisDistributedLock.holding
        (events RedisDistributedLock.exec { now := start } messages)) s.now lockName
      (holderId ≠ "" → ¬ (holderId = "_" ∧ held = some "") →
        RedisDistributedLock.command s holderId (.releaseGet lockName)
          = if MayRelease held holderId then (.releaseDelete lockName, s)
            else (.done (.ok false), s))
      ∧ (held = none ∨ MayRelease held holderId →
        ∃ s', RedisDistributedLock.command s holderId (.releaseDelete lockName)
            = (.done (.ok (decide (MayRelease held holderId))), s')
          ∧ s'.now = s.now ∧ s'.get = Function.update s.get lockName none) := by
  refine ⟨fun blocks now hnow => ?_, fun start messages => ?_⟩
  · intro lock held hclean
    exact InMemoryDistributedLock.release_eq hnow lockName holderId hclean
  · have hshows := RedisDistributedLock.shows_final start messages
    exact ⟨RedisDistributedLock.releaseGet_eq hshows,
      RedisDistributedLock.releaseDelete_eq hshows rfl⟩

/-- The time of an intruder has not come: the lock stays with its owner. -/
theorem release_by_holder_intruder :
    let blocks : List InMemoryDistributedLock.Block := [.attempt "task" "owner" 30 0 0]
    let lock := final InMemoryDistributedLock.exec {} blocks
    lock.release "task" "intruder" = (false, lock) := by
  intro blocks lock
  have hrelease := (release_by_holder "task" "intruder").1 blocks 1
    (by simp [blocks, InMemoryDistributedLock.Block.readings])
  have hheld : heldBy (InMemoryDistributedLock.holding
      (events InMemoryDistributedLock.exec {} blocks)) 1 "task" = some "owner" := by
    decide +kernel
  have hnot : ¬ MayRelease (some "owner") "intruder" := by simp [mayRelease_some_iff]
  simp only [hheld, if_neg hnot] at hrelease
  exact hrelease nofun

/-- A caller without an id releases the lock of an owner, long before its time is over. -/
theorem not_only_holder_releases :
    let blocks : List InMemoryDistributedLock.Block := [.attempt "task" "owner" 30 0 0]
    let held := heldBy (InMemoryDistributedLock.holding
      (events InMemoryDistributedLock.exec {} blocks)) 1 "task"
    ¬ (((final InMemoryDistributedLock.exec {} blocks).release "task" "").1 = true
      ↔ held = some "") := by
  decide +kernel

end AgentLearning
