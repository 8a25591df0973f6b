import Mathlib.Data.Rat.Floor
import AgentLearning.TaskQueue

/-!
# Distributed locks

The locks of `src/scheduler/in_memory_queue.py` and `src/scheduler/redis_queue.py`. A lock in
memory does the body of every `with` block at once; one in Redis sends one command after the other.
`acquire` tries until its deadline has passed, and either lock forgets who holds a name once the
`ttl` of the holder is over. Clock readings are rationals.
-/

namespace AgentLearning

/-- A call on a lock; the holder id is the caller's. -/
inductive LockCall
  | acquire (lockName : String) (timeout ttl : ℚ)
  | release (lockName : String)
  | isLocked (lockName : String)

/-- Where a caller is in its call: what it does next. -/
inductive LockStage
  | attempt (lockName : String) (ttl deadline : ℚ)
  | check (lockName : String) (ttl deadline : ℚ)
  | releaseGet (lockName : String)
  | releaseDelete (lockName : String)
  | existsKey (lockName : String)
  | done (result : Except PyError Bool)

/-- After an attempt that failed, `acquire` gives up if its deadline is over, and else tries
again. -/
def LockStage.checkDeadline (now : ℚ) : LockStage → LockStage
  | .check lockName ttl deadline =>
    if now ≥ deadline then .done (.ok false) else .attempt lockName ttl deadline
  | stage => stage

/-! ## In memory -/

structure InMemoryDistributedLock where
  locks : Dict String (String × ℚ) := ∅

namespace InMemoryDistributedLock

variable (lock : InMemoryDistributedLock) (lockName holderId : String)

/-- Deletes the entries that are over, whatever their name. -/
def cleanupExpired (now : ℚ) : InMemoryDistributedLock :=
  let expired := lock.locks.keys.filter fun k =>
    ((lock.locks.get? k).map Prod.snd).any fun exp => now ≥ exp
  { locks := expired.foldl Dict.erase lock.locks }

/-- One round of the loop of `acquire`: the entries are cleaned up at one reading of the clock, and
an entry is made at the next. -/
def attempt (ttl now later : ℚ) : Bool × InMemoryDistributedLock :=
  let lock := lock.cleanupExpired now
  if (lock.locks.get? lockName).isNone then
    (true, { locks := lock.locks.set lockName (holderId, later + ttl) })
  else (false, lock)

def release : Bool × InMemoryDistributedLock :=
  match lock.locks.get? lockName with
  | none => (false, lock)
  | some (holder, _) =>
    if holderId ≠ "" ∧ holder ≠ holderId then (false, lock)
    else (true, { locks := lock.locks.erase lockName })

def isLocked (now : ℚ) : Bool × InMemoryDistributedLock :=
  let lock := lock.cleanupExpired now
  ((lock.locks.get? lockName).isSome, lock)

end InMemoryDistributedLock

/-! ## In Redis -/

/-- The keys with the prefix of the locks, by the name after it, and the clock of the server. -/
structure LockServer where
  keys : String → Option (String × ℚ) := fun _ => none
  now : ℚ := 0

namespace LockServer

variable (s : LockServer) (lockName : String)

/-- `GET`; a key is gone when its time is over. -/
def get : Option String :=
  match s.keys lockName with
  | some (holder, expiry) => if s.now < expiry then some holder else none
  | none => none

/-- `SET … NX PX`, which refuses a time to live that is not positive. -/
def setNxPx (holder : String) (ttlMs : ℤ) : Except PyError Bool × LockServer :=
  if ttlMs ≤ 0 then (.error (.exception "invalid expire time in 'set' command"), s)
  else if (s.get lockName).isSome then (.ok false, s)
  else (.ok true, { s with
    keys := Function.update s.keys lockName (some (holder, s.now + ttlMs / 1000)) })

/-- `DEL`, and whether there was a key. -/
def delete : Bool × LockServer :=
  ((s.get lockName).isSome, { s with keys := Function.update s.keys lockName none })

end LockServer

namespace RedisDistributedLock

/-- The first command of a call; `now` is the client's own clock. -/
def start (holderId : String) (now : ℚ) : LockCall → LockStage
  | .acquire lockName timeout ttl => .attempt lockName ttl (now + timeout)
  | .release lockName => if holderId ≠ "" then .releaseGet lockName else .releaseDelete lockName
  | .isLocked lockName => .existsKey lockName

/-- Sends the command of the stage. -/
def command (s : LockServer) (holderId : String) : LockStage → LockStage × LockServer
  | .attempt lockName ttl deadline =>
    match s.setNxPx lockName (if holderId = "" then "_" else holderId)
      (intOfFloat (ttl * 1000)) with
    | (.ok true, s) => (.done (.ok true), s)
    | (.ok false, s) => (.check lockName ttl deadline, s)
    | (.error e, s) => (.done (.error e), s)
  | .releaseGet lockName =>
    match s.get lockName with
    | none => (.done (.ok false), s)
    | some current =>
      if current ≠ holderId then (.done (.ok false), s) else (.releaseDelete lockName, s)
  | .releaseDelete lockName => (.done (.ok (s.delete lockName).1), (s.delete lockName).2)
  | .existsKey lockName => (.done (.ok (s.get lockName).isSome), s)
  | stage => (stage, s)

end RedisDistributedLock

end AgentLearning
