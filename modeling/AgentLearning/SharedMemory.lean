import AgentLearning.Lib.Prog
import AgentLearning.MemoryBackend

/-!
# Shared memory

`src/multi_agent/shared_memory.py`: versioned entries with compare-and-set and a time to live, over
a backend, or in the object where there is none. Every operation is a program whose actions are the
calls of the backend. What the clock reads is an argument; entries are immutable, so a copy of one
is the entry.
-/

namespace AgentLearning

structure VersionConflictError where
  message : String
  deriving DecidableEq, Repr

structure MemoryEntry where
  key : String
  value : Json
  version : ℤ
  writerRole : String
  updatedAt : ℚ
  expiresAt : Option ℚ := none

def MemoryRecord.toEntry (r : MemoryRecord) : MemoryEntry :=
  { key := r.key, value := r.value, version := r.version, writerRole := r.writerRole
    updatedAt := r.updatedAt, expiresAt := r.expiresAt }

namespace MemoryEntry

def toRecord (entry : MemoryEntry) : MemoryRecord :=
  { key := entry.key, value := entry.value, version := entry.version
    writerRole := entry.writerRole, updatedAt := entry.updatedAt, expiresAt := entry.expiresAt }

/-- The entry is over; one without an end never is. -/
def expired (now : ℚ) (entry : MemoryEntry) : Bool := entry.expiresAt.any fun t => !(t > now)

end MemoryEntry

/-- The readings of a write: at its cleanup, for the end of its entry, and for the stamp of its
entry. -/
structure MemoryClock where
  cleanup : ℚ
  expiry : ℚ
  stamp : ℚ

/-- The readings of a write that are all the same. -/
def MemoryClock.at (now : ℚ) : MemoryClock := { cleanup := now, expiry := now, stamp := now }

/-- The arguments of a write. -/
structure MemoryWrite where
  key : String
  value : Json
  writerRole : String
  expectedVersion : Option ℤ := none
  ttlSeconds : Option ℚ := none

namespace MemoryWrite

variable (w : MemoryWrite)

def checkVersion (current : Option MemoryEntry) : Except VersionConflictError Unit :=
  match w.expectedVersion with
  | none => .ok ()
  | some expected =>
    let actual := current.elim 0 MemoryEntry.version
    if actual ≠ expected then
      let key := w.key
      .error ⟨s!"version conflict for '{key}': expected {expected}, actual {actual}"⟩
    else .ok ()

def entry (clock : MemoryClock) (current : Option MemoryEntry) : MemoryEntry :=
  { key := w.key
    value := w.value
    version := current.elim 1 fun current => current.version + 1
    writerRole := w.writerRole
    updatedAt := clock.stamp
    expiresAt := w.ttlSeconds.map (clock.expiry + ·) }

end MemoryWrite

structure SharedMemoryStore (β : Type) where
  backend : Option β := none
  entries : Dict String MemoryEntry := ∅
  history : Dict String (List ℤ) := ∅

/-- A program of one store; it takes nothing from outside but what the backend answers. -/
abbrev MemoryM (β : Type) := Prog Unit (SharedMemoryStore β) VersionConflictError

namespace SharedMemoryStore

variable {β : Type} [SharedMemoryBackend β]

open SharedMemoryBackend

def load (key : String) : MemoryM β (Option MemoryEntry) :=
  .atomic fun s => .ok (match s.backend with
    | some b => (get b key).map MemoryRecord.toEntry
    | none => s.entries.get? key, s)

def store (entry : MemoryEntry) : MemoryM β Unit :=
  .atomic fun s => .ok ((), match s.backend with
    | some b => { s with backend := some (put b entry.toRecord) }
    | none => { s with entries := s.entries.set entry.key entry })

def remove (key : String) : MemoryM β Unit :=
  .atomic fun s => .ok ((), match s.backend with
    | some b => { s with backend := some (delete b key).2 }
    | none => { s with entries := s.entries.erase key })

/-- The entries of the records of a backend, by their keys. -/
def entriesOf (records : List MemoryRecord) : Dict String MemoryEntry :=
  records.foldl (fun d r => d.set r.key r.toEntry) ∅

def allEntries : MemoryM β (Dict String MemoryEntry) :=
  .atomic fun s => .ok (match s.backend with
    | some b => entriesOf (listAll b)
    | none => s.entries, s)

/-- `self._history.setdefault(key, []).append(version)`. -/
def appendHistory (key : String) (version : ℤ) : MemoryM β Unit :=
  .atomic fun s => .ok ((), { s with
    history := s.history.set key ((s.history.get? key).getD [] ++ [version]) })

/-- The loop of `cleanup_expired` over the entries it listed. -/
def removeExpired (now : ℚ) : List (String × MemoryEntry) → MemoryM β (List String)
  | [] => pure []
  | (key, entry) :: rest =>
    if entry.expired now then do
      remove key
      let removed ← removeExpired now rest
      pure (key :: removed)
    else removeExpired now rest

def cleanupExpired (now : ℚ) : MemoryM β (List String) := do
  let entries ← allEntries
  removeExpired now entries.entries

def read (now : ℚ) (key : String) : MemoryM β (Option MemoryEntry) := do
  let _ ← cleanupExpired now
  load key

/-- `write` after the cleanup. -/
def compareAndStore (clock : MemoryClock) (w : MemoryWrite) : MemoryM β MemoryEntry := do
  let current ← load w.key
  Prog.ofExcept (w.checkVersion current)
  store (w.entry clock current)
  appendHistory w.key (w.entry clock current).version
  pure (w.entry clock current)

def write (clock : MemoryClock) (w : MemoryWrite) : MemoryM β MemoryEntry := do
  let _ ← cleanupExpired clock.cleanup
  compareAndStore clock w

def snapshot (now : ℚ) : MemoryM β (Dict String MemoryEntry) := do
  let _ ← cleanupExpired now
  allEntries

def getHistory (key : String) : MemoryM β (List ℤ) :=
  .atomic fun s => .ok ((s.history.get? key).getD [], s)

end SharedMemoryStore

/-- A call on a store, with its arguments and the readings it takes. -/
inductive MemoryCall
  | read (now : ℚ) (key : String)
  | write (clock : MemoryClock) (w : MemoryWrite)
  | cleanupExpired (now : ℚ)
  | snapshot (now : ℚ)
  | getHistory (key : String)

/-- What a call returns. -/
inductive MemoryResult
  | entry (entry : Option MemoryEntry)
  | written (entry : MemoryEntry)
  | removed (keys : List String)
  | snapshot (entries : Dict String MemoryEntry)
  | history (versions : List ℤ)

namespace SharedMemoryStore

variable {β : Type} [SharedMemoryBackend β]

/-- The program of a call. -/
def prog : MemoryCall → MemoryM β MemoryResult
  | .read now key => .entry <$> read now key
  | .write clock w => .written <$> write clock w
  | .cleanupExpired now => .removed <$> cleanupExpired now
  | .snapshot now => .snapshot <$> snapshot now
  | .getHistory key => .history <$> getHistory key

/-- A call with no other store in between. -/
def call (s : SharedMemoryStore β) (c : MemoryCall) :
    Except VersionConflictError MemoryResult × SharedMemoryStore β :=
  (prog c).run () s

/-- The calls one after the other, each with its result, and the store after them. -/
def calls : SharedMemoryStore β → List MemoryCall →
    List (MemoryCall × Except VersionConflictError MemoryResult) × SharedMemoryStore β
  | s, [] => ([], s)
  | s, c :: cs => ((c, (s.call c).1) :: ((s.call c).2.calls cs).1, ((s.call c).2.calls cs).2)

end SharedMemoryStore

end AgentLearning
