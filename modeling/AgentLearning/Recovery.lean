import AgentLearning.Lib.Prog
import AgentLearning.Lib.Table
import AgentLearning.Value

/-!
# Recovery across instances

The session store of `src/persistence/interfaces.py` with its implementations in `in_memory.py` and
`sqlite_backend.py`, the registry of `instance_registry.py`, and the sweep of `recovery.py`. A sweep
is a program whose actions are its statements; what the clock reads is an argument.
-/

namespace AgentLearning

/-! ## Sessions -/

structure SessionRecord where
  sessionId : String
  instanceId : String
  state : String
  payload : Json
  createdAt : ℚ
  updatedAt : ℚ
  expiresAt : Option ℚ := none

/-- A store has at most one record under an id, and lists those of an instance. The operations a
sweep does not call are left out. -/
class SessionStoreBackend (β : Type) where
  get : β → String → Option SessionRecord
  put : β → SessionRecord → β
  listByInstance : β → String → List SessionRecord
  get_put : ∀ b r k, get (put b r) k = if r.sessionId = k then some r else get b k
  mem_listByInstance : ∀ b iid r,
    r ∈ listByInstance b iid ↔ get b r.sessionId = some r ∧ r.instanceId = iid
  nodup_listByInstance : ∀ b iid, ((listByInstance b iid).map SessionRecord.sessionId).Nodup
  id_of_get : ∀ {b k r}, get b k = some r → r.sessionId = k

/-- Every record is under its own id. -/
structure InMemorySessionStoreBackend where
  store : Dict String SessionRecord := ∅
  keyed : ∀ k r, store.get? k = some r → r.sessionId = k := by simp

namespace InMemorySessionStoreBackend

variable (backend : InMemorySessionStoreBackend)

def get (sessionId : String) : Option SessionRecord := backend.store.get? sessionId

def put (record : SessionRecord) : InMemorySessionStoreBackend where
  store := backend.store.set record.sessionId record
  keyed := Dict.keyed_set backend.keyed record

def listByInstance (instanceId : String) : List SessionRecord :=
  backend.store.values.filter fun r => r.instanceId = instanceId

instance : SessionStoreBackend InMemorySessionStoreBackend where
  get := get
  put := put
  listByInstance := listByInstance
  get_put b r k := b.store.get?_set r.sessionId k r
  mem_listByInstance b iid r := by
    rw [listByInstance, List.mem_filter, Dict.mem_values_iff b.keyed, decide_eq_true_eq]
    rfl
  nodup_listByInstance b iid :=
    (Dict.nodup_map_values b.keyed).sublist (List.filter_sublist.map _)
  id_of_get h := InMemorySessionStoreBackend.keyed _ _ _ h

end InMemorySessionStoreBackend

/-- The table `sessions`. -/
structure SQLiteSessionStoreBackend where
  sessions : Table SessionRecord.sessionId := ∅

namespace SQLiteSessionStoreBackend

variable (backend : SQLiteSessionStoreBackend)

def get (sessionId : String) : Option SessionRecord := backend.sessions.find? sessionId

def put (record : SessionRecord) : SQLiteSessionStoreBackend :=
  { sessions := backend.sessions.insertOrReplace record }

def listByInstance (instanceId : String) : List SessionRecord :=
  backend.sessions.rows.filter fun r => r.instanceId = instanceId

instance : SessionStoreBackend SQLiteSessionStoreBackend where
  get := get
  put := put
  listByInstance := listByInstance
  get_put b r k := b.sessions.find?_insertOrReplace r k
  mem_listByInstance b iid r := by
    rw [listByInstance, List.mem_filter, Table.mem_rows_iff, decide_eq_true_eq]
    rfl
  nodup_listByInstance b iid := b.sessions.nodup.sublist (List.filter_sublist.map _)
  id_of_get h := Table.key_of_find? _ h

end SQLiteSessionStoreBackend

/-! ## The registry -/

/-- The value of the `status` column. -/
inductive InstanceStatus
  | alive
  | expired
  deriving DecidableEq, Repr

structure InstanceInfo where
  instanceId : String
  hostname : String
  startedAt : ℚ
  lastHeartbeat : ℚ
  status : InstanceStatus
  deriving DecidableEq

/-- The table `instances`. -/
abbrev Instances := Table InstanceInfo.instanceId

namespace InstanceRegistry

variable (instances : Instances)

def register (now : ℚ) (instanceId hostname : String) : InstanceInfo × Instances :=
  let info : InstanceInfo :=
    { instanceId, hostname, startedAt := now, lastHeartbeat := now, status := .alive }
  (info, instances.insertOrReplace info)

def heartbeat (now : ℚ) (instanceId : String) : Bool × Instances :=
  ((instances.find? instanceId).isSome,
    instances.updateWhere (fun r => r.instanceId = instanceId)
      (fun r => { r with lastHeartbeat := now, status := .alive }) fun _ => rfl)

def deregister (instanceId : String) : Bool × Instances :=
  ((instances.find? instanceId).isSome, instances.erase instanceId)

/-- The `SELECT` of `detect_expired`. -/
def selectExpired (cutoff : ℚ) : List InstanceInfo :=
  instances.rows.filter fun r => r.lastHeartbeat < cutoff ∧ r.status = .alive

/-- The `UPDATE` of `detect_expired`. -/
def markExpired (ids : List String) : Instances :=
  instances.updateWhere (fun r => r.instanceId ∈ ids) (fun r => { r with status := .expired })
    fun _ => rfl

end InstanceRegistry

/-! ## The sweep -/

/-- One database: the registry and the sessions. -/
structure RecoveryDb (β : Type) where
  instances : Instances := ∅
  sessions : β

/-- A sweep's program; it fails nowhere. -/
abbrev RecoveryM (β : Type) := Prog Unit (RecoveryDb β) Empty

structure RecoveryResult where
  expiredInstances : List String
  orphanSessions : List String
  recoveredSessions : List String
  timestamp : ℚ
  deriving DecidableEq

/-- The readings of a sweep: for the cutoff, for the sessions it reassigns, and for its result. -/
structure SweepClock where
  detect : ℚ
  now : ℚ
  timestamp : ℚ

def SweepClock.at (now : ℚ) : SweepClock := { detect := now, now, timestamp := now }

/-- The states of a session that is still to be done. -/
def SessionRecord.isOpen (r : SessionRecord) : Bool := r.state = "running" ∨ r.state = "pending"

structure CrossInstanceRecovery where
  recoveryInstanceId : String
  heartbeatTtl : ℚ := 30

namespace CrossInstanceRecovery

variable {β : Type} [SessionStoreBackend β] (recovery : CrossInstanceRecovery)

def selectExpired (cutoff : ℚ) : RecoveryM β (List InstanceInfo) :=
  .atomic fun db => .ok (InstanceRegistry.selectExpired db.instances cutoff, db)

def markExpired (ids : List String) : RecoveryM β Unit :=
  .atomic fun db => .ok ((), { db with instances := InstanceRegistry.markExpired db.instances ids })

def listByInstance (instanceId : String) : RecoveryM β (List SessionRecord) :=
  .atomic fun db => .ok (SessionStoreBackend.listByInstance db.sessions instanceId, db)

def put (record : SessionRecord) : RecoveryM β Unit :=
  .atomic fun db => .ok ((), { db with sessions := SessionStoreBackend.put db.sessions record })

/-- `detect_expired`, which updates nothing if it finds nothing. -/
def detectExpired (cutoff : ℚ) : RecoveryM β (List InstanceInfo) := do
  let expired ← selectExpired cutoff
  if expired.isEmpty then pure expired
  else do
    markExpired (expired.map InstanceInfo.instanceId)
    pure expired

/-- The loop over the expired instances. -/
def findOrphans : List String → List SessionRecord → RecoveryM β (List SessionRecord)
  | [], orphans => pure orphans
  | iid :: rest, orphans => do
    let sessions ← listByInstance iid
    findOrphans rest (orphans ++ sessions.filter SessionRecord.isOpen)

/-- A session in the hands of the recovery instance. -/
def adopted (clock : SweepClock) (session : SessionRecord) : SessionRecord :=
  { session with
    instanceId := recovery.recoveryInstanceId
    state := "recovered"
    updatedAt := clock.now }

/-- The loop over the orphans. -/
def reassign (clock : SweepClock) : List SessionRecord → List String → RecoveryM β (List String)
  | [], recovered => pure recovered
  | session :: rest, recovered => do
    put (recovery.adopted clock session)
    reassign clock rest (recovered ++ [session.sessionId])

/-- What a sweep returns; every orphan is recovered by then. -/
def result (clock : SweepClock) (expired : List InstanceInfo) (orphans : List SessionRecord)
    (recovered : List String) : RecoveryResult :=
  { expiredInstances := expired.map InstanceInfo.instanceId
    orphanSessions := orphans.map SessionRecord.sessionId
    recoveredSessions := recovered
    timestamp := clock.timestamp }

def recover (clock : SweepClock) : RecoveryM β RecoveryResult := do
  let expired ← detectExpired (clock.detect - recovery.heartbeatTtl)
  let orphans ← findOrphans (expired.map InstanceInfo.instanceId) []
  let recovered ← recovery.reassign clock orphans []
  pure (result clock expired orphans recovered)

end CrossInstanceRecovery

end AgentLearning
