import AgentLearning.Proofs.Sweep

/-!
# Runs with sweeps

Instances register, send heartbeats, put sessions and sweep, one operation after the other. A
session that was put when its instance was marked already is `late`, and no sweep sees it. No other
open session of an instance whose heartbeat is too old is left after a sweep.
-/

namespace AgentLearning

open SessionStoreBackend

/-- An operation on the database, with the readings of the clock it takes. -/
inductive RecoveryOp
  | register (now : ℚ) (instanceId hostname : String)
  | heartbeat (now : ℚ) (instanceId : String)
  | deregister (instanceId : String)
  | put (record : SessionRecord)
  | recover (recovery : CrossInstanceRecovery) (clock : SweepClock)

variable {β : Type} [SessionStoreBackend β]

namespace RecoveryDb

variable (db : RecoveryDb β)

def apply : RecoveryOp → RecoveryDb β
  | .register now iid hostname =>
    { db with instances := (InstanceRegistry.register db.instances now iid hostname).2 }
  | .heartbeat now iid =>
    { db with instances := (InstanceRegistry.heartbeat db.instances now iid).2 }
  | .deregister iid => { db with instances := (InstanceRegistry.deregister db.instances iid).2 }
  | .put record => { db with sessions := SessionStoreBackend.put db.sessions record }
  | .recover recovery clock => ((recovery.recover clock).run () db).2

/-- The instance is registered and marked. -/
def isMarked (iid : String) : Bool :=
  (db.instances.find? iid).any fun info => info.status = .expired

variable {db}

/-- A row after an operation: the instance has just registered or sent a heartbeat, or the row was
there before, and a sweep may have marked it. -/
theorem find?_apply {op : RecoveryOp} {iid : String} {info : InstanceInfo}
    (h : (db.apply op).instances.find? iid = some info) :
    info.status = .alive ∧ ((∃ now hostname, op = .register now iid hostname) ∨
        ∃ now, op = .heartbeat now iid) ∨
      ∃ info', db.instances.find? iid = some info' ∧ (info = info' ∨
        ∃ recovery clock, op = .recover recovery clock ∧ iid ∈ recovery.expiredIds clock db ∧
          info = { info' with status := .expired }) := by
  cases op with
  | register now iid' hostname =>
    simp only [apply, InstanceRegistry.register, Table.find?_insertOrReplace] at h
    split_ifs at h with hiid
    · cases h
      exact .inl ⟨rfl, .inl ⟨now, hostname, by rw [hiid]⟩⟩
    · exact .inr ⟨info, h, .inl rfl⟩
  | heartbeat now iid' =>
    simp only [apply, InstanceRegistry.find?_heartbeat, Option.map_eq_some_iff] at h
    obtain ⟨info', hfind, rfl⟩ := h
    obtain rfl := Table.key_of_find? _ hfind
    split_ifs with hiid
    · exact .inl ⟨rfl, .inr ⟨now, by rw [hiid]⟩⟩
    · exact .inr ⟨info', hfind, .inl rfl⟩
  | deregister iid' =>
    simp only [apply, InstanceRegistry.deregister, Table.find?_erase] at h
    split_ifs at h
    exact .inr ⟨info, h, .inl rfl⟩
  | put record => exact .inr ⟨info, h, .inl rfl⟩
  | recover recovery clock =>
    simp only [apply, recovery.run_recover clock, CrossInstanceRecovery.swept,
      recovery.find?_marked clock, Option.map_eq_some_iff] at h
    obtain ⟨info', hfind, rfl⟩ := h
    refine .inr ⟨info', hfind, ?_⟩
    split_ifs with hids
    · exact .inr ⟨recovery, clock, rfl, Table.key_of_find? _ hfind ▸ hids, rfl⟩
    · exact .inl rfl

end RecoveryDb

/-- The database, and which sessions were open and their instance marked when they were last
put. -/
structure RecoveryRun (β : Type) where
  db : RecoveryDb β
  late : String → Bool := fun _ => false

namespace RecoveryRun

variable (s : RecoveryRun β)

def step (op : RecoveryOp) : RecoveryRun β where
  db := s.db.apply op
  late := match op with
    | .put record =>
      Function.update s.late record.sessionId (record.isOpen && s.db.isMarked record.instanceId)
    | _ => s.late

def run (ops : List RecoveryOp) : RecoveryRun β := ops.foldl step s

/-- An open session of a marked instance is late. -/
def LateOnly : Prop :=
  ∀ r info, get s.db.sessions r.sessionId = some r → r.isOpen →
    s.db.instances.find? r.instanceId = some info → info.status = .expired → s.late r.sessionId

variable {s}

theorem LateOnly.step (h : s.LateOnly) (op : RecoveryOp) : (s.step op).LateOnly := by
  intro r info hget hopen hfind hexpired
  rcases RecoveryDb.find?_apply hfind with ⟨halive, -⟩ | ⟨info', hfind', hinfo⟩
  · rw [halive] at hexpired
    cases hexpired
  cases op with
  | put record =>
    rcases hinfo with rfl | ⟨_, _, hop, -⟩
    · simp only [RecoveryRun.step, RecoveryDb.apply, get_put] at hget
      simp only [RecoveryRun.step, Function.update_apply]
      split_ifs at hget with hid
      · cases hget
        simp [hopen, RecoveryDb.isMarked, hfind', hexpired]
      · rw [if_neg (Ne.symm hid)]
        exact h r info hget hopen hfind' hexpired
    · cases hop
  | recover recovery clock =>
    simp only [RecoveryRun.step, RecoveryDb.apply, recovery.run_recover clock] at hget
    obtain ⟨hget, hnot⟩ := recovery.get_swept_of_open clock s.db hget hopen
    rcases hinfo with rfl | ⟨_, _, ⟨⟩, hids, -⟩
    · exact h r info hget hopen hfind' hexpired
    · exact absurd hids hnot
  | _ =>
    rcases hinfo with rfl | ⟨_, _, hop, -⟩
    · exact h r info hget hopen hfind' hexpired
    · cases hop

theorem LateOnly.run : ∀ {s : RecoveryRun β} (ops : List RecoveryOp), s.LateOnly →
    (s.run ops).LateOnly
  | _, [], h => h
  | _, op :: ops, h => LateOnly.run ops (h.step op)

end RecoveryRun

/-- After any run, right after a sweep: an open session of a registered instance whose last
heartbeat is older than the ttl allows was put when the instance was marked already. -/
theorem late_of_open_after_recover (sessions : β) (ops : List RecoveryOp)
    (recovery : CrossInstanceRecovery) (clock : SweepClock) {r : SessionRecord}
    {info : InstanceInfo} :
    let s := (({ db := { sessions } } : RecoveryRun β).run ops).step (.recover recovery clock)
    get s.db.sessions r.sessionId = some r → r.isOpen →
      s.db.instances.find? r.instanceId = some info →
      info.lastHeartbeat < clock.detect - recovery.heartbeatTtl → s.late r.sessionId := by
  intro s hget hopen hfind hold
  have hstart : ({ db := { sessions } } : RecoveryRun β).LateOnly := by
    intro r info _ _ hfind
    cases hfind
  have h := (hstart.run ops).step (.recover recovery clock)
  refine h r info hget hopen hfind ?_
  simp only [s, RecoveryRun.step, RecoveryDb.apply, recovery.run_recover clock] at hfind
  exact recovery.status_of_find?_marked clock _ hfind hold

/-- A record is there and open if its state and its owner are read so. -/
theorem exists_open_session {b : β} {sessionId instanceId : String}
    (h : (get b sessionId).map (fun r => (r.state, r.instanceId)) = some ("running", instanceId)) :
    ∃ r, r.sessionId = sessionId ∧ get b r.sessionId = some r ∧ r.isOpen ∧
      r.instanceId = instanceId := by
  obtain ⟨r, hget, hr⟩ := Option.map_eq_some_iff.mp h
  obtain ⟨hstate, howner⟩ := Prod.mk.inj hr
  have hid : r.sessionId = sessionId := id_of_get hget
  exact ⟨r, hid, hid ▸ hget, by simp [SessionRecord.isOpen, hstate], howner⟩

/-- A running session. -/
def sampleSession (sessionId instanceId : String) : SessionRecord :=
  { sessionId, instanceId, state := "running", payload := .null, createdAt := 0, updatedAt := 0 }

/-- An instance that has stopped sending heartbeats is marked, and puts a session after that. -/
def putAfterMark : List RecoveryOp :=
  [.register 0 "a" "", .register 100 "b" "", .recover { recoveryInstanceId := "b" } (.at 100),
    .put (sampleSession "s" "a")]

theorem late_of_open_after_recover_put :
    let s := (({ db := { sessions := {} } } : RecoveryRun SQLiteSessionStoreBackend).run
      putAfterMark).step (.recover { recoveryInstanceId := "b" } (.at 110))
    s.late "s" = true := by
  intro s
  have hstate : (get s.db.sessions "s").map (fun r => (r.state, r.instanceId))
      = some ("running", "a") := by
    decide +kernel
  obtain ⟨r, hid, hget, hopen, howner⟩ := exists_open_session hstate
  have hfind : s.db.instances.find? r.instanceId = some ⟨"a", "", 0, 0, .expired⟩ := by
    rw [howner]
    decide +kernel
  rw [← hid]
  exact late_of_open_after_recover ({} : SQLiteSessionStoreBackend) putAfterMark _ _ hget hopen
    hfind (by decide +kernel)

/-- The state of a session, if its instance is registered with a heartbeat before the cutoff. -/
def RecoveryDb.staleState (db : RecoveryDb β) (sessionId : String) (cutoff : ℚ) :
    Option String := do
  let r ← get db.sessions sessionId
  let info ← db.instances.find? r.instanceId
  if info.lastHeartbeat < cutoff then some r.state else none

/-- The instance that took a session over dies too: no sweep takes over a session that is
recovered. Nor does one take over a session that was put when its instance was marked. -/
theorem stale_after_recover :
    let adopted : List RecoveryOp :=
      [.register 0 "a" "", .put (sampleSession "s" "a"), .register 100 "b" "",
        .recover { recoveryInstanceId := "b" } (.at 100), .register 200 "c" "",
        .recover { recoveryInstanceId := "c" } (.at 200)]
    let late := putAfterMark ++ [.recover { recoveryInstanceId := "b" } (.at 110)]
    let db : RecoveryDb SQLiteSessionStoreBackend := { sessions := {} }
    (adopted.foldl RecoveryDb.apply db).staleState "s" (200 - 30) = some "recovered" ∧
      (late.foldl RecoveryDb.apply db).staleState "s" (110 - 30) = some "running" := by
  decide +kernel

end AgentLearning
