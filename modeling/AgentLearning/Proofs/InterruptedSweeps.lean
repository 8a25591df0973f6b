import AgentLearning.Proofs.SweepRuns
import AgentLearning.Proofs.SweepStages

/-!
# Sweeps that are cut off

A sweep is cut off after some of its statements. It has marked the instances it found before it
touches their sessions, and a sweep finds only instances that are not marked: what the first sweep
left, the next one takes over exactly if the instance is not marked.
-/

namespace AgentLearning

open SessionStoreBackend

variable {β : Type} [SessionStoreBackend β]

/-- The first statements of a sweep. -/
def SweepStage.steps (recovery : CrossInstanceRecovery) (clock : SweepClock) :
    ℕ → SweepStage × RecoveryDb β → SweepStage × RecoveryDb β
  | 0, p => p
  | n + 1, p => steps recovery clock n (p.1.step recovery clock p.2)

/-- An operation, or a sweep that is cut off. -/
inductive SweepEvent
  | op (op : RecoveryOp)
  | cut (recovery : CrossInstanceRecovery) (clock : SweepClock) (statements : ℕ)

/-- The instance sends a heartbeat, or registers again. -/
def SweepEvent.Revives (iid : String) : SweepEvent → Prop
  | .op (.register _ iid' _) => iid' = iid
  | .op (.heartbeat _ iid') => iid' = iid
  | _ => False

namespace RecoveryDb

def after (db : RecoveryDb β) : SweepEvent → RecoveryDb β
  | .op op => db.apply op
  | .cut recovery clock n => (SweepStage.steps recovery clock n (.select, db)).2

/-- The row of an instance, if there is one. -/
def RowIs (db : RecoveryDb β) (iid : String) (P : InstanceInfo → Prop) : Prop :=
  ∀ info, db.instances.find? iid = some info → P info

variable {db : RecoveryDb β} {iid : String} {P : InstanceInfo → Prop}
  (hmark : ∀ info, P info → P { info with status := .expired })

include hmark

omit [SessionStoreBackend β] in
theorem RowIs.markExpired (h : db.RowIs iid P) (ids : List String) :
    RowIs { db with instances := InstanceRegistry.markExpired db.instances ids } iid P := by
  intro info hfind
  simp only [InstanceRegistry.find?_markExpired, Option.map_eq_some_iff] at hfind
  obtain ⟨info', hfind, rfl⟩ := hfind
  split_ifs
  · exact hmark _ (h info' hfind)
  · exact h info' hfind

theorem RowIs.step (h : db.RowIs iid P) (recovery : CrossInstanceRecovery) (clock : SweepClock)
    (stage : SweepStage) : (stage.step recovery clock db).2.RowIs iid P := by
  cases stage with
  | mark expired => exact h.markExpired hmark _
  | _ => exact h

theorem RowIs.steps (recovery : CrossInstanceRecovery) (clock : SweepClock) :
    ∀ (n : ℕ) {stage : SweepStage} {db : RecoveryDb β}, db.RowIs iid P →
      (SweepStage.steps recovery clock n (stage, db)).2.RowIs iid P
  | 0, _, _, h => h
  | n + 1, stage, _, h => RowIs.steps recovery clock n (h.step hmark recovery clock stage)

/-- What holds of a row and is kept by a mark is kept by everything but what revives the
instance. -/
theorem RowIs.after (h : db.RowIs iid P) {event : SweepEvent} (hquiet : ¬ event.Revives iid) :
    (db.after event).RowIs iid P := by
  cases event with
  | cut recovery clock n => exact RowIs.steps hmark recovery clock n h
  | op op =>
    intro info hfind
    rcases RecoveryDb.find?_apply hfind with ⟨-, hrevives⟩ | ⟨info', hfind', hinfo⟩
    · rcases hrevives with ⟨now, hostname, rfl⟩ | ⟨now, rfl⟩ <;> exact absurd rfl hquiet
    · rcases hinfo with rfl | ⟨_, _, -, -, rfl⟩
      · exact h info hfind'
      · exact hmark _ (h info' hfind')

theorem RowIs.events {events : List SweepEvent} (h : db.RowIs iid P)
    (hquiet : ∀ event ∈ events, ¬ event.Revives iid) :
    (events.foldl RecoveryDb.after db).RowIs iid P := by
  induction events generalizing db with
  | nil => exact h
  | cons event events ih =>
    rw [List.forall_mem_cons] at hquiet
    exact ih (h.after hmark hquiet.1) hquiet.2

end RecoveryDb

namespace CrossInstanceRecovery

variable (recovery : CrossInstanceRecovery) (clock : SweepClock) (db : RecoveryDb β)

/-- The last heartbeat of the instance is older than the ttl allows, whether it is marked or
not. -/
def Dead (iid : String) : Prop :=
  ∃ info, db.instances.find? iid = some info ∧
    info.lastHeartbeat < clock.detect - recovery.heartbeatTtl

/-- The sweep reports the session, and takes it over. -/
def Reassigns (r : SessionRecord) : Prop :=
  (∃ result, ((recovery.recover clock).run () db).1 = .ok result ∧
    r.sessionId ∈ result.recoveredSessions) ∧
  get ((recovery.recover clock).run () db).2.sessions r.sessionId
    = some (recovery.adopted clock r)

/-- A sweep takes over the open sessions of the instances that are too old and not marked. -/
theorem reassigns_iff {r : SessionRecord} (hget : get db.sessions r.sessionId = some r)
    (hopen : r.isOpen) :
    recovery.Reassigns clock db r ↔ ∃ info, db.instances.find? r.instanceId = some info ∧
      info.lastHeartbeat < clock.detect - recovery.heartbeatTtl ∧ info.status = .alive := by
  rw [Reassigns, run_recover, ← mem_expiredIds]
  constructor
  · rintro ⟨⟨_, ⟨⟩, hmem⟩, -⟩
    obtain ⟨r', hr', hid⟩ := List.mem_map.mp hmem
    obtain ⟨hget', -, hids⟩ := (recovery.mem_orphans clock db).mp hr'
    rw [hid, hget] at hget'
    cases hget'
    exact hids
  · intro hids
    have hr := (recovery.mem_orphans clock db).mpr ⟨hget, hopen, hids⟩
    exact ⟨⟨_, rfl, List.mem_map_of_mem hr⟩, recovery.get_swept_of_orphan clock db hr⟩

end CrossInstanceRecovery

/-- A sweep that is cut off after its `UPDATE` has marked what it found. -/
theorem CrossInstanceRecovery.rowIs_expired_of_cut (recovery : CrossInstanceRecovery)
    (clock : SweepClock) (db : RecoveryDb β) {statements : ℕ} (hcut : 2 ≤ statements)
    {iid : String} (hiid : iid ∈ recovery.expiredIds clock db) :
    (db.after (.cut recovery clock statements)).RowIs iid fun info => info.status = .expired := by
  obtain ⟨n, rfl⟩ := Nat.exists_eq_add_of_le' hcut
  have hempty : ¬ (recovery.expired clock db).isEmpty := by
    intro h
    rw [expiredIds, List.isEmpty_iff.mp h] at hiid
    cases hiid
  have hselect : SweepStage.select.step recovery clock db
      = (.mark (recovery.expired clock db), db) := by
    show (if (recovery.expired clock db).isEmpty then _ else _, db) = _
    rw [if_neg hempty]
    rfl
  show (SweepStage.steps recovery clock (n + 2) (.select, db)).2.RowIs iid _
  rw [SweepStage.steps, hselect]
  refine RecoveryDb.RowIs.steps (fun _ _ => rfl) recovery clock n fun info hfind => ?_
  have hids : iid ∈ (recovery.expired clock db).map InstanceInfo.instanceId := hiid
  simp only [InstanceRegistry.find?_markExpired, Option.map_eq_some_iff] at hfind
  obtain ⟨info', hfind, rfl⟩ := hfind
  rw [Table.key_of_find? _ hfind, if_pos hids]

/-- A sweep is cut off after some statements, and one with the same ttl is completed later, with no
heartbeat of a dead instance in between: it takes over every open session of an instance that was
dead at the first exactly if no such instance is marked or gone by then. If the first sweep was cut
off after its `UPDATE`, none it found is still unmarked. -/
theorem next_sweep_reassigns_iff (first second : CrossInstanceRecovery) (clock clock' : SweepClock)
    (db : RecoveryDb β) (statements : ℕ) (events : List SweepEvent)
    (httl : second.heartbeatTtl = first.heartbeatTtl) (hlater : clock.detect ≤ clock'.detect)
    (hquiet : ∀ event ∈ events, ∀ iid, first.Dead clock db iid → ¬ event.Revives iid) :
    let db' := events.foldl RecoveryDb.after (db.after (.cut first clock statements))
    ((∀ r, get db'.sessions r.sessionId = some r → r.isOpen → first.Dead clock db r.instanceId →
        second.Reassigns clock' db' r) ↔
      ∀ r, get db'.sessions r.sessionId = some r → r.isOpen → first.Dead clock db r.instanceId →
        ∃ info, db'.instances.find? r.instanceId = some info ∧ info.status = .alive) ∧
    (2 ≤ statements → ∀ iid ∈ first.expiredIds clock db, ∀ info,
      db'.instances.find? iid = some info → info.status = .expired) := by
  intro db'
  have hdead : ∀ iid, first.Dead clock db iid →
      db'.RowIs iid fun info => info.lastHeartbeat < clock.detect - first.heartbeatTtl := by
    rintro iid ⟨info, hfind, hold⟩
    have hrow : db.RowIs iid fun info =>
        info.lastHeartbeat < clock.detect - first.heartbeatTtl := by
      intro info' hfind'
      rw [hfind] at hfind'
      cases hfind'
      exact hold
    exact (hrow.steps (fun _ h => h) first clock statements).events (fun _ h => h)
      fun event hevent => hquiet event hevent iid ⟨info, hfind, hold⟩
  have hcutoff : clock.detect - first.heartbeatTtl ≤ clock'.detect - second.heartbeatTtl := by
    rw [httl]
    exact sub_le_sub_right hlater _
  refine ⟨⟨fun h r hget hopen hr => ?_, fun h r hget hopen hr => ?_⟩, fun hcut iid hiid => ?_⟩
  · obtain ⟨info, hfind, -, halive⟩ :=
      (second.reassigns_iff clock' db' hget hopen).mp (h r hget hopen hr)
    exact ⟨info, hfind, halive⟩
  · obtain ⟨info, hfind, halive⟩ := h r hget hopen hr
    have hold := lt_of_lt_of_le (hdead _ hr info hfind) hcutoff
    exact (second.reassigns_iff clock' db' hget hopen).mpr ⟨info, hfind, hold, halive⟩
  · obtain ⟨info, hfind, hold, halive⟩ := (first.mem_expiredIds clock db).mp hiid
    have hmarked := first.rowIs_expired_of_cut clock db hcut hiid
    exact hmarked.events (fun _ _ => rfl) fun event hevent =>
      hquiet event hevent iid ⟨info, hfind, hold⟩

/-- An instance with a running session, and no heartbeat since. -/
def sampleDb : RecoveryDb SQLiteSessionStoreBackend :=
  [.register 0 "a" "", .put (sampleSession "s" "a")].foldl RecoveryDb.apply { sessions := {} }

theorem dead_sampleDb {recovery : CrossInstanceRecovery} {clock : SweepClock} {iid : String}
    (h : recovery.Dead clock sampleDb iid) : iid = "a" := by
  obtain ⟨info, hfind, -⟩ := h
  have hrows : sampleDb.instances.rows = [⟨"a", "", 0, 0, .alive⟩] := by decide +kernel
  obtain ⟨hmem, rfl⟩ := (Table.find?_eq_some_iff _).mp hfind
  rw [hrows, List.mem_singleton] at hmem
  rw [hmem]

/-- A sweep is cut off after its `SELECT`; the next one takes the session over. -/
theorem next_sweep_reassigns_after_select :
    let recovery : CrossInstanceRecovery := { recoveryInstanceId := "b" }
    let db' := sampleDb.after (.cut recovery (.at 100) 1)
    ∀ r, get db'.sessions r.sessionId = some r → r.isOpen →
      recovery.Dead (.at 100) sampleDb r.instanceId → recovery.Reassigns (.at 101) db' r := by
  intro recovery db'
  refine (next_sweep_reassigns_iff recovery recovery (.at 100) (.at 101) sampleDb 1 [] rfl
    (by decide +kernel) nofun).1.mpr fun r _ _ hdead => ?_
  refine ⟨⟨"a", "", 0, 0, .alive⟩, ?_, rfl⟩
  rw [dead_sampleDb hdead]
  decide +kernel

/-- A sweep is cut off after its `UPDATE`; the next one does not see the instance. -/
theorem not_reassigned_after_update :
    let recovery : CrossInstanceRecovery := { recoveryInstanceId := "b" }
    let db' := sampleDb.after (.cut recovery (.at 100) 2)
    ∃ r, get db'.sessions r.sessionId = some r ∧ r.isOpen ∧
      recovery.Dead (.at 100) sampleDb r.instanceId ∧ ¬ recovery.Reassigns (.at 101) db' r := by
  intro recovery db'
  have hstate : (get db'.sessions "s").map (fun r => (r.state, r.instanceId))
      = some ("running", "a") := by
    decide +kernel
  obtain ⟨r, -, hget, hopen, howner⟩ := exists_open_session hstate
  refine ⟨r, hget, hopen, ⟨⟨"a", "", 0, 0, .alive⟩, ?_, by decide +kernel⟩, fun h => ?_⟩
  · rw [howner]
    decide +kernel
  · obtain ⟨info, hfind, -, halive⟩ := (recovery.reassigns_iff (.at 101) db' hget hopen).mp h
    have hmarked : db'.instances.find? "a" = some ⟨"a", "", 0, 0, .expired⟩ := by decide +kernel
    rw [howner, hmarked] at hfind
    cases hfind
    cases halive

end AgentLearning
