import Mathlib.Algebra.Order.Ring.Rat
import AgentLearning.Recovery

/-!
# What a sweep does

A sweep that is not interrupted marks the instances whose last heartbeat is too old and takes over
their open sessions (`run_recover`). Over any run, an open session of an instance that is marked
was put when the instance was marked already, so no other one is left after a sweep.
-/

namespace AgentLearning

open SessionStoreBackend

namespace SessionStoreBackend

variable {β : Type} [SessionStoreBackend β] (f : SessionRecord → SessionRecord)

/-- The store after the records were put one after the other. -/
def putAll (b : β) (l : List SessionRecord) : β := l.foldl (fun b r => put b (f r)) b

variable {f} (hf : ∀ r, (f r).sessionId = r.sessionId)

include hf

theorem get_putAll_of_notMem {k : String} : ∀ {l : List SessionRecord} (b : β),
    k ∉ l.map SessionRecord.sessionId → get (putAll f b l) k = get b k
  | [], _, _ => rfl
  | r :: l, b, h => by
    rw [List.map_cons, List.mem_cons, not_or] at h
    show get (putAll f (put b (f r)) l) k = _
    rw [get_putAll_of_notMem _ h.2, get_put, hf, if_neg (Ne.symm h.1)]

theorem get_putAll_of_mem {r : SessionRecord} : ∀ {l : List SessionRecord} (b : β),
    (∀ r' ∈ l, r'.sessionId = r.sessionId → r' = r) → r ∈ l →
      get (putAll f b l) r.sessionId = some (f r)
  | [], _, _, h => by cases h
  | r' :: l, b, hone, h => by
    rw [List.forall_mem_cons] at hone
    show get (putAll f (put b (f r')) l) r.sessionId = _
    by_cases hl : r ∈ l
    · exact get_putAll_of_mem _ hone.2 hl
    · obtain rfl : r = r' := (List.mem_cons.mp h).resolve_right hl
      have hnot : r.sessionId ∉ l.map SessionRecord.sessionId := by
        intro hmem
        obtain ⟨r', hr', hid⟩ := List.mem_map.mp hmem
        exact hl (hone.2 r' hr' hid ▸ hr')
      rw [get_putAll_of_notMem hf _ hnot, get_put, hf, if_pos rfl]

end SessionStoreBackend

namespace InstanceRegistry

variable {instances : Instances}

theorem mem_selectExpired {cutoff : ℚ} {info : InstanceInfo} :
    info ∈ selectExpired instances cutoff ↔ instances.find? info.instanceId = some info ∧
      info.lastHeartbeat < cutoff ∧ info.status = .alive := by
  rw [selectExpired, List.mem_filter, Table.mem_rows_iff, decide_eq_true_eq]

theorem find?_markExpired (ids : List String) (iid : String) :
    (markExpired instances ids).find? iid = (instances.find? iid).map fun info =>
      if info.instanceId ∈ ids then { info with status := .expired } else info := by
  rw [markExpired, Table.find?_updateWhere]
  simp only [decide_eq_true_eq]

theorem find?_heartbeat (now : ℚ) (iid iid' : String) :
    (heartbeat instances now iid).2.find? iid' = (instances.find? iid').map fun info =>
      if info.instanceId = iid then { info with lastHeartbeat := now, status := .alive }
      else info := by
  rw [heartbeat, Table.find?_updateWhere]
  simp only [decide_eq_true_eq]

end InstanceRegistry

namespace CrossInstanceRecovery

variable {β : Type} [SessionStoreBackend β] (recovery : CrossInstanceRecovery)
  (clock : SweepClock) (db : RecoveryDb β)

/-- The instances a sweep finds expired. -/
def expired : List InstanceInfo :=
  InstanceRegistry.selectExpired db.instances (clock.detect - recovery.heartbeatTtl)

def expiredIds : List String := (recovery.expired clock db).map InstanceInfo.instanceId

/-- The sessions a sweep takes over. -/
def orphans : List SessionRecord :=
  (recovery.expiredIds clock db).flatMap fun iid =>
    (SessionStoreBackend.listByInstance db.sessions iid).filter SessionRecord.isOpen

/-- The registry after the detection. -/
def marked : Instances :=
  if (recovery.expired clock db).isEmpty then db.instances
  else InstanceRegistry.markExpired db.instances (recovery.expiredIds clock db)

/-- The database after a sweep. -/
def swept : RecoveryDb β where
  instances := recovery.marked clock db
  sessions := putAll (recovery.adopted clock) db.sessions (recovery.orphans clock db)

omit [SessionStoreBackend β] in
theorem mem_expiredIds {iid : String} :
    iid ∈ recovery.expiredIds clock db ↔ ∃ info, db.instances.find? iid = some info ∧
      info.lastHeartbeat < clock.detect - recovery.heartbeatTtl ∧ info.status = .alive := by
  simp only [expiredIds, expired, List.mem_map, InstanceRegistry.mem_selectExpired]
  constructor
  · rintro ⟨info, h, rfl⟩
    exact ⟨info, h⟩
  · rintro ⟨info, hfind, h⟩
    obtain rfl := Table.key_of_find? _ hfind
    exact ⟨info, ⟨hfind, h⟩, rfl⟩

theorem mem_orphans {r : SessionRecord} : r ∈ recovery.orphans clock db ↔
    get db.sessions r.sessionId = some r ∧ r.isOpen ∧
      r.instanceId ∈ recovery.expiredIds clock db := by
  simp only [orphans, List.mem_flatMap, List.mem_filter, mem_listByInstance]
  constructor
  · rintro ⟨iid, hiid, ⟨hget, rfl⟩, hopen⟩
    exact ⟨hget, hopen, hiid⟩
  · rintro ⟨hget, hopen, hiid⟩
    exact ⟨_, hiid, ⟨hget, rfl⟩, hopen⟩

theorem sessionId_adopted (r : SessionRecord) :
    (recovery.adopted clock r).sessionId = r.sessionId := rfl

theorem get_swept_of_orphan {r : SessionRecord} (hr : r ∈ recovery.orphans clock db) :
    get (recovery.swept clock db).sessions r.sessionId = some (recovery.adopted clock r) := by
  refine get_putAll_of_mem (recovery.sessionId_adopted clock) _ (fun r' hr' hid => ?_) hr
  have hget := ((recovery.mem_orphans clock db).mp hr).1
  have hget' := ((recovery.mem_orphans clock db).mp hr').1
  rw [hid, hget] at hget'
  exact (Option.some.inj hget').symm

/-- A session that is open after a sweep was there before, under an instance it did not find. -/
theorem get_swept_of_open {r : SessionRecord}
    (hget : get (recovery.swept clock db).sessions r.sessionId = some r) (hopen : r.isOpen) :
    get db.sessions r.sessionId = some r ∧ r.instanceId ∉ recovery.expiredIds clock db := by
  have hnot : r.sessionId ∉ (recovery.orphans clock db).map SessionRecord.sessionId := by
    intro hmem
    obtain ⟨r', hr', hid⟩ := List.mem_map.mp hmem
    rw [← hid, recovery.get_swept_of_orphan clock db hr'] at hget
    obtain rfl := Option.some.inj hget
    simp [SessionRecord.isOpen, adopted] at hopen
  simp only [swept, get_putAll_of_notMem (recovery.sessionId_adopted clock) _ hnot] at hget
  refine ⟨hget, fun hids => hnot ?_⟩
  exact List.mem_map_of_mem ((recovery.mem_orphans clock db).mpr ⟨hget, hopen, hids⟩)

omit [SessionStoreBackend β] in
theorem find?_marked (iid : String) : (recovery.marked clock db).find? iid =
    (db.instances.find? iid).map fun info =>
      if info.instanceId ∈ recovery.expiredIds clock db then { info with status := .expired }
      else info := by
  unfold marked
  split_ifs with hempty
  · have hids : recovery.expiredIds clock db = [] := by
      rw [expiredIds, List.isEmpty_iff.mp hempty, List.map_nil]
    simp [hids]
  · exact InstanceRegistry.find?_markExpired _ iid

omit [SessionStoreBackend β] in
/-- The instances whose heartbeat is too old are marked after a sweep. -/
theorem status_of_find?_marked {iid : String} {info : InstanceInfo}
    (hfind : (recovery.marked clock db).find? iid = some info)
    (hold : info.lastHeartbeat < clock.detect - recovery.heartbeatTtl) :
    info.status = .expired := by
  rw [find?_marked, Option.map_eq_some_iff] at hfind
  obtain ⟨info', hfind, rfl⟩ := hfind
  split_ifs at hold ⊢ with hids
  · rfl
  · rcases hstatus : info'.status with _ | _
    · have hid := Table.key_of_find? _ hfind
      exact absurd ((recovery.mem_expiredIds clock db).mpr ⟨info', hid ▸ hfind, hold, hstatus⟩) hids
    · rfl

/-! ## The programs -/

omit [SessionStoreBackend β] in
theorem run_detectExpired : (detectExpired (clock.detect - recovery.heartbeatTtl)).run () db =
    (.ok (recovery.expired clock db), { db with instances := recovery.marked clock db }) := by
  rw [detectExpired, Prog.run_bind]
  show ((if (recovery.expired clock db).isEmpty then _ else _ : RecoveryM β _)).run () db = _
  rw [marked]
  split_ifs <;> rfl

theorem run_findOrphans : ∀ (ids : List String) (acc : List SessionRecord) (db : RecoveryDb β),
    (findOrphans ids acc).run () db =
      (.ok (acc ++ ids.flatMap fun iid =>
        (SessionStoreBackend.listByInstance db.sessions iid).filter SessionRecord.isOpen), db)
  | [], acc, db => by simp [findOrphans]
  | iid :: rest, acc, db => by
    rw [findOrphans, Prog.run_bind]
    show (findOrphans rest _).run () db = _
    rw [run_findOrphans rest, List.flatMap_cons, List.append_assoc]

theorem run_reassign : ∀ (l : List SessionRecord) (acc : List String) (db : RecoveryDb β),
    (recovery.reassign clock l acc).run () db = (.ok (acc ++ l.map SessionRecord.sessionId),
      { db with sessions := putAll (recovery.adopted clock) db.sessions l })
  | [], acc, db => by simp [reassign, putAll]
  | r :: rest, acc, db => by
    rw [reassign, Prog.run_bind]
    show (recovery.reassign clock rest _).run () _ = _
    rw [run_reassign rest, List.map_cons, List.append_assoc]
    rfl

/-- What a sweep returns, if nothing comes between its statements. -/
def sweepResult : RecoveryResult :=
  result clock (recovery.expired clock db) (recovery.orphans clock db)
    ((recovery.orphans clock db).map SessionRecord.sessionId)

theorem run_recover : (recovery.recover clock).run () db =
    (.ok (recovery.sweepResult clock db), recovery.swept clock db) := by
  rw [recover, Prog.run_bind, run_detectExpired]
  simp only [Prog.run_bind, run_findOrphans, run_reassign, Prog.run_pure]
  rfl

end CrossInstanceRecovery

end AgentLearning
