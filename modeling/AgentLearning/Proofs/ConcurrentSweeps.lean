import AgentLearning.Proofs.InterruptedSweeps

/-!
# Two sweeps at once

Two instances sweep one database, and their statements come in any order. An instance is found by
the sweep that selects it before the other has marked it, or by both. A session of an instance that
both found is taken over twice exactly if one sweep lists it while the other has it on its list
and has not put it yet.
-/

namespace AgentLearning

open SessionStoreBackend

namespace SweepStage

/-! ## What a sweep has by a stage -/

/-- The instances it found. -/
def found : SweepStage → List String
  | .select => []
  | .mark expired => expired.map InstanceInfo.instanceId
  | .list expired _ _ _ => expired.map InstanceInfo.instanceId
  | .put expired _ _ _ _ => expired.map InstanceInfo.instanceId
  | .done result => result.expiredInstances

/-- The instances whose sessions it has not listed yet. -/
def toSearch : SweepStage → List String
  | .mark expired => expired.map InstanceInfo.instanceId
  | .list _ iid rest _ => iid :: rest
  | _ => []

/-- The sessions on its list. -/
def taken : SweepStage → List String
  | .list _ _ _ orphans => orphans.map SessionRecord.sessionId
  | .put _ orphans _ _ _ => orphans.map SessionRecord.sessionId
  | .done result => result.orphanSessions
  | _ => []

/-- The sessions it has put. -/
def recovered : SweepStage → List String
  | .put _ _ _ _ recovered => recovered
  | .done result => result.recoveredSessions
  | _ => []

/-- The sessions on its list that it has not put yet. -/
def pending : SweepStage → List SessionRecord
  | .list _ _ _ orphans => orphans
  | .put _ _ session rest _ => session :: rest
  | _ => []

section

variable (clock : SweepClock) (expired : List InstanceInfo) (orphans rest : List SessionRecord)
  (ids recovered' : List String)

@[simp]
theorem found_reassigning : (reassigning clock expired orphans rest recovered').found
    = expired.map InstanceInfo.instanceId := by
  cases rest <;> rfl

@[simp]
theorem toSearch_reassigning :
    (reassigning clock expired orphans rest recovered').toSearch = [] := by
  cases rest <;> rfl

@[simp]
theorem taken_reassigning : (reassigning clock expired orphans rest recovered').taken
    = orphans.map SessionRecord.sessionId := by
  cases rest <;> rfl

@[simp]
theorem recovered_reassigning :
    (reassigning clock expired orphans rest recovered').recovered = recovered' := by
  cases rest <;> rfl

@[simp]
theorem pending_reassigning :
    (reassigning clock expired orphans rest recovered').pending = rest := by
  cases rest <;> rfl

@[simp]
theorem found_searching :
    (searching clock expired ids orphans).found = expired.map InstanceInfo.instanceId := by
  cases ids
  · exact found_reassigning ..
  · rfl

@[simp]
theorem toSearch_searching : (searching clock expired ids orphans).toSearch = ids := by
  cases ids
  · exact toSearch_reassigning ..
  · rfl

@[simp]
theorem taken_searching :
    (searching clock expired ids orphans).taken = orphans.map SessionRecord.sessionId := by
  cases ids
  · exact taken_reassigning ..
  · rfl

@[simp]
theorem recovered_searching : (searching clock expired ids orphans).recovered = [] := by
  cases ids
  · exact recovered_reassigning ..
  · rfl

@[simp]
theorem pending_searching : (searching clock expired ids orphans).pending = orphans := by
  cases ids
  · exact pending_reassigning ..
  · rfl

end

theorem isDone_iff {stage : SweepStage} : stage.isDone ↔ ∃ result, stage = .done result := by
  cases stage <;> simp [isDone]

variable {β : Type} [SessionStoreBackend β] (recovery : CrossInstanceRecovery)
  (clock : SweepClock) (db : RecoveryDb β) (stage : SweepStage)

theorem found_subset_step : stage.found ⊆ (stage.step recovery clock db).1.found := by
  cases stage with
  | select => exact List.nil_subset _
  | mark expired =>
    simp only [step, found_searching]
    exact List.Subset.refl _
  | list expired iid rest orphans =>
    simp only [step, found_searching]
    exact List.Subset.refl _
  | put expired orphans session rest recovered =>
    simp only [step, found_reassigning]
    exact List.Subset.refl _
  | done result => exact List.Subset.refl _

/-- The open sessions that a sweep puts on its list next. -/
def listsNext : List SessionRecord :=
  match stage with
  | .list _ iid _ _ =>
    (SessionStoreBackend.listByInstance db.sessions iid).filter SessionRecord.isOpen
  | _ => []

theorem taken_step : (stage.step recovery clock db).1.taken
    = stage.taken ++ (stage.listsNext db).map SessionRecord.sessionId := by
  cases stage with
  | select =>
    simp only [step]
    split_ifs <;> rfl
  | mark expired =>
    simp only [step, taken_searching]
    rfl
  | list expired iid rest orphans =>
    simp only [step, taken_searching, List.map_append]
    rfl
  | put expired orphans session rest recovered =>
    simp only [step, taken_reassigning]
    exact (List.append_nil _).symm
  | done result => exact (List.append_nil _).symm

theorem taken_subset_step : stage.taken ⊆ (stage.step recovery clock db).1.taken := by
  rw [taken_step]
  exact List.subset_append_left _ _

/-- What the `SELECT` finds is to be marked and searched, if it finds anything. -/
theorem step_select : ∃ next, select.step recovery clock db = (next, db) ∧
    next.found = recovery.expiredIds clock db ∧ next.toSearch = recovery.expiredIds clock db ∧
      next.taken = [] ∧ next.recovered = [] ∧ next.pending = [] := by
  have hstep : select.step recovery clock db = (if (recovery.expired clock db).isEmpty
    then searching clock (recovery.expired clock db) [] []
    else mark (recovery.expired clock db), db) := rfl
  rw [hstep, CrossInstanceRecovery.expiredIds]
  rcases recovery.expired clock db with _ | ⟨info, rest⟩
  · exact ⟨_, rfl, rfl, rfl, rfl, rfl, rfl⟩
  · exact ⟨_, rfl, rfl, rfl, rfl, rfl, rfl⟩

/-- What holds of one sweep; `db₀` is the database before both. -/
structure Tracks (db₀ : RecoveryDb β) : Prop where
  even : stage.taken = stage.recovered ++ stage.pending.map SessionRecord.sessionId
  found : ∀ iid ∈ stage.found, iid ∈ recovery.expiredIds clock db₀
  toSearch : stage.toSearch ⊆ stage.found
  taken : ∀ k ∈ stage.taken, ∃ r, get db₀.sessions k = some r ∧ r.isOpen ∧
    r.instanceId ∈ stage.found

variable {recovery clock} {db₀ : RecoveryDb β} {expired : List InstanceInfo}
  {orphans : List SessionRecord}

theorem Tracks.searching {ids : List String}
    (hfound : ∀ iid ∈ expired.map InstanceInfo.instanceId, iid ∈ recovery.expiredIds clock db₀)
    (hids : ids ⊆ expired.map InstanceInfo.instanceId)
    (htaken : ∀ k ∈ orphans.map SessionRecord.sessionId, ∃ r, get db₀.sessions k = some r ∧
      r.isOpen ∧ r.instanceId ∈ expired.map InstanceInfo.instanceId) :
    (searching clock expired ids orphans).Tracks recovery clock db₀ where
  even := by simp
  found := by rwa [found_searching]
  toSearch := by rwa [toSearch_searching, found_searching]
  taken := by rwa [taken_searching, found_searching]

theorem Tracks.reassigning {rest : List SessionRecord} {recovered : List String}
    (heven : orphans.map SessionRecord.sessionId
      = recovered ++ rest.map SessionRecord.sessionId)
    (hfound : ∀ iid ∈ expired.map InstanceInfo.instanceId, iid ∈ recovery.expiredIds clock db₀)
    (htaken : ∀ k ∈ orphans.map SessionRecord.sessionId, ∃ r, get db₀.sessions k = some r ∧
      r.isOpen ∧ r.instanceId ∈ expired.map InstanceInfo.instanceId) :
    (reassigning clock expired orphans rest recovered).Tracks recovery clock db₀ where
  even := by rwa [taken_reassigning, recovered_reassigning, pending_reassigning]
  found := by rwa [found_reassigning]
  toSearch := by simp
  taken := by rwa [taken_reassigning, found_reassigning]

end SweepStage

/-- The database, and where each of the two sweeps is. -/
structure TwoSweeps (β : Type) where
  db : RecoveryDb β
  stage : Bool → SweepStage := fun _ => .select

namespace TwoSweeps

variable {β : Type} [SessionStoreBackend β] (recovery : Bool → CrossInstanceRecovery)
  (clock : Bool → SweepClock) (s : TwoSweeps β)

/-- One of the sweeps executes a statement; one that has ended does nothing. -/
def step (c : Bool) : TwoSweeps β where
  db := ((s.stage c).step (recovery c) (clock c) s.db).2
  stage := Function.update s.stage c ((s.stage c).step (recovery c) (clock c) s.db).1

def run (schedule : List Bool) : TwoSweeps β := schedule.foldl (step recovery clock) s

/-- What the sweep puts on its list next is not on the other's list, or has been put since. -/
def ListsClean (c : Bool) : Prop :=
  ∀ r ∈ (s.stage c).listsNext s.db,
    r.sessionId ∉ (s.stage !c).pending.map SessionRecord.sessionId

/-- The sweeps put nothing on their lists that is on the other's and not put yet. -/
def RunsClean : TwoSweeps β → List Bool → Prop
  | _, [] => True
  | s, c :: schedule => s.ListsClean c ∧ RunsClean (s.step recovery clock c) schedule

instance (c : Bool) : Decidable (s.ListsClean c) := inferInstanceAs (Decidable (∀ r ∈ _, _))

instance decidableRunsClean : ∀ (schedule : List Bool) (s : TwoSweeps β),
    Decidable (RunsClean recovery clock s schedule)
  | [], _ => instDecidableTrue
  | _ :: schedule, _ =>
    have := decidableRunsClean schedule
    inferInstanceAs (Decidable (_ ∧ _))

/-- An open session of an instance that is too old for one of the sweeps and not marked. -/
def Orphan (db : RecoveryDb β) (r : SessionRecord) : Prop :=
  get db.sessions r.sessionId = some r ∧ r.isOpen ∧
    ∃ c, r.instanceId ∈ (recovery c).expiredIds (clock c) db

/-- The session is in the result of one of the sweeps, not in the other's, and belongs to the
instance that reported it. -/
def RecoveredOnce (sessionId : String) : Prop :=
  ∃ c result result', s.stage c = .done result ∧ s.stage (!c) = .done result' ∧
    sessionId ∈ result.recoveredSessions ∧ sessionId ∉ result'.recoveredSessions ∧
    ∃ r, get s.db.sessions sessionId = some r ∧
      r.instanceId = (recovery c).recoveryInstanceId

/-! ## What holds between the statements -/

/-- `db₀` is the database before both sweeps. -/
structure Tracks (db₀ : RecoveryDb β) (s : TwoSweeps β) : Prop where
  each : ∀ c, (s.stage c).Tracks (recovery c) (clock c) db₀
  found : ∀ c, s.stage c ≠ .select → ∀ iid ∈ (recovery c).expiredIds (clock c) db₀,
    ∃ c', iid ∈ (s.stage c').found
  row : ∀ iid, (∀ c, iid ∉ (s.stage c).found) →
    s.db.instances.find? iid = db₀.instances.find? iid
  alive : ∀ iid info, s.db.instances.find? iid = some info → info.status = .alive →
    db₀.instances.find? iid = some info
  session : ∀ k, (∀ c, k ∉ (s.stage c).recovered) ∧
      get s.db.sessions k = get db₀.sessions k ∨
    ∃ c, k ∈ (s.stage c).recovered ∧ ∃ r, get s.db.sessions k = some r ∧
      r.state = "recovered" ∧ r.instanceId = (recovery c).recoveryInstanceId
  searched : ∀ c r, get db₀.sessions r.sessionId = some r → r.isOpen →
    r.instanceId ∈ (s.stage c).found →
    r.instanceId ∈ (s.stage c).toSearch ∨ ∃ c', r.sessionId ∈ (s.stage c').taken

variable {recovery clock} {db₀ : RecoveryDb β} {s : TwoSweeps β}

theorem stage_step_self (c : Bool) : (s.step recovery clock c).stage c
    = ((s.stage c).step (recovery c) (clock c) s.db).1 := Function.update_self ..

theorem stage_step_other (c : Bool) : (s.step recovery clock c).stage (!c) = s.stage !c :=
  Function.update_of_ne (Bool.not_ne_self c) ..

theorem found_step (c : Bool) {iid : String} (h : ∃ c', iid ∈ (s.stage c').found) :
    ∃ c', iid ∈ ((s.step recovery clock c).stage c').found := by
  rw [Bool.exists_bool' c] at h ⊢
  rw [stage_step_self, stage_step_other]
  exact h.imp_left fun h => SweepStage.found_subset_step _ _ _ _ h

theorem taken_step (c : Bool) {k : String} (h : ∃ c', k ∈ (s.stage c').taken) :
    ∃ c', k ∈ ((s.step recovery clock c).stage c').taken := by
  rw [Bool.exists_bool' c] at h ⊢
  rw [stage_step_self, stage_step_other]
  exact h.imp_left fun h => SweepStage.taken_subset_step _ _ _ _ h

/-- A sweep executes a statement and goes on to the stage `next`, and the database is `db` then. -/
theorem Tracks.update (h : Tracks recovery clock db₀ s) (c : Bool) {next : SweepStage}
    {db : RecoveryDb β} (hstep : (s.stage c).step (recovery c) (clock c) s.db = (next, db))
    (hnext : next.Tracks (recovery c) (clock c) db₀)
    (hselect : s.stage c = .select → ∀ iid ∈ (recovery c).expiredIds (clock c) db₀,
      iid ∈ next.found ∨ iid ∈ (s.stage !c).found)
    (hrow : ∀ iid ∉ next.found, db.instances.find? iid = s.db.instances.find? iid)
    (halive : ∀ iid info, db.instances.find? iid = some info → info.status = .alive →
      s.db.instances.find? iid = some info)
    (hsession : ∀ k, get db.sessions k = get s.db.sessions k ∧
        (k ∈ next.recovered ↔ k ∈ (s.stage c).recovered) ∨
      k ∈ next.recovered ∧ ∃ r, get db.sessions k = some r ∧ r.state = "recovered" ∧
        r.instanceId = (recovery c).recoveryInstanceId)
    (hsearched : ∀ r, get db₀.sessions r.sessionId = some r → r.isOpen →
      r.instanceId ∈ next.found → r.instanceId ∈ next.toSearch ∨
        r.sessionId ∈ next.taken ∨ r.sessionId ∈ (s.stage !c).taken) :
    Tracks recovery clock db₀ (s.step recovery clock c) := by
  have hself : (s.step recovery clock c).stage c = next := by rw [stage_step_self, hstep]
  have hother : (s.step recovery clock c).stage (!c) = s.stage !c := stage_step_other c
  have hdb : (s.step recovery clock c).db = db := by
    show ((s.stage c).step (recovery c) (clock c) s.db).2 = db
    rw [hstep]
  constructor
  case each =>
    rw [Bool.forall_bool' c, hself, hother]
    exact ⟨hnext, h.each _⟩
  case found =>
    rw [Bool.forall_bool' c, hother]
    refine ⟨fun _ iid hiid => ?_, fun hne iid hiid => found_step c (h.found _ hne iid hiid)⟩
    by_cases hc : s.stage c = .select
    · rw [Bool.exists_bool' c, hself, hother]
      exact hselect hc iid hiid
    · exact found_step c (h.found c hc iid hiid)
  case row =>
    intro iid hiid
    have hnext : iid ∉ next.found := hself ▸ hiid c
    rw [hdb, hrow iid hnext]
    refine h.row iid fun c' hc' => ?_
    have hfound : ∃ c', iid ∈ ((s.step recovery clock c).stage c').found :=
      found_step c ⟨c', hc'⟩
    obtain ⟨c', hc'⟩ := hfound
    exact hiid c' hc'
  case alive =>
    intro iid info hfind hstatus
    rw [hdb] at hfind
    exact h.alive iid info (halive iid info hfind hstatus) hstatus
  case session =>
    intro k
    have hk := h.session k
    rw [Bool.forall_bool' c, Bool.exists_bool' c] at hk ⊢
    rw [hself, hother, hdb]
    rcases hsession k with ⟨hget, hrec⟩ | hnew
    · rwa [hget, hrec]
    · exact .inr (.inl hnew)
  case searched =>
    rw [Bool.forall_bool' c, hself, hother]
    refine ⟨fun r hget hopen hr => ?_, fun r hget hopen hr => ?_⟩
    · rw [Bool.exists_bool' c, hself, hother]
      exact hsearched r hget hopen hr
    · exact (h.searched _ r hget hopen hr).imp_right (taken_step c)

theorem Tracks.select (h : Tracks recovery clock db₀ s) {c : Bool} (hstage : s.stage c = .select) :
    Tracks recovery clock db₀ (s.step recovery clock c) := by
  have hmem : ∀ iid ∈ (recovery c).expiredIds (clock c) s.db,
      iid ∈ (recovery c).expiredIds (clock c) db₀ := by
    intro iid hiid
    rw [CrossInstanceRecovery.mem_expiredIds] at hiid ⊢
    obtain ⟨info, hfind, hold, halive⟩ := hiid
    exact ⟨info, h.alive iid info hfind halive, hold, halive⟩
  have hall : ∀ iid ∈ (recovery c).expiredIds (clock c) db₀,
      iid ∈ (recovery c).expiredIds (clock c) s.db ∨ iid ∈ (s.stage !c).found := by
    intro iid hiid
    refine or_iff_not_imp_right.mpr fun hnot => ?_
    have hrow : s.db.instances.find? iid = db₀.instances.find? iid := by
      refine h.row iid ((Bool.forall_bool' c).mpr ⟨?_, hnot⟩)
      rw [hstage]
      exact List.not_mem_nil
    rwa [CrossInstanceRecovery.mem_expiredIds, hrow, ← CrossInstanceRecovery.mem_expiredIds]
  obtain ⟨next, hnext, hfound, hsearch, htaken, hrecovered, hpending⟩ :=
    SweepStage.step_select (recovery c) (clock c) s.db
  refine h.update c (hstage ▸ hnext) ?_ ?_ (fun _ _ => rfl) (fun _ _ h _ => h) ?_ ?_
  · constructor
    · rw [htaken, hrecovered, hpending]
      rfl
    · rwa [hfound]
    · rw [hsearch, hfound]
      exact List.Subset.refl _
    · rw [htaken]
      exact fun k hk => absurd hk List.not_mem_nil
  · intro _
    rwa [hfound]
  · refine fun k => .inl ⟨rfl, ?_⟩
    rw [hrecovered, hstage]
    rfl
  · intro r _ _ hr
    rw [hfound] at hr
    exact .inl (hsearch ▸ hr)

theorem Tracks.mark (h : Tracks recovery clock db₀ s) {c : Bool} {expired : List InstanceInfo}
    (hstage : s.stage c = .mark expired) :
    Tracks recovery clock db₀ (s.step recovery clock c) := by
  have hc := h.each c
  have hstep : (s.stage c).step (recovery c) (clock c) s.db
      = (.searching (clock c) expired (expired.map InstanceInfo.instanceId) [],
        { s.db with instances := InstanceRegistry.markExpired s.db.instances
                      (expired.map InstanceInfo.instanceId) }) := by
    rw [hstage]
    rfl
  rw [hstage] at hc
  refine h.update c hstep (.searching hc.found (List.Subset.refl _) fun k hk => ?_)
    (fun hne => ?_) (fun iid hiid => ?_) (fun iid info hfind hstatus => ?_) (fun k => ?_)
    fun r _ _ hr => ?_
  · exact absurd hk List.not_mem_nil
  · rw [hstage] at hne
    cases hne
  · rw [SweepStage.found_searching] at hiid
    rw [InstanceRegistry.find?_markExpired]
    rcases hfind : s.db.instances.find? iid with _ | info
    · rfl
    · rw [Option.map_some, Table.key_of_find? _ hfind, if_neg hiid]
  · simp only [InstanceRegistry.find?_markExpired, Option.map_eq_some_iff] at hfind
    obtain ⟨info', hfind, rfl⟩ := hfind
    split_ifs at hstatus ⊢
    exact hfind
  · refine .inl ⟨rfl, ?_⟩
    rw [hstage, SweepStage.recovered_searching]
    rfl
  · rw [SweepStage.found_searching] at hr
    exact .inl (by rwa [SweepStage.toSearch_searching])

/-- A record that is open has not been put since. -/
theorem Tracks.get_of_open (h : Tracks recovery clock db₀ s) {r : SessionRecord}
    (hget : get s.db.sessions r.sessionId = some r) (hopen : r.isOpen) :
    get db₀.sessions r.sessionId = some r ∧ ∀ c, r.sessionId ∉ (s.stage c).recovered := by
  rcases h.session r.sessionId with ⟨hnot, hsame⟩ | ⟨c, -, r', hget', hstate, -⟩
  · exact ⟨hsame ▸ hget, hnot⟩
  · rw [hget] at hget'
    cases hget'
    simp [SessionRecord.isOpen, hstate] at hopen

theorem Tracks.recovered_subset_taken (h : Tracks recovery clock db₀ s) (c : Bool) :
    (s.stage c).recovered ⊆ (s.stage c).taken := by
  rw [(h.each c).even]
  exact List.subset_append_left _ _

theorem Tracks.list (h : Tracks recovery clock db₀ s) {c : Bool} {expired : List InstanceInfo}
    {iid : String} {rest : List String} {orphans : List SessionRecord}
    (hstage : s.stage c = .list expired iid rest orphans) :
    Tracks recovery clock db₀ (s.step recovery clock c) := by
  have hc := h.each c
  have hstep : (s.stage c).step (recovery c) (clock c) s.db
      = (.searching (clock c) expired rest (orphans ++
        (SessionStoreBackend.listByInstance s.db.sessions iid).filter SessionRecord.isOpen),
        s.db) := by
    rw [hstage]
    rfl
  rw [hstage] at hc
  have hsearch : iid :: rest ⊆ expired.map InstanceInfo.instanceId := hc.toSearch
  refine h.update c hstep (.searching hc.found ?_ fun k hk => ?_)
    (fun hne => ?_) (fun _ _ => rfl) (fun _ _ h _ => h) (fun k => ?_) fun r hget hopen hr => ?_
  · exact List.Subset.trans (List.subset_cons_self _ _) hsearch
  · rw [List.map_append, List.mem_append] at hk
    rcases hk with hk | hk
    · exact hc.taken k hk
    · obtain ⟨r, hr, rfl⟩ := List.mem_map.mp hk
      rw [List.mem_filter, mem_listByInstance] at hr
      obtain ⟨⟨hget, rfl⟩, hopen⟩ := hr
      exact ⟨r, (h.get_of_open hget hopen).1, hopen, hsearch List.mem_cons_self⟩
  · rw [hstage] at hne
    cases hne
  · refine .inl ⟨rfl, ?_⟩
    rw [hstage, SweepStage.recovered_searching]
    rfl
  · rw [SweepStage.found_searching] at hr
    rw [SweepStage.toSearch_searching, SweepStage.taken_searching, List.map_append,
      List.mem_append]
    have hsearched := h.searched c r hget hopen (by rw [hstage]; exact hr)
    rw [Bool.exists_bool' c, hstage] at hsearched
    rcases hsearched with hr | hr | hr
    · rcases List.mem_cons.mp hr with hiid | hr
      -- A session of the instance that was not put since is in the listing.
      · rcases h.session r.sessionId with ⟨-, hsame⟩ | ⟨c', hmem, -⟩
        · refine .inr (.inl (.inr (List.mem_map_of_mem (List.mem_filter.mpr ⟨?_, hopen⟩))))
          exact (mem_listByInstance ..).mpr ⟨hsame.trans hget, hiid⟩
        · have hmem : ∃ c', r.sessionId ∈ (s.stage c').taken :=
            ⟨c', h.recovered_subset_taken c' hmem⟩
          rw [Bool.exists_bool' c, hstage] at hmem
          exact .inr (hmem.imp_left .inl)
      · exact .inl hr
    · exact .inr (.inl (.inl hr))
    · exact .inr (.inr hr)

theorem Tracks.put (h : Tracks recovery clock db₀ s) {c : Bool} {expired : List InstanceInfo}
    {orphans : List SessionRecord} {session : SessionRecord} {rest : List SessionRecord}
    {recovered : List String} (hstage : s.stage c = .put expired orphans session rest recovered) :
    Tracks recovery clock db₀ (s.step recovery clock c) := by
  have hc := h.each c
  have hstep : (s.stage c).step (recovery c) (clock c) s.db
      = (.reassigning (clock c) expired orphans rest (recovered ++ [session.sessionId]),
        { s.db with sessions :=
            SessionStoreBackend.put s.db.sessions ((recovery c).adopted (clock c) session) }) := by
    rw [hstage]
    rfl
  rw [hstage] at hc
  have heven : orphans.map SessionRecord.sessionId
      = recovered ++ (session :: rest).map SessionRecord.sessionId := hc.even
  refine h.update c hstep (.reassigning ?_ hc.found hc.taken)
    (fun hne => ?_) (fun _ _ => rfl) (fun _ _ h _ => h) (fun k => ?_) fun r hget hopen hr => ?_
  · rw [heven, List.map_cons, List.append_assoc, List.singleton_append]
  · rw [hstage] at hne
    cases hne
  · rw [SweepStage.recovered_reassigning, hstage, get_put,
      CrossInstanceRecovery.sessionId_adopted, List.mem_append, List.mem_singleton]
    by_cases hk : session.sessionId = k
    · rw [if_pos hk]
      exact .inr ⟨.inr hk.symm, _, rfl, rfl, rfl⟩
    · rw [if_neg hk]
      exact .inl ⟨rfl, or_iff_left (Ne.symm hk)⟩
  · rw [SweepStage.found_reassigning] at hr
    rw [SweepStage.taken_reassigning]
    have hsearched := h.searched c r hget hopen (by rw [hstage]; exact hr)
    rw [Bool.exists_bool' c, hstage] at hsearched
    exact .inr (hsearched.resolve_left List.not_mem_nil)

theorem step_done {c : Bool} {result : RecoveryResult} (hstage : s.stage c = .done result) :
    s.step recovery clock c = s := by
  have hupdate : Function.update s.stage c (.done result) = s.stage := by
    rw [← hstage, Function.update_eq_self]
  rw [step, hstage]
  simp only [SweepStage.step]
  rw [hupdate]

theorem Tracks.step (h : Tracks recovery clock db₀ s) (c : Bool) :
    Tracks recovery clock db₀ (s.step recovery clock c) := by
  cases hstage : s.stage c with
  | select => exact h.select hstage
  | mark expired => exact h.mark hstage
  | list expired iid rest orphans => exact h.list hstage
  | put expired orphans session rest recovered => exact h.put hstage
  | done result => rwa [step_done hstage]

theorem Tracks.start : Tracks recovery clock db₀ { db := db₀ } where
  each _ := ⟨rfl, nofun, List.Subset.refl _, nofun⟩
  found _ h := absurd rfl h
  row _ _ := rfl
  alive _ _ h _ := h
  session _ := .inl ⟨nofun, rfl⟩
  searched _ _ _ _ h := nomatch h

theorem Tracks.run (h : Tracks recovery clock db₀ s) (schedule : List Bool) :
    Tracks recovery clock db₀ (s.run recovery clock schedule) := by
  induction schedule generalizing s with
  | nil => exact h
  | cons c schedule ih => exact ih (h.step c)

/-! ## When every orphan is recovered once -/

/-- No session is on both lists. -/
def Apart (s : TwoSweeps β) : Prop := ∀ c, List.Disjoint (s.stage c).taken (s.stage !c).taken

omit [SessionStoreBackend β] in
theorem apart_iff (c : Bool) :
    s.Apart ↔ List.Disjoint (s.stage c).taken (s.stage !c).taken := by
  rw [Apart, Bool.forall_bool' c, Bool.not_not]
  exact and_iff_left_of_imp List.disjoint_symm

theorem Tracks.mem_pending_iff (h : Tracks recovery clock db₀ s) {c : Bool} {r : SessionRecord}
    (hr : r ∈ (s.stage c).listsNext s.db) (c' : Bool) :
    r.sessionId ∈ (s.stage c').pending.map SessionRecord.sessionId
      ↔ r.sessionId ∈ (s.stage c').taken := by
  have hopen : get s.db.sessions r.sessionId = some r ∧ r.isOpen := by
    revert hr
    cases s.stage c with
    | list expired iid rest orphans =>
      intro hr
      obtain ⟨hr, hopen⟩ := List.mem_filter.mp hr
      exact ⟨((mem_listByInstance ..).mp hr).1, hopen⟩
    | _ => exact fun hr => absurd hr List.not_mem_nil
  rw [(h.each c').even, List.mem_append]
  exact (or_iff_right ((h.get_of_open hopen.1 hopen.2).2 c')).symm

theorem Tracks.apart_step_iff (h : Tracks recovery clock db₀ s) (hapart : s.Apart) (c : Bool) :
    (s.step recovery clock c).Apart ↔ s.ListsClean c := by
  rw [apart_iff c, stage_step_self, stage_step_other, SweepStage.taken_step,
    List.disjoint_append_left, ListsClean]
  constructor
  · rintro ⟨-, hnew⟩ r hr hpending
    exact hnew (List.mem_map_of_mem hr) ((h.mem_pending_iff hr _).mp hpending)
  · refine fun hclean => ⟨hapart c, fun k hk htaken => ?_⟩
    obtain ⟨r, hr, rfl⟩ := List.mem_map.mp hk
    exact hclean r hr ((h.mem_pending_iff hr _).mpr htaken)

theorem Apart.of_step {c : Bool} (h : (s.step recovery clock c).Apart) : s.Apart := by
  rw [apart_iff c] at h ⊢
  rw [stage_step_self, stage_step_other] at h
  exact List.disjoint_of_subset_left (SweepStage.taken_subset_step ..) h

theorem Apart.of_run : ∀ {schedule : List Bool} {s : TwoSweeps β},
    (s.run recovery clock schedule).Apart → s.Apart
  | [], _, h => h
  | _ :: _, _, h => .of_step (.of_run h)

theorem Tracks.apart_run_iff : ∀ {schedule : List Bool} {s : TwoSweeps β},
    Tracks recovery clock db₀ s → s.Apart →
      ((s.run recovery clock schedule).Apart ↔ RunsClean recovery clock s schedule)
  | [], _, _, hapart => iff_of_true hapart trivial
  | c :: schedule, s, h, hapart => by
    show ((s.step recovery clock c).run recovery clock schedule).Apart ↔ _ ∧ _
    rw [← h.apart_step_iff hapart]
    constructor
    · intro hrun
      exact ⟨hrun.of_run, ((h.step c).apart_run_iff hrun.of_run).mp hrun⟩
    · rintro ⟨hstep, hclean⟩
      exact ((h.step c).apart_run_iff hstep).mpr hclean

/-- Once both sweeps have ended, every orphan is recovered once if no session is on both lists. -/
theorem Tracks.recoveredOnce_iff (h : Tracks recovery clock db₀ s)
    (hdone : ∀ c, (s.stage c).isDone) :
    (∀ r, Orphan recovery clock db₀ r → s.RecoveredOnce recovery r.sessionId) ↔ s.Apart := by
  have hend : ∀ c, ∃ result, s.stage c = .done result := fun c =>
    SweepStage.isDone_iff.mp (hdone c)
  have hresult : ∀ {c result}, s.stage c = .done result →
      (s.stage c).taken = result.recoveredSessions := by
    intro c result hstage
    have heven := (h.each c).even
    rw [hstage] at heven ⊢
    exact heven.trans (List.append_nil _)
  constructor
  · intro hall c k hk hk'
    obtain ⟨r, hget, hopen, hr⟩ := (h.each c).taken k hk
    have hid : r.sessionId = k := id_of_get hget
    have hboth : ∀ c', k ∈ (s.stage c').taken := (Bool.forall_bool' c).mpr ⟨hk, hk'⟩
    rw [← hid] at hget hboth
    -- What is on both lists was an orphan, and is in both results.
    obtain ⟨c', result, result', -, hstage', -, hnot, -⟩ :=
      hall r ⟨hget, hopen, c, (h.each c).found _ hr⟩
    exact hnot (hresult hstage' ▸ hboth (!c'))
  · rintro hapart r ⟨hget, hopen, c, hr⟩
    have hne : s.stage c ≠ .select := by
      obtain ⟨result, hstage⟩ := hend c
      rw [hstage]
      nofun
    obtain ⟨c₁, hfound⟩ := h.found c hne _ hr
    have htaken : ∃ c₂, r.sessionId ∈ (s.stage c₂).taken := by
      refine (h.searched c₁ r hget hopen hfound).resolve_left ?_
      obtain ⟨result, hstage⟩ := hend c₁
      rw [hstage]
      exact List.not_mem_nil
    obtain ⟨c₂, htaken⟩ := htaken
    obtain ⟨result, hstage⟩ := hend c₂
    obtain ⟨result', hstage'⟩ := hend !c₂
    have hmem : r.sessionId ∈ result.recoveredSessions := hresult hstage ▸ htaken
    have hnot : r.sessionId ∉ result'.recoveredSessions := hresult hstage' ▸ hapart c₂ htaken
    refine ⟨c₂, result, result', hstage, hstage', hmem, hnot, ?_⟩
    rcases h.session r.sessionId with ⟨hnone, -⟩ | ⟨c₃, hmem₃, r', hget', -, howner⟩
    · have := hnone c₂
      rw [hstage] at this
      exact absurd hmem this
    · obtain rfl : c₃ = c₂ := by
        by_contra hc
        rw [Bool.eq_not_of_ne hc, hstage'] at hmem₃
        exact hnot hmem₃
      exact ⟨r', hget', howner⟩

/-- Two sweeps run to their ends, their statements in any order. Every session of an instance that
was too old for one of them is in the result of exactly one and belongs to the instance that
reported it, exactly if neither put a session on its list that was on the other's and not put
yet. -/
theorem each_recoveredOnce_iff (recovery : Bool → CrossInstanceRecovery)
    (clock : Bool → SweepClock) (db₀ : RecoveryDb β) (schedule : List Bool)
    (hdone : ∀ c, ((run recovery clock { db := db₀ } schedule).stage c).isDone) :
    (∀ r, Orphan recovery clock db₀ r →
        (run recovery clock { db := db₀ } schedule).RecoveredOnce recovery r.sessionId) ↔
      RunsClean recovery clock { db := db₀ } schedule := by
  have hstart : Tracks recovery clock db₀ { db := db₀ } := .start
  have hapart : Apart { db := db₀ } := fun _ => List.disjoint_nil_left _
  rw [(hstart.run schedule).recoveredOnce_iff hdone, hstart.apart_run_iff hapart]

/-- Two instances, with one clock. -/
def sampleRecovery (c : Bool) : CrossInstanceRecovery where
  recoveryInstanceId := if c then "c" else "b"

theorem exists_orphan_sampleDb :
    ∃ r, r.sessionId = "s" ∧ Orphan sampleRecovery (fun _ => .at 100) sampleDb r := by
  have hstate : (get sampleDb.sessions "s").map (fun r => (r.state, r.instanceId))
      = some ("running", "a") := by
    decide +kernel
  obtain ⟨r, hid, hget, hopen, howner⟩ := exists_open_session hstate
  refine ⟨r, hid, hget, hopen, false, ?_⟩
  rw [howner]
  decide +kernel

/-- Both sweeps find the instance, but the second lists its sessions only when the first has put
them. -/
theorem each_recoveredOnce_of_late_list :
    (run sampleRecovery (fun _ => .at 100) { db := sampleDb }
      [false, true, false, false, false, true, true]).RecoveredOnce sampleRecovery "s" := by
  obtain ⟨r, hid, hr⟩ := exists_orphan_sampleDb
  have h := (each_recoveredOnce_iff sampleRecovery (fun _ => .at 100) sampleDb
    [false, true, false, false, false, true, true] (by decide +kernel)).mpr (by decide +kernel)
  exact hid ▸ h r hr

/-- Both sweeps list the session before either puts it: both report it. -/
theorem not_recoveredOnce_of_both_list :
    let s := run sampleRecovery (fun _ => .at 100) { db := sampleDb }
      [false, true, false, true, false, true, false, true]
    (∀ c, (s.stage c).isDone) ∧ ∃ r, Orphan sampleRecovery (fun _ => .at 100) sampleDb r ∧
      ¬ s.RecoveredOnce sampleRecovery r.sessionId := by
  intro s
  have hrecovered : ∀ c, (s.stage c).recovered = ["s"] := by decide +kernel
  obtain ⟨r, hid, hr⟩ := exists_orphan_sampleDb
  refine ⟨by decide +kernel, r, hr, ?_⟩
  rintro ⟨c, result, result', -, hstage', -, hnot, -⟩
  have hmem := hrecovered !c
  rw [hstage'] at hmem
  have hmem : result'.recoveredSessions = ["s"] := hmem
  rw [hid, hmem] at hnot
  exact hnot List.mem_cons_self

end TwoSweeps

end AgentLearning
