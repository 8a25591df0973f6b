import Mathlib.Tactic.Linarith
import AgentLearning.Lib.Trace
import AgentLearning.Proofs.MemoryOps

/-!
# Writers of one backend

Any number of stores write to one backend at once. A `WriteStage` is where a store is in its write:
the call of the backend it makes next. One stage after the other is what is left of the program of
the write (`WriteStage.prog_step`), so the calls of all stores can be interleaved. No two writes
that started from one entry and expect one version succeed, as long as nothing comes between the
`get` and the `put` of a write, and no cleanup takes out an entry that a write still under way has
not seen.
-/

namespace AgentLearning

open SharedMemoryBackend

inductive WriteStage
  | list
  | remove (key : String) (rest : List (String × MemoryEntry))
  | load
  | put (current : Option MemoryEntry)
  | append (entry : MemoryEntry)
  | done (result : Except VersionConflictError MemoryEntry)

namespace WriteStage

variable {β : Type} [SharedMemoryBackend β] (clock : MemoryClock) (w : MemoryWrite)

/-- What is left to do with these entries still to clean up. -/
def removing : List (String × MemoryEntry) → WriteStage
  | [] => .load
  | (key, entry) :: rest =>
    if entry.expired clock.cleanup then .remove key rest else removing rest

/-- What is left to do once the entry is loaded. -/
def loaded (current : Option MemoryEntry) : WriteStage :=
  match w.checkVersion current with
  | .error e => .done (.error e)
  | .ok () => .put current

/-- Makes one call: the stage after it and the backend after it. -/
def step (b : β) : WriteStage → WriteStage × β
  | .list => (removing clock (SharedMemoryStore.entriesOf (listAll b)).entries, b)
  | .remove key rest => (removing clock rest, (delete b key).2)
  | .load => (loaded w ((get b w.key).map MemoryRecord.toEntry), b)
  | .put current => (.append (w.entry clock current),
      SharedMemoryBackend.put b (w.entry clock current).toRecord)
  | .append entry => (.done (.ok entry), b)
  | .done result => (.done result, b)

open SharedMemoryStore in
/-- What is left of the program of a write in this stage. -/
def prog : WriteStage → MemoryM β MemoryEntry
  | .list => write clock w
  | .remove key rest => do
      SharedMemoryStore.remove key
      let _ ← removeExpired clock.cleanup rest
      compareAndStore clock w
  | .load => compareAndStore clock w
  | .put current => do
      store (w.entry clock current)
      appendHistory w.key (w.entry clock current).version
      pure (w.entry clock current)
  | .append entry => do
      appendHistory w.key entry.version
      pure entry
  | .done result => Prog.ofExcept result

def isDone : WriteStage → Bool
  | .done _ => true
  | _ => false

theorem prog_removing : ∀ l : List (String × MemoryEntry),
    ((removing clock l).prog clock w : MemoryM β MemoryEntry) = (do
      let _ ← SharedMemoryStore.removeExpired clock.cleanup l
      SharedMemoryStore.compareAndStore clock w)
  | [] => rfl
  | (key, entry) :: rest => by
    rw [removing, SharedMemoryStore.removeExpired]
    split_ifs
    · rw [prog, Prog.bind_assoc]
      refine congrArg _ (funext fun _ => ?_)
      rw [Prog.bind_assoc]
      rfl
    · exact prog_removing rest

theorem prog_loaded (current : Option MemoryEntry) :
    ((loaded w current).prog clock w : MemoryM β MemoryEntry) = (do
      Prog.ofExcept (w.checkVersion current)
      SharedMemoryStore.store (w.entry clock current)
      SharedMemoryStore.appendHistory w.key (w.entry clock current).version
      pure (w.entry clock current)) := by
  rw [loaded]
  rcases w.checkVersion current with e | _ <;> rfl

/-- The call of a stage is the next action of what is left of the program. -/
theorem prog_step (stage : WriteStage) (h : stage.isDone = false) :
    ∃ upd next, (stage.prog clock w : MemoryM β MemoryEntry) = .act upd next ∧
      ∀ s b, s.backend = some b → (upd () s).backend = some (stage.step clock w b).2 ∧
        next () s = (stage.step clock w b).1.prog clock w := by
  cases stage with
  | done result => cases h
  | list =>
    refine ⟨_, _, rfl, fun s b hb => ⟨hb, ?_⟩⟩
    simp only [step, prog_removing, hb]
    rfl
  | remove key rest =>
    refine ⟨_, _, rfl, fun s b hb => ⟨?_, ?_⟩⟩
    · simp only [hb]
      rfl
    · exact (prog_removing clock w rest).symm
  | load =>
    refine ⟨_, _, rfl, fun s b hb => ⟨hb, ?_⟩⟩
    simp only [step, prog_loaded, hb]
    rfl
  | put current =>
    refine ⟨_, _, rfl, fun s b hb => ⟨?_, rfl⟩⟩
    simp only [hb]
    rfl
  | append entry => exact ⟨_, _, rfl, fun s b hb => ⟨hb, rfl⟩⟩

/-- The outcome of the write, once it is decided. -/
def outcome : WriteStage → Option (Except VersionConflictError MemoryEntry)
  | .append entry => some (.ok entry)
  | .done result => some result
  | _ => none

end WriteStage

/-- A write, with how often its key had been changed when it started: two writes of a key started
from one entry if the number is the same. -/
structure StartedWrite where
  w : MemoryWrite
  started : ℕ

/-- A write under way. -/
structure MemoryWriter extends StartedWrite where
  clock : MemoryClock
  stage : WriteStage

structure WriteOutcome extends StartedWrite where
  result : Except VersionConflictError MemoryEntry

/-- The backend, how often each key was changed, where each store is in its write, and the outcomes
of the writes in the order they were decided. -/
structure MemoryClients (C β : Type) where
  backend : β
  changes : String → ℕ := fun _ => 0
  busy : C → Option MemoryWriter := fun _ => none
  log : List WriteOutcome := []

/-- What a store does next: begin a write, make the next call of its write, or return. -/
inductive MemoryAction (C : Type)
  | start (client : C) (clock : MemoryClock) (w : MemoryWrite)
  | command (client : C)
  | finish (client : C)

namespace MemoryClients

variable {C β : Type} [DecidableEq C] [SharedMemoryBackend β] (s : MemoryClients C β)

def setBusy (client : C) (op : Option MemoryWriter) : C → Option MemoryWriter :=
  Function.update s.busy client op

/-- The number of changes of each key after a call. -/
def changed (w : MemoryWrite) : WriteStage → String → ℕ
  | .remove key _ =>
    if (get s.backend key).isSome then Function.update s.changes key (s.changes key + 1)
    else s.changes
  | .put _ => Function.update s.changes w.key (s.changes w.key + 1)
  | _ => s.changes

/-- The log after a call, by the stage after it: a write succeeds with its `put`, and fails with
its `get`. -/
def decided (op : MemoryWriter) : WriteStage → WriteStage → List WriteOutcome
  | .put _, .append entry => s.log ++ [⟨op.toStartedWrite, .ok entry⟩]
  | .load, .done result => s.log ++ [⟨op.toStartedWrite, result⟩]
  | _, _ => s.log

def step : MemoryAction C → Option (MemoryClients C β)
  | .start client clock w =>
    match s.busy client with
    | some _ => none
    | none =>
      some { s with
        busy := s.setBusy client (some { w, started := s.changes w.key, clock, stage := .list }) }
  | .command client =>
    match s.busy client with
    | none => none
    | some op =>
      if op.stage.isDone then none
      else
        let next := op.stage.step op.clock op.w s.backend
        some { backend := next.2
               changes := s.changed op.w op.stage
               busy := s.setBusy client (some { op with stage := next.1 })
               log := s.decided op op.stage next.1 }
  | .finish client =>
    match s.busy client with
    | some op => if op.stage.isDone then some { s with busy := s.setBusy client none } else none
    | none => none

/-- Takes the actions one after the other; `none` if one of them is not enabled. -/
def run : MemoryClients C β → List (MemoryAction C) → Option (MemoryClients C β)
  | s, [] => some s
  | s, action :: actions =>
    match s.step action with
    | some s' => run s' actions
    | none => none

/-- A `put` finds the entry its write has loaded, and a `delete` hits no entry that was stored
after the start of a write to its key that is not decided yet. -/
def CarefulCall (op : MemoryWriter) : Prop :=
  match op.stage with
  | .put current => (get s.backend op.w.key).map MemoryRecord.toEntry = current
  | .remove key _ => (get s.backend key).isSome → ∀ c op', s.busy c = some op' →
      op'.w.key = key → op'.stage.outcome = none → op'.started = s.changes key
  | _ => True

def Careful : MemoryAction C → Prop
  | .command client =>
    match s.busy client with
    | some op => s.CarefulCall op
    | none => True
  | _ => True

/-- Every action of the run is careful in the state it is taken in. -/
def CarefulRun : MemoryClients C β → List (MemoryAction C) → Prop
  | _, [] => True
  | s, action :: actions =>
    s.Careful action ∧ match s.step action with
      | some s' => CarefulRun s' actions
      | none => True

end MemoryClients

/-- The writes started from one entry and expect one version. -/
def StartedWrite.Rivals (a b : StartedWrite) : Prop :=
  a.w.key = b.w.key ∧ a.started = b.started ∧
    ∃ n, a.w.expectedVersion = some n ∧ b.w.expectedVersion = some n

namespace MemoryClients

variable {C β : Type} [SharedMemoryBackend β]

/-- A write that succeeded changed its key since it started, and while a rival of it is under way
the version stored is above the one they expect. -/
structure Consistent (s : MemoryClients C β) : Prop where
  changed_of_ok : ∀ o ∈ s.log, o.result.isOk → o.started < s.changes o.w.key
  started_le : ∀ c op, s.busy c = some op → op.started ≤ s.changes op.w.key
  checked : ∀ c op current, s.busy c = some op → op.stage = .put current →
    op.w.checkVersion current = .ok ()
  above : ∀ c op o n, s.busy c = some op → op.stage.outcome = none → o ∈ s.log →
    o.result.isOk → o.Rivals op.toStartedWrite → op.w.expectedVersion = some n →
    ∃ r, get s.backend op.w.key = some r ∧ n < r.version
  one : s.log.Pairwise fun o o' => o.Rivals o'.toStartedWrite →
    ¬ (o.result.isOk ∧ o'.result.isOk)
  decided : ∀ c op result, s.busy c = some op → op.stage.outcome = some result →
    ⟨op.toStartedWrite, result⟩ ∈ s.log

variable [DecidableEq C] {s s' : MemoryClients C β} {client : C} {op : MemoryWriter}

omit [SharedMemoryBackend β] in
theorem setBusy_cases {op' : Option MemoryWriter} {c : C} {op : MemoryWriter}
    (h : s.setBusy client op' c = some op) :
    c = client ∧ op' = some op ∨ c ≠ client ∧ s.busy c = some op := by
  rw [setBusy, Function.update_apply] at h
  split_ifs at h with hc
  · exact .inl ⟨hc, h⟩
  · exact .inr ⟨hc, h⟩

/-- A store goes on to a stage, with nothing else changed. -/
theorem Consistent.move (h : s.Consistent) (hbusy : s.busy client = some op) (stage : WriteStage)
    (hpending : stage.outcome = none → op.stage.outcome = none)
    (hchecked : ∀ current, stage = .put current → op.w.checkVersion current = .ok ())
    (hdecided : ∀ result, stage.outcome = some result →
      ⟨op.toStartedWrite, result⟩ ∈ s.log) :
    Consistent { s with busy := s.setBusy client (some { op with stage }) } where
  changed_of_ok := h.changed_of_ok
  one := h.one
  started_le c op' hc := by
    rcases setBusy_cases hc with ⟨rfl, hop⟩ | ⟨-, hold⟩
    · cases hop
      exact h.started_le c op hbusy
    · exact h.started_le c op' hold
  checked c op' current hc hstage := by
    rcases setBusy_cases hc with ⟨rfl, hop⟩ | ⟨-, hold⟩
    · cases hop
      exact hchecked current hstage
    · exact h.checked c op' current hold hstage
  above c op' o n hc hnone := by
    rcases setBusy_cases hc with ⟨rfl, hop⟩ | ⟨-, hold⟩
    · cases hop
      exact h.above c op o n hbusy (hpending hnone)
    · exact h.above c op' o n hold hnone
  decided c op' result hc hout := by
    rcases setBusy_cases hc with ⟨rfl, hop⟩ | ⟨-, hold⟩
    · cases hop
      exact hdecided result hout
    · exact h.decided c op' result hold hout

omit [DecidableEq C] in
/-- A write that fails its check. -/
theorem Consistent.fail (h : s.Consistent) (a : StartedWrite) (e : VersionConflictError) :
    Consistent { s with log := s.log ++ [⟨a, .error e⟩] } where
  started_le := h.started_le
  checked := h.checked
  changed_of_ok o ho hok := by
    rcases List.mem_append.mp ho with hold | hnew
    · exact h.changed_of_ok o hold hok
    · rw [List.mem_singleton.mp hnew] at hok
      cases hok
  above c op o n hc hnone ho hok := by
    rcases List.mem_append.mp ho with hold | hnew
    · exact h.above c op o n hc hnone hold hok
    · rw [List.mem_singleton.mp hnew] at hok
      cases hok
  one := by
    refine pairwise_append_singleton.mpr ⟨h.one, ?_⟩
    rintro o - - ⟨-, hok⟩
    cases hok
  decided c op result hc hout := List.mem_append_left _ (h.decided c op result hc hout)

theorem le_update_succ (f : String → ℕ) (key k : String) :
    f k ≤ Function.update f key (f key + 1) k := by
  by_cases hk : k = key
  · subst hk
    simp
  · rw [Function.update_of_ne hk]

omit [DecidableEq C] in
/-- A cleanup takes out an entry that every undecided write to its key has started from. -/
theorem Consistent.delete (h : s.Consistent) {key : String}
    (hcareful : (get s.backend key).isSome → ∀ c op, s.busy c = some op → op.w.key = key →
      op.stage.outcome = none → op.started = s.changes key) :
    Consistent { s with
      backend := (delete s.backend key).2
      changes := if (get s.backend key).isSome
        then Function.update s.changes key (s.changes key + 1) else s.changes } := by
  have hle : ∀ k, s.changes k ≤ (if (get s.backend key).isSome
      then Function.update s.changes key (s.changes key + 1) else s.changes) k := by
    intro k
    split_ifs
    · exact le_update_succ _ key k
    · exact le_rfl
  refine ⟨fun o ho hok => ?_, fun c op hc => ?_, h.checked, fun c op o n hc hnone ho hok hrival
    hexpected => ?_, h.one, h.decided⟩
  · exact lt_of_lt_of_le (h.changed_of_ok o ho hok) (hle _)
  · exact le_trans (h.started_le c op hc) (hle _)
  · obtain ⟨r, hr, hlt⟩ := h.above c op o n hc hnone ho hok hrival hexpected
    refine ⟨r, ?_, hlt⟩
    simp only [get_delete]
    split_ifs with hkey
    · subst hkey
      -- The rival that succeeded has changed the key since this write started.
      have hstarted := hcareful (by simp [hr]) c op hc rfl hnone
      have hlog := h.changed_of_ok o ho hok
      rw [hrival.1, hrival.2.1, hstarted] at hlog
      exact absurd hlog (lt_irrefl _)
    · exact hr

/-- What a write stores over the entry it has loaded has no smaller version. -/
theorem exists_get_put {b : β} {w : MemoryWrite} {current : Option MemoryEntry}
    (hcurrent : (get b w.key).map MemoryRecord.toEntry = current) (clock : MemoryClock)
    {k : String} {r : MemoryRecord} (hr : get b k = some r) :
    ∃ r', get (SharedMemoryBackend.put b (w.entry clock current).toRecord) k = some r' ∧
      r.version ≤ r'.version := by
  rw [get_put]
  split_ifs with hkey
  · refine ⟨_, rfl, ?_⟩
    have hfound : current = some r.toEntry := by
      rw [← hcurrent]
      show (get b (w.entry clock current).toRecord.key).map _ = _
      rw [hkey, hr]
      rfl
    subst hfound
    show r.version ≤ r.version + 1
    omega
  · exact ⟨r, hr, le_rfl⟩

omit [DecidableEq C] in
/-- A write over the entry it has loaded. -/
theorem Consistent.put (h : s.Consistent) (hbusy : s.busy client = some op)
    {current : Option MemoryEntry} (hstage : op.stage = .put current)
    (hcurrent : (get s.backend op.w.key).map MemoryRecord.toEntry = current) :
    Consistent { s with
      backend := SharedMemoryBackend.put s.backend (op.w.entry op.clock current).toRecord
      changes := Function.update s.changes op.w.key (s.changes op.w.key + 1)
      log := s.log ++ [⟨op.toStartedWrite, .ok (op.w.entry op.clock current)⟩] } := by
  have hle := le_update_succ s.changes op.w.key
  have hchecked := h.checked client op current hbusy hstage
  refine ⟨fun o ho hok => ?_, fun c op' hc => ?_, h.checked, fun c op' o n hc hnone ho hok hrival
    hn => ?_, ?_, fun c op' result hc hout => ?_⟩
  · rcases List.mem_append.mp ho with hold | hnew
    · exact lt_of_lt_of_le (h.changed_of_ok o hold hok) (hle _)
    · rw [List.mem_singleton.mp hnew]
      simpa using Nat.lt_succ_of_le (h.started_le client op hbusy)
  · exact le_trans (h.started_le c op' hc) (hle _)
  · rcases List.mem_append.mp ho with hold | hnew
    · obtain ⟨r, hr, hlt⟩ := h.above c op' o n hc hnone hold hok hrival hn
      obtain ⟨r', hr', hver⟩ := exists_get_put hcurrent op.clock hr
      exact ⟨r', hr', lt_of_lt_of_le hlt hver⟩
    · rw [List.mem_singleton.mp hnew] at hrival
      obtain ⟨hkey, -, m, hm, hm'⟩ := hrival
      obtain rfl : m = n := Option.some.inj (hm'.symm.trans hn)
      have hlt := MemoryWrite.lt_version_entry hchecked hm op.clock
      refine ⟨(op.w.entry op.clock current).toRecord, ?_, hlt⟩
      rw [get_put]
      exact if_pos hkey
  · refine pairwise_append_singleton.mpr ⟨h.one, ?_⟩
    rintro o ho hrival ⟨hok, -⟩
    obtain ⟨n, -, hn⟩ := hrival.2.2
    obtain ⟨r, hr, hlt⟩ := h.above client op o n hbusy (by rw [hstage]; rfl) ho hok hrival hn
    have hactual := MemoryWrite.checkVersion_ok hchecked hn
    rw [← hcurrent, hr] at hactual
    exact absurd hactual (ne_of_gt hlt)
  · exact List.mem_append_left _ (h.decided c op' result hc hout)

theorem Consistent.start (h : s.Consistent) (clock : MemoryClock) (w : MemoryWrite) :
    Consistent { s with
      busy := s.setBusy client
        (some { w, started := s.changes w.key, clock, stage := .list }) } where
  changed_of_ok := h.changed_of_ok
  one := h.one
  started_le c op hc := by
    rcases setBusy_cases hc with ⟨rfl, hop⟩ | ⟨-, hold⟩
    · cases hop
      exact le_rfl
    · exact h.started_le c op hold
  checked c op current hc hstage := by
    rcases setBusy_cases hc with ⟨rfl, hop⟩ | ⟨-, hold⟩
    · cases hop
      cases hstage
    · exact h.checked c op current hold hstage
  above c op o n hc hnone ho hok hrival hn := by
    rcases setBusy_cases hc with ⟨rfl, hop⟩ | ⟨-, hold⟩
    · cases hop
      have hlog := h.changed_of_ok o ho hok
      rw [hrival.1, hrival.2.1] at hlog
      exact absurd hlog (lt_irrefl _)
    · exact h.above c op o n hold hnone ho hok hrival hn
  decided c op result hc hout := by
    rcases setBusy_cases hc with ⟨rfl, hop⟩ | ⟨-, hold⟩
    · cases hop
      cases hout
    · exact h.decided c op result hold hout

theorem Consistent.finish (h : s.Consistent) (client : C) :
    Consistent { s with busy := s.setBusy client none } := by
  have hold : ∀ c op, s.setBusy client none c = some op → s.busy c = some op := by
    intro c op hc
    rcases setBusy_cases hc with ⟨-, hop⟩ | ⟨-, hold⟩
    · cases hop
    · exact hold
  exact ⟨h.changed_of_ok, fun c op hc => h.started_le c op (hold c op hc),
    fun c op current hc => h.checked c op current (hold c op hc),
    fun c op o n hc => h.above c op o n (hold c op hc), h.one,
    fun c op result hc => h.decided c op result (hold c op hc)⟩

/-- A cleanup goes on with a key to delete, or with the `get`. -/
theorem removing_cases (clock : MemoryClock) : ∀ l : List (String × MemoryEntry),
    WriteStage.removing clock l = .load ∨
      ∃ key rest, WriteStage.removing clock l = .remove key rest
  | [] => .inl rfl
  | (key, entry) :: rest => by
    rw [WriteStage.removing]
    split_ifs
    · exact .inr ⟨key, rest, rfl⟩
    · exact removing_cases clock rest

theorem Consistent.removing (h : s.Consistent) (hbusy : s.busy client = some op)
    (hpending : op.stage.outcome = none) (l : List (String × MemoryEntry)) :
    Consistent { s with
      busy := s.setBusy client (some { op with stage := .removing op.clock l }) } := by
  rcases removing_cases op.clock l with hload | ⟨key, rest, hremove⟩
  · rw [hload]
    exact h.move hbusy _ (fun _ => hpending) nofun nofun
  · rw [hremove]
    exact h.move hbusy _ (fun _ => hpending) nofun nofun

theorem Consistent.command (h : s.Consistent) (hbusy : s.busy client = some op)
    (hdone : op.stage.isDone = false) (hcareful : s.CarefulCall op) :
    Consistent {
      backend := (op.stage.step op.clock op.w s.backend).2
      changes := s.changed op.w op.stage
      busy := s.setBusy client
        (some { op with stage := (op.stage.step op.clock op.w s.backend).1 })
      log := s.decided op op.stage (op.stage.step op.clock op.w s.backend).1 } := by
  obtain ⟨⟨w, started⟩, clock, stage⟩ := op
  cases stage with
  | list => exact h.removing hbusy rfl _
  | remove key rest => exact (h.delete hcareful).removing hbusy rfl rest
  | load =>
    simp only [WriteStage.step, WriteStage.loaded, changed]
    rcases hcheck : w.checkVersion ((get s.backend w.key).map MemoryRecord.toEntry) with e | _
    · refine (h.fail ⟨w, started⟩ e).move hbusy _ nofun nofun fun result hresult => ?_
      cases hresult
      exact List.mem_append_right _ (List.mem_singleton_self _)
    · refine h.move hbusy _ (fun _ => rfl) (fun current hcurrent => ?_) nofun
      cases hcurrent
      exact hcheck
  | put current =>
    refine (h.put hbusy rfl hcareful).move hbusy _ nofun nofun fun result hresult => ?_
    cases hresult
    exact List.mem_append_right _ (List.mem_singleton_self _)
  | append entry =>
    refine h.move hbusy _ nofun nofun fun result hresult => ?_
    cases hresult
    exact h.decided client _ _ hbusy rfl
  | done result => cases hdone

theorem Consistent.step (h : s.Consistent) {action : MemoryAction C} (hcareful : s.Careful action)
    (hstep : s.step action = some s') : s'.Consistent := by
  cases action with
  | start client clock w =>
    simp only [MemoryClients.step] at hstep
    split at hstep
    · cases hstep
    · cases hstep
      exact h.start clock w
  | command client =>
    simp only [MemoryClients.step] at hstep
    split at hstep
    · cases hstep
    · rename_i op hbusy
      split_ifs at hstep with hdone
      cases hstep
      simp only [Careful, hbusy] at hcareful
      exact h.command hbusy (by simpa using hdone) hcareful
  | finish client =>
    simp only [MemoryClients.step] at hstep
    split at hstep
    · split_ifs at hstep
      cases hstep
      exact h.finish client
    · cases hstep

theorem Consistent.run : ∀ {s : MemoryClients C β} (actions : List (MemoryAction C)),
    s.Consistent → s.CarefulRun actions → s.run actions = some s' → s'.Consistent
  | s, [], h, _, hrun => by
    cases hrun
    exact h
  | s, action :: actions, h, hcareful, hrun => by
    simp only [MemoryClients.run] at hrun
    split at hrun
    · rename_i s₁ hstep
      simp only [CarefulRun, hstep] at hcareful
      exact Consistent.run actions (h.step hcareful.1 hstep) hcareful.2 hrun
    · cases hrun

end MemoryClients

/-- Over every interleaving of the calls of any stores on one backend: of the writes that started
from one entry and expect one version, at most one succeeds, and a write that returned has the
outcome that was decided, if a `put` finds what its `get` returned and no `delete` hits an entry
that was stored after the start of an undecided write to its key. -/
theorem at_most_one_rival_succeeds {C β : Type} [DecidableEq C] [SharedMemoryBackend β]
    (backend : β) {actions : List (MemoryAction C)} {s : MemoryClients C β}
    (hcareful : ({ backend } : MemoryClients C β).CarefulRun actions)
    (hrun : ({ backend } : MemoryClients C β).run actions = some s) :
    (s.log.Pairwise fun o o' => o.Rivals o'.toStartedWrite → ¬ (o.result.isOk ∧ o'.result.isOk)) ∧
      ∀ c op result, s.busy c = some op → op.stage = .done result →
        ⟨op.toStartedWrite, result⟩ ∈ s.log := by
  have hstart : ({ backend } : MemoryClients C β).Consistent := by
    refine ⟨fun o ho => ?_, fun c op hc => ?_, fun c op current hc => ?_, fun c op o n hc => ?_,
      List.Pairwise.nil, fun c op result hc => ?_⟩
    · cases ho
    all_goals cases hc
  have h := MemoryClients.Consistent.run actions hstart hcareful hrun
  refine ⟨h.one, fun c op result hc hdone => h.decided c op result hc ?_⟩
  rw [hdone]
  rfl

/-- A write that expects that its key has no entry. -/
def firstWrite (role : String) : MemoryWrite :=
  { key := "k", value := .null, writerRole := role, expectedVersion := some 0 }

/-- Two stores start at once; one stores its entry before the other loads it, and that conflicts. -/
theorem at_most_one_rival_succeeds_conflict :
    let actions : List (MemoryAction Bool) :=
      [.start false (.at 0) (firstWrite "a"), .start true (.at 0) (firstWrite "b"), .command false,
        .command true, .command false, .command false, .command true, .command false, .finish false]
    ∃ s, ({ backend := {} } : MemoryClients Bool SQLiteSharedMemoryBackend).run actions = some s ∧
      s.log.map (fun o => o.result.isOk) = [true, false] ∧
      s.log.Pairwise fun o o' =>
        o.Rivals o'.toStartedWrite → ¬ (o.result.isOk ∧ o'.result.isOk) := by
  intro actions
  refine ⟨_, rfl, rfl, ?_⟩
  have hrun : ({ backend := {} } : MemoryClients Bool SQLiteSharedMemoryBackend).run actions
    = some _ := rfl
  refine (at_most_one_rival_succeeds _ ?_ hrun).1
  exact ⟨trivial, trivial, trivial, trivial, trivial, rfl, trivial, trivial, trivial, trivial⟩

/-- Both stores load the key before either stores its entry: both succeed. -/
theorem rivals_both_succeed :
    let actions : List (MemoryAction Bool) :=
      [.start false (.at 0) (firstWrite "a"), .start true (.at 0) (firstWrite "b"), .command false,
        .command true, .command false, .command true, .command false, .command true]
    ∃ s, ({ backend := {} } : MemoryClients Bool SQLiteSharedMemoryBackend).run actions = some s ∧
      ∃ o o', s.log = [o, o'] ∧ o.Rivals o'.toStartedWrite ∧ o.result.isOk ∧ o'.result.isOk :=
  ⟨_, rfl, _, _, rfl, ⟨rfl, rfl, 0, rfl, rfl⟩, rfl, rfl⟩

end AgentLearning
