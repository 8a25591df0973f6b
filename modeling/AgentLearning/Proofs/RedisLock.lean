import Mathlib.Tactic.NormNum
import AgentLearning.Lib.Lease
import AgentLearning.DistributedLock

/-!
# Mutual exclusion in Redis

Any number of clients call one `RedisDistributedLock` at once, and their commands come in any
order. `release` asks who holds the key in one command and deletes it in another, whoever holds it
by then. The keys guard the log of who acquired and released what (`Lease.Guards`) as long as no
client deletes the key of another, and no fraction of a millisecond is cut off a `ttl`.
-/

namespace AgentLearning

namespace LockServer

variable {s : LockServer} {lockName : String}

theorem get_eq_none_iff : s.get lockName = none ↔ Lease.Free s.keys s.now lockName := by
  unfold get Lease.Free
  rcases s.keys lockName with _ | ⟨holder, expiry⟩
  · simp
  · simp

theorem setNxPx_cases (s : LockServer) (lockName holder : String) (ttlMs : ℤ) :
    (Lease.Free s.keys s.now lockName ∧ s.setNxPx lockName holder ttlMs = (.ok true, { s with
      keys := Function.update s.keys lockName (some (holder, s.now + ttlMs / 1000)) })) ∨
    s.setNxPx lockName holder ttlMs = (.ok false, s) ∨
    ∃ e, s.setNxPx lockName holder ttlMs = (.error e, s) := by
  unfold setNxPx
  split_ifs with hpos hsome
  · exact .inr (.inr ⟨_, rfl⟩)
  · exact .inr (.inl rfl)
  · rw [Bool.not_eq_true, Option.isSome_eq_false_iff, Option.isNone_iff_eq_none] at hsome
    exact .inl ⟨get_eq_none_iff.mp hsome, rfl⟩

end LockServer

/-- A whole number of milliseconds is not cut. -/
theorem cut_eq_of_isInt {ttl : ℚ} (h : (ttl * 1000).isInt) :
    (intOfFloat (ttl * 1000) : ℚ) / 1000 = ttl := by
  have hden : (ttl * 1000).den = 1 := by simpa [Rat.isInt] using h
  have hcut : intOfFloat (ttl * 1000) = (ttl * 1000).num := by simp [intOfFloat, hden]
  rw [hcut, Rat.den_eq_one_iff _ |>.mp hden]
  norm_num

namespace LockStage

/-- The name a client is about to release. -/
def releases : LockStage → Option String
  | .releaseGet lockName => some lockName
  | .releaseDelete lockName => some lockName
  | _ => none

/-- The time to live a client asks for. -/
def ttl : LockStage → Option ℚ
  | .attempt _ ttl _ => some ttl
  | .check _ ttl _ => some ttl
  | _ => none

end LockStage

/-- The server, where each client is in its call, and the log; an acquisition is logged with its
`SET`, a release with the start of the call. -/
structure LockClients (C : Type) where
  server : LockServer
  busy : C → Option LockStage := fun _ => none
  log : List (Lease.Event String String ℚ) := []

/-- What happens next: a client begins a call, sends the next command of its call, compares its
deadline or returns, or time goes by on the server. The clocks of the clients are their own. -/
inductive LockClientAction (C : Type)
  | start (client : C) (call : LockCall) (now : ℚ)
  | command (client : C)
  | check (client : C) (now : ℚ)
  | finish (client : C)
  | advance (elapsed : ℚ)

namespace LockClients

variable {C : Type} [DecidableEq C] (holder : C → String) (s : LockClients C)

def setBusy (client : C) (stage : Option LockStage) : C → Option LockStage :=
  Function.update s.busy client stage

/-- The log after the start of a call. -/
def begun (client : C) : LockCall → List (Lease.Event String String ℚ)
  | .release lockName => s.log ++ [.released (holder client) lockName]
  | _ => s.log

/-- The log after a command, by the stages before and after it. -/
def sent (client : C) : LockStage → LockStage → List (Lease.Event String String ℚ)
  | .attempt lockName ttl _, .done (.ok true) =>
    s.log ++ [.acquired (holder client) lockName s.server.now (s.server.now + ttl)]
  | _, _ => s.log

def step : LockClientAction C → Option (LockClients C)
  | .start client call now =>
    match s.busy client with
    | some _ => none
    | none =>
      some { s with
        busy := s.setBusy client (some (RedisDistributedLock.start (holder client) now call))
        log := s.begun holder client call }
  | .command client =>
    match s.busy client with
    | none => none
    | some (.check _ _ _) => none
    | some (.done _) => none
    | some stage =>
      let next := RedisDistributedLock.command s.server (holder client) stage
      some { server := next.2
             busy := s.setBusy client (some next.1)
             log := s.sent holder client stage next.1 }
  | .check client now =>
    match s.busy client with
    | some (.check lockName ttl deadline) =>
      some { s with
        busy := s.setBusy client
          (some ((LockStage.check lockName ttl deadline).checkDeadline now)) }
    | _ => none
  | .finish client =>
    match s.busy client with
    | some (.done _) => some { s with busy := s.setBusy client none }
    | _ => none
  | .advance elapsed =>
    if 0 ≤ elapsed then
      some { s with server := { s.server with now := s.server.now + elapsed } }
    else none

/-- Takes the actions one after the other; `none` if one of them is not enabled. -/
def run : LockClients C → List (LockClientAction C) → Option (LockClients C)
  | s, [] => some s
  | s, action :: actions =>
    match s.step holder action with
    | some s' => run s' actions
    | none => none

/-- A time to live is a whole number of milliseconds, and a `DEL` does not hit the key of another
holder. -/
def careful : LockClientAction C → Bool
  | .start _ (.acquire _ _ ttl) _ => (ttl * 1000).isInt
  | .command client =>
    match s.busy client with
    | some (.releaseDelete lockName) => (s.server.get lockName).all (· = holder client)
    | _ => true
  | _ => true

/-- Every action of the run is careful in the state it is taken in. -/
def carefulRun : LockClients C → List (LockClientAction C) → Bool
  | _, [] => true
  | s, action :: actions =>
    s.careful holder action && match s.step holder action with
      | some s' => carefulRun s' actions
      | none => true

/-- The keys guard the log, a client that releases a name has begun to return it, and every time
to live is a whole number of milliseconds. -/
structure Guarded : Prop where
  guards : Lease.Guards s.server.keys s.server.now s.log
  releasing : ∀ c stage lockName, s.busy c = some stage → stage.releases = some lockName →
    ∀ till, ¬ Lease.Live s.log (holder c) lockName till
  whole : ∀ c stage ttl, s.busy c = some stage → stage.ttl = some ttl → (ttl * 1000).isInt

variable {holder} {s} {s' : LockClients C}

theorem Guarded.update (h : s.Guarded holder) (client : C) (next : Option LockStage)
    {server : LockServer} {log : List (Lease.Event String String ℚ)}
    (hguards : Lease.Guards server.keys server.now log)
    (hothers : ∀ c, c ≠ client → ∀ lockName till, Lease.Live log (holder c) lockName till →
      Lease.Live s.log (holder c) lockName till)
    (hreleasing : ∀ stage lockName, next = some stage → stage.releases = some lockName →
      ∀ till, ¬ Lease.Live log (holder client) lockName till)
    (hwhole : ∀ stage ttl, next = some stage → stage.ttl = some ttl → (ttl * 1000).isInt) :
    Guarded holder { server, busy := s.setBusy client next, log } where
  guards := hguards
  releasing c stage lockName hbusy hrel till hlive := by
    by_cases hc : c = client
    · subst hc
      simp only [setBusy, Function.update_self] at hbusy
      exact hreleasing stage lockName hbusy hrel till hlive
    · simp only [setBusy, Function.update_of_ne hc] at hbusy
      exact h.releasing c stage lockName hbusy hrel till (hothers c hc lockName till hlive)
  whole c stage ttl hbusy httl := by
    by_cases hc : c = client
    · subst hc
      simp only [setBusy, Function.update_self] at hbusy
      exact hwhole stage ttl hbusy httl
    · simp only [setBusy, Function.update_of_ne hc] at hbusy
      exact h.whole c stage ttl hbusy httl

/-- A stage that releases nothing, with nothing new in the log. -/
theorem Guarded.idle (h : s.Guarded holder) (client : C) (next : Option LockStage)
    (hreleases : ∀ stage, next = some stage → stage.releases = none)
    (hwhole : ∀ stage ttl, next = some stage → stage.ttl = some ttl → (ttl * 1000).isInt) :
    Guarded holder { s with busy := s.setBusy client next } :=
  h.update client next h.guards (fun _ _ _ _ hlive => hlive)
    (fun stage _ hnext hrel => by simp [hreleases stage hnext] at hrel) hwhole

theorem Guarded.start (hholder : ∀ c, holder c ≠ "")
    (h : s.Guarded holder) (client : C) (call : LockCall) (now : ℚ)
    (hcareful : s.careful holder (.start client call now)) :
    Guarded holder { s with
      busy := s.setBusy client (some (RedisDistributedLock.start (holder client) now call))
      log := s.begun holder client call } := by
  cases call with
  | acquire lockName timeout ttl =>
    refine h.idle client _ (fun stage hnext => ?_) fun stage ttl' hnext httl => ?_
    · cases hnext
      rfl
    · cases hnext
      cases httl
      exact hcareful
  | isLocked lockName =>
    refine h.idle client _ (fun stage hnext => ?_) fun stage ttl' hnext httl => ?_
    · cases hnext
      rfl
    · cases hnext
      cases httl
  | release lockName =>
    have hstart : RedisDistributedLock.start (holder client) now (.release lockName)
        = .releaseGet lockName := by
      simp [RedisDistributedLock.start, hholder client]
    rw [hstart]
    refine h.update client _ (h.guards.release _ _)
      (fun c hc n till hlive => (Lease.live_append_released hlive).1)
      (fun stage n hnext hrel till hlive => ?_) fun stage ttl' hnext httl => ?_
    · cases hnext
      cases hrel
      exact (Lease.live_append_released hlive).2 ⟨rfl, rfl⟩
    · cases hnext
      cases httl

omit [DecidableEq C] in
/-- The `DEL` of a release takes out nothing but a lease that is over or is being returned. -/
theorem Guarded.guards_delete (h : s.Guarded holder) {client : C} {lockName : String}
    (hbusy : s.busy client = some (.releaseDelete lockName))
    (hcareful : ∀ id, s.server.get lockName = some id → id = holder client) :
    Lease.Guards (s.server.delete lockName).2.keys s.server.now s.log := by
  refine h.guards.clear fun n id till hn => ?_
  by_cases hname : n = lockName
  · subst hname
    by_cases hover : till ≤ s.server.now
    · exact .inr (.inl hover)
    · have hget : s.server.get n = some id := by
        simp [LockServer.get, hn, not_le.mp hover]
      obtain rfl := hcareful id hget
      exact .inr (.inr (h.releasing client _ n hbusy rfl))
  · refine .inl ?_
    simp only [LockServer.delete, Function.update_of_ne hname]
    exact hn

/-- The `SET` of an attempt. -/
theorem Guarded.attempt (hholder : ∀ c, holder c ≠ "") (hinj : Function.Injective holder)
    (h : s.Guarded holder) {client : C} {lockName : String} {ttl deadline : ℚ}
    (hbusy : s.busy client = some (.attempt lockName ttl deadline))
    {next : LockStage × LockServer} (hnext : RedisDistributedLock.command s.server (holder client)
      (.attempt lockName ttl deadline) = next) :
    Guarded holder { server := next.2, busy := s.setBusy client (some next.1)
                     log := s.sent holder client (.attempt lockName ttl deadline) next.1 } := by
  have hwhole : (ttl * 1000).isInt := h.whole client _ ttl hbusy rfl
  rw [RedisDistributedLock.command, if_neg (hholder client)] at hnext
  rcases s.server.setNxPx_cases lockName (holder client) (intOfFloat (ttl * 1000))
    with ⟨hfree, hset⟩ | hset | ⟨e, hset⟩
  · rw [hset, cut_eq_of_isInt hwhole] at hnext
    subst hnext
    refine h.update client _ (h.guards.acquire hfree _ _) (fun c hc n till hlive => ?_)
      (fun stage n hstage hrel => ?_) fun stage ttl' hstage httl => ?_
    · rcases Lease.live_append_acquired hlive with hold | ⟨heq, -, -⟩
      · exact hold
      · exact absurd (hinj heq) hc
    · cases hstage
      cases hrel
    · cases hstage
      cases httl
  · rw [hset] at hnext
    subst hnext
    refine h.idle client _ (fun stage hstage => ?_) fun stage ttl' hstage httl => ?_
    · cases hstage
      rfl
    · cases hstage
      cases httl
      exact hwhole
  · rw [hset] at hnext
    subst hnext
    refine h.idle client _ (fun stage hstage => ?_) fun stage ttl' hstage httl => ?_
    · cases hstage
      rfl
    · cases hstage
      cases httl

theorem Guarded.done (h : s.Guarded holder) (client : C) (result : Except PyError Bool) :
    Guarded holder { s with busy := s.setBusy client (some (.done result)) } := by
  refine h.idle client _ (fun stage hstage => ?_) fun stage ttl hstage httl => ?_
  · cases hstage
    rfl
  · cases hstage
    cases httl

/-- The `GET` of a release, after which the client goes on only if it has the key. -/
theorem Guarded.releaseGet (h : s.Guarded holder) {client : C} {lockName : String}
    (hbusy : s.busy client = some (.releaseGet lockName)) {next : LockStage × LockServer}
    (hnext : RedisDistributedLock.command s.server (holder client) (.releaseGet lockName) = next) :
    Guarded holder { server := next.2, busy := s.setBusy client (some next.1)
                     log := s.sent holder client (.releaseGet lockName) next.1 } := by
  simp only [RedisDistributedLock.command] at hnext
  split at hnext
  · subst hnext
    exact h.done client _
  · split_ifs at hnext
    · subst hnext
      exact h.done client _
    · subst hnext
      refine h.update client _ h.guards (fun c hc n till hlive => hlive)
        (fun stage n hstage hrel => ?_) fun stage ttl' hstage httl => ?_
      · cases hstage
        cases hrel
        exact h.releasing client _ lockName hbusy rfl
      · cases hstage
        cases httl

/-- The `DEL` of a release, if it hits no key of another holder. -/
theorem Guarded.releaseDelete (h : s.Guarded holder) {client : C} {lockName : String}
    (hbusy : s.busy client = some (.releaseDelete lockName))
    (hown : ∀ id, s.server.get lockName = some id → id = holder client)
    {next : LockStage × LockServer} (hnext :
      RedisDistributedLock.command s.server (holder client) (.releaseDelete lockName) = next) :
    Guarded holder { server := next.2, busy := s.setBusy client (some next.1)
                     log := s.sent holder client (.releaseDelete lockName) next.1 } := by
  subst hnext
  refine h.update client _ (h.guards_delete hbusy hown)
    (fun c hc n till hlive => hlive) (fun stage n hstage hrel => ?_)
    fun stage ttl' hstage httl => ?_
  · cases hstage
    cases hrel
  · cases hstage
    cases httl

/-- A look at the clock between two attempts. -/
theorem Guarded.check (h : s.Guarded holder) {client : C} {lockName : String} {ttl deadline : ℚ}
    (hbusy : s.busy client = some (.check lockName ttl deadline)) (now : ℚ) :
    Guarded holder { s with
      busy := s.setBusy client
        (some ((LockStage.check lockName ttl deadline).checkDeadline now)) } := by
  have hwhole : (ttl * 1000).isInt := h.whole client _ ttl hbusy rfl
  simp only [LockStage.checkDeadline]
  split_ifs
  · exact h.done client _
  · refine h.idle client _ (fun stage hstage => ?_) fun stage ttl' hstage httl => ?_
    · cases hstage
      rfl
    · cases hstage
      cases httl
      exact hwhole

theorem Guarded.step (hholder : ∀ c, holder c ≠ "") (hinj : Function.Injective holder)
    (h : s.Guarded holder) {action : LockClientAction C} (hcareful : s.careful holder action)
    (hstep : s.step holder action = some s') : s'.Guarded holder := by
  cases action with
  | start client call now =>
    simp only [LockClients.step] at hstep
    split at hstep
    · cases hstep
    · cases hstep
      exact h.start hholder client call now hcareful
  | command client =>
    simp only [LockClients.step] at hstep
    rcases hbusy : s.busy client with _ | stage
    · simp only [hbusy] at hstep
      cases hstep
    · simp only [hbusy] at hstep
      cases stage with
      | attempt lockName ttl deadline =>
        cases hstep
        exact h.attempt hholder hinj hbusy rfl
      | check lockName ttl deadline => cases hstep
      | releaseGet lockName =>
        cases hstep
        exact h.releaseGet hbusy rfl
      | releaseDelete lockName =>
        cases hstep
        have hown : ∀ id, s.server.get lockName = some id → id = holder client := by
          intro id hid
          simpa [careful, hbusy, hid] using hcareful
        exact h.releaseDelete hbusy hown rfl
      | existsKey lockName =>
        cases hstep
        exact h.done client _
      | done result => cases hstep
  | check client now =>
    simp only [LockClients.step] at hstep
    split at hstep
    · rename_i lockName ttl deadline hbusy
      cases hstep
      exact h.check hbusy now
    · cases hstep
  | finish client =>
    simp only [LockClients.step] at hstep
    split at hstep
    · cases hstep
      exact h.idle client none (fun stage hstage => by cases hstage)
        fun stage ttl hstage _ => by cases hstage
    · cases hstep
  | advance elapsed =>
    simp only [LockClients.step] at hstep
    split_ifs at hstep with helapsed
    cases hstep
    exact ⟨h.guards.tick (by simpa using helapsed), h.releasing, h.whole⟩

theorem Guarded.run (hholder : ∀ c, holder c ≠ "") (hinj : Function.Injective holder) :
    ∀ {s : LockClients C} (actions : List (LockClientAction C)), s.Guarded holder →
      s.carefulRun holder actions → s.run holder actions = some s' → s'.Guarded holder
  | s, [], h, _, hrun => by
    cases hrun
    exact h
  | s, action :: actions, h, hcareful, hrun => by
    simp only [LockClients.run] at hrun
    simp only [carefulRun, Bool.and_eq_true] at hcareful
    split at hrun
    · rename_i s₁ hstep
      rw [hstep] at hcareful
      exact Guarded.run hholder hinj actions (h.step hholder hinj hcareful.1 hstep) hcareful.2 hrun
    · cases hrun

end LockClients

/-- Nobody acquires a name before the `ttl` of another holder who has not called `release` is over,
if every `ttl` is a whole number of milliseconds and no `DEL` hits the key of another holder. -/
theorem redisDistributedLock_exclusive {C : Type} [DecidableEq C] {holder : C → String}
    (hholder : ∀ c, holder c ≠ "") (hinj : Function.Injective holder) (now : ℚ)
    {actions : List (LockClientAction C)} {s : LockClients C}
    (hcareful : ({ server := { now } } : LockClients C).carefulRun holder actions)
    (hrun : ({ server := { now } } : LockClients C).run holder actions = some s) :
    Lease.Exclusive s.log := by
  have hstart : ({ server := { now } } : LockClients C).Guarded holder :=
    ⟨Lease.Guards.nil _ now, nofun, nofun⟩
  exact (LockClients.Guarded.run hholder hinj actions hstart hcareful hrun).guards.exclusive

/-- The first client's time ends while the second waits; both return the name, the first too
late. -/
theorem redisDistributedLock_exclusive_late_release :
    let holder : Bool → String := fun c => if c then "worker-1" else "worker-0"
    let actions : List (LockClientAction Bool) :=
      [.start false (.acquire "task" 10 2) 0, .command false, .finish false,
        .start true (.acquire "task" 10 2) 0, .command true, .advance 2, .check true 2,
        .command true, .start false (.release "task") 3, .command false, .finish true,
        .start true (.release "task") 3, .command true, .command true]
    ∃ s, ({ server := { now := 0 } } : LockClients Bool).run holder actions = some s ∧
      s.log = [.acquired "worker-0" "task" 0 2, .acquired "worker-1" "task" 2 4,
        .released "worker-0" "task", .released "worker-1" "task"] ∧ Lease.Exclusive s.log := by
  intro holder actions
  have hlog : (({ server := { now := 0 } } : LockClients Bool).run holder actions).map (·.log)
      = some [.acquired "worker-0" "task" 0 2, .acquired "worker-1" "task" 2 4,
        .released "worker-0" "task", .released "worker-1" "task"] := by
    decide +kernel
  obtain ⟨s, hrun, hlog⟩ := Option.map_eq_some_iff.mp hlog
  refine ⟨s, hrun, hlog, redisDistributedLock_exclusive ?_ ?_ 0 ?_ hrun⟩
  · intro c
    cases c <;> decide
  · intro c c' h
    cases c <;> cases c' <;> first | rfl | exact absurd h (by decide)
  · decide +kernel

/-- Between the `GET` and the `DEL` of the first client its time ends and the second acquires the
name; the `DEL` takes it from the second, and the third gets it at once. A `ttl` of `2.0005` ends
early. -/
theorem not_exclusive_of_delete_other :
    let holder : Fin 3 → String := fun c => s!"worker-{c}"
    let race : List (LockClientAction (Fin 3)) :=
      [.start 0 (.acquire "task" 10 2) 0, .command 0, .finish 0, .start 0 (.release "task") 0,
        .command 0, .advance 2, .start 1 (.acquire "task" 10 2) 2, .command 1, .command 0,
        .start 2 (.acquire "task" 10 2) 2, .command 2]
    let cut : List (LockClientAction (Fin 3)) :=
      [.start 0 (.acquire "task" 10 2.0005) 0, .command 0, .advance 2,
        .start 1 (.acquire "task" 10 2) 2, .command 1]
    (∃ s, ({ server := { now := 0 } } : LockClients (Fin 3)).run holder race = some s ∧
      ¬ Lease.Exclusive s.log) ∧
    ∃ s, ({ server := { now := 0 } } : LockClients (Fin 3)).run holder cut = some s ∧
      ¬ Lease.Exclusive s.log := by
  intro holder race cut
  constructor
  · have hlog : (({ server := { now := 0 } } : LockClients (Fin 3)).run holder race).map (·.log)
        = some [.acquired "worker-0" "task" 0 2, .released "worker-0" "task",
          .acquired "worker-1" "task" 2 4, .acquired "worker-2" "task" 2 4] := by
      decide +kernel
    obtain ⟨s, hrun, hlog⟩ := Option.map_eq_some_iff.mp hlog
    refine ⟨s, hrun, fun h => ?_⟩
    have hle := h [.acquired "worker-0" "task" 0 2, .released "worker-0" "task"] [] [] "worker-1"
      "worker-2" "task" 2 2 4 4 hlog (by decide) List.not_mem_nil
    norm_num at hle
  · have hlog : (({ server := { now := 0 } } : LockClients (Fin 3)).run holder cut).map (·.log)
        = some [.acquired "worker-0" "task" 0 2.0005, .acquired "worker-1" "task" 2 4] := by
      decide +kernel
    obtain ⟨s, hrun, hlog⟩ := Option.map_eq_some_iff.mp hlog
    refine ⟨s, hrun, fun h => ?_⟩
    have hle := h [] [] [] "worker-0" "worker-1" "task" 0 2 2.0005 4 hlog (by decide)
      List.not_mem_nil
    norm_num at hle

end AgentLearning
