import AgentLearning.Proofs.Protocol
import AgentLearning.Proofs.Safety

/-!
# Snapshot ids

A snapshot id is the session id, the step id and the number of snapshots the session had when the
id was built. Threads build and append in two actions, so that numbers repeat. Two ids are still
distinct while one thread at a time works on a step id: a number is never above the snapshots
stored, and the thread that built it is the only one to store it under its step id.
-/

namespace AgentLearning

open InMemoryStateStore Executor

/-- The last colon separates the number, whatever the session and step ids are. -/
theorem SnapshotManager.buildSnapshotId_inj {sid x y : String} {n m : ℕ}
    (h : buildSnapshotId sid x n = buildSnapshotId sid y m) : x = y ∧ n = m := by
  have hl : ∀ (x : String) (n : ℕ), (buildSnapshotId sid x n).toList
      = (sid.toList ++ ":".toList ++ x.toList) ++ ':' :: n.repr.toList := by
    intro x n
    have hv : ":".toList = [':'] := by decide
    simp [buildSnapshotId, String.toList_append, hv]
  have hlist := congrArg String.toList h
  rw [hl, hl] at hlist
  obtain ⟨hx, hn⟩ := Replanner.append_cons_inj (Replanner.notMem_natRepr (by decide) n)
    (Replanner.notMem_natRepr (by decide) m) hlist
  exact ⟨String.toList_inj.mp (List.append_cancel_left hx),
    Nat.repr_injective (String.toList_inj.mp hn)⟩

/-! ## One session -/

def SessionState.snapshotIds (session : SessionState) : List String :=
  session.snapshots.map (·.snapshotId)

/-- The ids of the snapshots are distinct, and each has a number below theirs. -/
structure SessionState.Numbered (sid : String) (session : SessionState) : Prop where
  sessionId : session.sessionId = sid
  nodup : session.snapshotIds.Nodup
  below : ∀ id ∈ session.snapshotIds, ∃ x n, n < session.snapshots.length
    ∧ id = SnapshotManager.buildSnapshotId sid x n

/-- An id built before and not stored since. -/
structure SessionState.Free (sid : String) (session : SessionState) (x id : String) : Prop where
  built : ∃ n ≤ session.snapshots.length, id = SnapshotManager.buildSnapshotId sid x n
  free : id ∉ session.snapshotIds

section Session

variable {sid : String} {session session' : SessionState}

/-- An id built now is not one that is stored. -/
theorem SessionState.Numbered.create (h : session.Numbered sid) (x : String)
    (phase : SnapshotPhase) (payload : SnapshotPayload) :
    session.Free sid x (SnapshotManager.create session x phase payload).snapshotId := by
  unfold SnapshotManager.create
  rw [h.sessionId]
  refine ⟨⟨_, le_rfl, rfl⟩, fun hmem => ?_⟩
  obtain ⟨y, n, hn, he⟩ := h.below _ hmem
  obtain ⟨-, rfl⟩ := SnapshotManager.buildSnapshotId_inj he
  exact lt_irrefl _ hn

/-- The session after a snapshot was appended. -/
def SessionState.append (session : SessionState) (snapshot : StepSnapshot) : SessionState :=
  { session with snapshots := session.snapshots ++ [snapshot] }

theorem SessionState.snapshotIds_append (snapshot : StepSnapshot) :
    (session.append snapshot).snapshotIds = session.snapshotIds ++ [snapshot.snapshotId] := by
  simp [snapshotIds, append]

theorem SessionState.Numbered.append (h : session.Numbered sid) {snapshot : StepSnapshot}
    {x : String} (hfree : session.Free sid x snapshot.snapshotId) :
    (session.append snapshot).Numbered sid where
  sessionId := h.sessionId
  nodup := by
    rw [snapshotIds_append, List.nodup_append]
    refine ⟨h.nodup, by simp, fun id hid id' hid' he => ?_⟩
    rw [List.mem_singleton] at hid'
    exact hfree.free (hid' ▸ he ▸ hid)
  below id hid := by
    rw [snapshotIds_append, List.mem_append, List.mem_singleton] at hid
    have hlen : (session.append snapshot).snapshots.length = session.snapshots.length + 1 := by
      simp [SessionState.append]
    rcases hid with hid | rfl
    · obtain ⟨y, n, hn, he⟩ := h.below id hid
      exact ⟨y, n, by omega, he⟩
    · obtain ⟨n, hn, he⟩ := hfree.built
      exact ⟨x, n, by omega, he⟩

/-- An id of another step stays free. -/
theorem SessionState.Free.append {x y id : String} (h : session.Free sid y id)
    {snapshot : StepSnapshot} (hfree : session.Free sid x snapshot.snapshotId) (hne : y ≠ x) :
    (session.append snapshot).Free sid y id where
  built := by
    obtain ⟨n, hn, he⟩ := h.built
    exact ⟨n, by simp only [SessionState.append, List.length_append]; omega, he⟩
  free := by
    rw [snapshotIds_append, List.mem_append, List.mem_singleton, not_or]
    refine ⟨h.free, fun he => hne ?_⟩
    obtain ⟨n, -, hn⟩ := h.built
    obtain ⟨m, -, hm⟩ := hfree.built
    exact (SnapshotManager.buildSnapshotId_inj (hn.symm.trans (he.trans hm))).1

end Session

/-! ## The store -/

/-- No session's id or snapshots changed, and none came or went. -/
def SameSnapshots (σ σ' : InMemoryStateStore) : Prop :=
  ∀ t, (σ'.sessions.get? t).map (fun session => (session.sessionId, session.snapshots))
    = (σ.sessions.get? t).map fun session => (session.sessionId, session.snapshots)

section Store

variable {σ σ' : InMemoryStateStore} {sid : String}

theorem sameSnapshots_put {session session' : SessionState}
    (h : σ.sessions.get? sid = some session) (hid : session'.sessionId = session.sessionId)
    (hs : session'.snapshots = session.snapshots) : SameSnapshots σ (σ.put sid session') := by
  intro t
  rw [get?_put]
  split_ifs with ht
  · subst ht
    simp [h, hid, hs]
  · rfl

theorem sameSnapshots_of_modifySession {f : SessionState → SessionState}
    (h : σ.modifySession sid f = .ok σ')
    (hid : ∀ session, (f session).sessionId = session.sessionId)
    (hs : ∀ session, (f session).snapshots = session.snapshots) : SameSnapshots σ σ' := by
  obtain ⟨session, hsession, rfl⟩ := modifySession_ok h
  exact sameSnapshots_put hsession (hid session) (hs session)

theorem sameSnapshots_of_modifyStep {id : String} {f : StepState → StepState}
    (h : σ.modifyStep sid id f = .ok σ') : SameSnapshots σ σ' := by
  unfold modifyStep at h
  rcases hstep : σ.getStep sid id with x | step <;> rw [hstep] at h
  · cases h
  · exact sameSnapshots_of_modifySession (f := fun session =>
      { session with steps := session.steps.set id (f step) }) h (fun _ => rfl) fun _ => rfl

theorem foldl_insertStep_snapshots : ∀ (steps : List StepDict) (session : SessionState),
    (steps.foldl SessionState.insertStep session).sessionId = session.sessionId
      ∧ (steps.foldl SessionState.insertStep session).snapshots = session.snapshots
  | [], _ => ⟨rfl, rfl⟩
  | d :: steps, session => by
    obtain ⟨hid, hs⟩ := foldl_insertStep_snapshots steps (session.insertStep d)
    rw [List.foldl_cons, hid, hs]
    unfold SessionState.insertStep
    split_ifs <;> exact ⟨rfl, rfl⟩

theorem sameSnapshots_of_upsertPlanSteps {steps : List StepDict} {planVersion : ℤ}
    (h : σ.upsertPlanSteps sid steps planVersion = .ok σ') : SameSnapshots σ σ' :=
  sameSnapshots_of_modifySession h (fun _ => (foldl_insertStep_snapshots steps _).1)
    fun _ => (foldl_insertStep_snapshots steps _).2

/-- The snapshots of every session are numbered, the ids of the threads are distinct, and what a
thread has built is free. -/
structure Numbers (sid : String) (σ : InMemoryStateStore) (ws : List (String × Ghost)) :
    Prop where
  sessions : ∀ t session, σ.sessions.get? t = some session → session.Numbered t
  nodup : (ws.map Prod.fst).Nodup
  pending : ∀ x g snapshot, (x, g) ∈ ws → g.pending = some snapshot →
    ∀ session, σ.sessions.get? sid = some session → session.Free sid x snapshot.snapshotId

variable {ws : List (String × Ghost)}

theorem Numbers.same (h : Numbers sid σ ws) (hσ : SameSnapshots σ σ') : Numbers sid σ' ws := by
  have hold : ∀ t session', σ'.sessions.get? t = some session' →
      ∃ session, σ.sessions.get? t = some session ∧ session'.sessionId = session.sessionId
        ∧ session'.snapshots = session.snapshots := by
    intro t session' hs'
    have := hσ t
    rw [hs', Option.map_some] at this
    obtain ⟨session, hs, he⟩ := Option.map_eq_some_iff.mp this.symm
    simp only [Prod.mk.injEq] at he
    exact ⟨session, hs, he.1.symm, he.2.symm⟩
  refine ⟨fun t session' hs' => ?_, h.nodup, fun x g snapshot hmem hp session' hs' => ?_⟩
  · obtain ⟨session, hs, hid, hsnap⟩ := hold t session' hs'
    obtain ⟨h₁, h₂, h₃⟩ := h.sessions t session hs
    refine ⟨hid.trans h₁, ?_, ?_⟩
    · rwa [SessionState.snapshotIds, hsnap]
    · rwa [SessionState.snapshotIds, hsnap]
  · obtain ⟨session, hs, hid, hsnap⟩ := hold sid session' hs'
    obtain ⟨h₁, h₂⟩ := h.pending x g snapshot hmem hp session hs
    refine ⟨?_, ?_⟩
    · rwa [hsnap]
    · rwa [SessionState.snapshotIds, hsnap]

/-- A snapshot of a step is appended; what the threads of other steps have built stays free. -/
theorem Numbers.append {t x : String} (h : Numbers sid σ ws) {session : SessionState}
    (hs : σ.sessions.get? t = some session) {snapshot : StepSnapshot}
    (hfree : session.Free t x snapshot.snapshotId)
    (hws : ∀ y g s, (y, g) ∈ ws → g.pending = some s → t = sid → y ≠ x) :
    Numbers sid (σ.put t (session.append snapshot)) ws := by
  refine ⟨fun t' session' hs' => ?_, h.nodup, fun y g s hmem hp session' hs' => ?_⟩
  · rw [get?_put] at hs'
    split_ifs at hs' with ht
    · cases hs'
      exact ht ▸ (h.sessions t session hs).append hfree
    · exact h.sessions t' session' hs'
  · rw [get?_put] at hs'
    split_ifs at hs' with ht
    · cases hs'
      subst ht
      exact (h.pending y g s hmem hp session hs).append hfree (hws y g s hmem hp rfl)
    · exact h.pending y g s hmem hp session' hs'

theorem Numbers.mainOp (h : Numbers sid σ []) (hop : MainOp σ σ') : Numbers sid σ' [] := by
  cases hop with
  | @init t requestId traceId steps planVersion _ hinit =>
    unfold initSession at hinit
    rcases hs : σ.sessions.get? t with _ | session <;> rw [hs] at hinit
    · refine Numbers.same ⟨fun t' session' hs' => ?_, h.nodup, by simp⟩
        (sameSnapshots_of_upsertPlanSteps hinit)
      rw [Dict.get?_set] at hs'
      split_ifs at hs' with ht
      · cases hs'
        exact ⟨ht, by simp [SessionState.snapshotIds], by simp [SessionState.snapshotIds]⟩
      · exact h.sessions t' session' hs'
    · have hput : SameSnapshots σ (σ.put t { session with
          requestId
          traceId := if traceId = "" then session.traceId else traceId
          planVersion := max session.planVersion planVersion }) := sameSnapshots_put hs rfl rfl
      exact (h.same hput).same (sameSnapshots_of_upsertPlanSteps hinit)
  | upsert hupsert => exact h.same (sameSnapshots_of_upsertPlanSteps hupsert)
  | setStatus hset =>
    exact h.same (sameSnapshots_of_modifySession hset (fun _ => rfl) fun _ => rfl)
  | finalSnapshot hget hsave =>
    obtain ⟨session, hs, rfl⟩ := modifySession_ok hsave
    rw [getSession_eq hs] at hget
    cases hget
    exact h.append hs ((h.sessions _ _ hs).create "final" _ _) (by simp)

/-- With distinct ids, what is in the list after a change at one place. -/
theorem mem_set_of_nodup {ws : List (String × Ghost)} {i : ℕ} {x y : String} {g g' g₁ : Ghost}
    (hnd : (ws.map Prod.fst).Nodup) (hi : ws[i]? = some (x, g))
    (h : (y, g₁) ∈ ws.set i (x, g')) : y = x ∧ g₁ = g' ∨ y ≠ x ∧ (y, g₁) ∈ ws := by
  obtain ⟨j, hj⟩ := List.mem_iff_getElem?.mp h
  by_cases hij : i = j
  · subst hij
    rw [List.getElem?_set_self (List.getElem?_eq_some_iff.mp hi).1] at hj
    cases hj
    exact .inl ⟨rfl, rfl⟩
  · rw [List.getElem?_set_ne hij] at hj
    refine .inr ⟨fun he => hij ?_, List.mem_of_getElem? hj⟩
    refine (List.getElem?_inj (by simpa using (List.getElem?_eq_some_iff.mp hi).1) hnd).mp ?_
    simp [hi, hj, he]

theorem Numbers.act {E : Executor} {a : StepArgs} {g g' : Ghost} {w w' : World} {i : ℕ}
    (h : Numbers a.plan.sessionId w.store ws) (hi : ws[i]? = some (a.step.stepId, g))
    (hact : Acts E a g w w' g') :
    Numbers a.plan.sessionId w'.store (ws.set i (a.step.stepId, g')) := by
  have hids : (ws.set i (a.step.stepId, g')).map Prod.fst = ws.map Prod.fst := map_set_eq hi rfl
  have hnodup : ((ws.set i (a.step.stepId, g')).map Prod.fst).Nodup := hids ▸ h.nodup
  -- a thread that builds nothing leaves what is pending as it was, or less
  have hquiet : (∀ snapshot, g'.pending = some snapshot → g.pending = some snapshot) →
      Numbers a.plan.sessionId w.store (ws.set i (a.step.stepId, g')) := by
    refine fun hp => ⟨h.sessions, hnodup, fun x g₁ snapshot hmem hp₁ => ?_⟩
    rcases mem_set_of_nodup h.nodup hi hmem with ⟨rfl, rfl⟩ | ⟨-, hmem⟩
    · exact h.pending _ g snapshot (List.mem_of_getElem? hi) (hp snapshot hp₁)
    · exact h.pending x g₁ snapshot hmem hp₁
  cases hact with
  | read => exact hquiet fun _ hp => hp
  | invoke _ => exact hquiet fun _ hp => hp
  | mark _ _ _ _ hs _ => exact (hquiet fun _ hp => hp).same (sameSnapshots_of_modifyStep hs)
  | build hs phase payload =>
    refine ⟨h.sessions, hnodup, fun x g₁ snapshot hmem hp₁ session' hs' => ?_⟩
    rw [hs] at hs'
    cases hs'
    rcases mem_set_of_nodup h.nodup hi hmem with ⟨rfl, rfl⟩ | ⟨-, hmem⟩
    · cases hp₁
      exact (h.sessions _ _ hs).create _ phase payload
    · exact h.pending x g₁ snapshot hmem hp₁ _ hs
  | @append snapshot _ hp hs =>
    obtain ⟨session, hsession, rfl⟩ := modifySession_ok hs
    refine Numbers.append (hquiet (by simp)) hsession
      (h.pending _ g snapshot (List.mem_of_getElem? hi) hp session hsession)
      fun y g₁ s hmem hp₁ _ => ?_
    rcases mem_set_of_nodup h.nodup hi hmem with ⟨-, rfl⟩ | ⟨hne, -⟩
    · cases hp₁
    · exact hne

theorem upheld_numbers (E : Executor) (sid : String) : Upheld E sid False True (Numbers sid) where
  act h hi hsid hact := by
    subst hsid
    exact h.act hi hact
  spawn h hnodup := by
    refine ⟨h.sessions, ?_, fun x g snapshot hmem hp => ?_⟩
    · simpa [List.map_map, Function.comp_def] using hnodup trivial
    · obtain ⟨id, -, he⟩ := List.mem_map.mp hmem
      cases he
      cases hp
  drop h _ := ⟨h.sessions, by simp, by simp⟩
  main h hop := h.mainOp hop
  cancel h hmark :=
    h.same (sameSnapshots_of_modifySession hmark (fun _ => rfl) fun _ => rfl)

end Store

/-! ## Runs -/

/-- The stores that earlier calls can leave whose actions all started from states that meet `P`. -/
inductive ReachableThrough (P : Config → Prop) : List Event → InMemoryStateStore → Prop
  | empty : ReachableThrough P [] {}
  | call {hist : List Event} {store : InMemoryStateStore} {E : Executor} {call : Call}
    {c₀ c : Config} (h : ReachableThrough P hist store)
    (hstart : Executor.start call store = .ok c₀) (hrun : E.Runs call.request P c₀ c)
    (hended : c.Ended) : ReachableThrough P (hist ++ c.world.trace) c.world.store
  | cancel {hist : List Event} {store store' : InMemoryStateStore} {sid : String}
    (h : ReachableThrough P hist store) (hmark : store.markCancelRequested sid = .ok store') :
    ReachableThrough P hist store'

section Runs

variable {P : Config → Prop} {hist : List Event} {store : InMemoryStateStore} {E : Executor}
  {call : Call} {c₀ c : Config}

theorem ReachableThrough.reachable (h : ReachableThrough P hist store) : Reachable hist store := by
  induction h with
  | empty => exact .empty
  | call _ hstart hrun hended ih => exact ih.call hstart (hrun.mono fun _ _ => trivial) hended
  | cancel _ hmark ih => exact ih.cancel hmark

/-- The snapshots of every session are numbered. -/
def AllNumbered (σ : InMemoryStateStore) : Prop :=
  ∀ t session, σ.sessions.get? t = some session → session.Numbered t

theorem AllNumbered.runs (h : AllNumbered store) (hstore : Reachable hist store)
    (hstart : Executor.start call store = .ok c₀)
    (hrun : E.Runs call.request (fun c => c.plan.stepIds.Nodup) c₀ c) :
    AllNumbered c.world.store := by
  have hmanned := (hstore.manned (upheld_numbers E call.plan.sessionId) hstart
    ⟨h, by simp, by simp⟩ (fun c action hc => ⟨fun _ => hc, False.elim, False.elim⟩)
    hrun.runsBy).1
  obtain ⟨ws, hnumbers⟩ := hmanned.exists_ledger
  exact hnumbers.sessions

theorem ReachableThrough.allNumbered
    (h : ReachableThrough (fun c => c.plan.stepIds.Nodup) hist store) : AllNumbered store := by
  induction h with
  | empty => simp [AllNumbered]
  | call h hstart hrun _ ih => exact ih.runs h.reachable hstart hrun
  | cancel _ hmark ih =>
    have hnumbers : Numbers "" _ [] := ⟨ih, by simp, by simp⟩
    have hsame := sameSnapshots_of_modifySession hmark (fun _ => rfl) fun _ => rfl
    exact (hnumbers.same hsame).sessions

/-- While every plan version, of this call and of those before it, has distinct ids, the ids of the
snapshots stored in a session are distinct, for any ids of sessions and steps. -/
theorem snapshotIds_nodup
    (hstore : ReachableThrough (fun c => c.plan.stepIds.Nodup) hist store)
    (hstart : Executor.start call store = .ok c₀)
    (hrun : E.Runs call.request (fun c => c.plan.stepIds.Nodup) c₀ c) :
    ∀ sid session, c.world.store.sessions.get? sid = some session →
      (session.snapshots.map (·.snapshotId)).Nodup := fun sid session hs =>
  (hstore.allNumbered.runs hstore.reachable hstart hrun sid session hs).nodup

end Runs

/-- Two threads that build a snapshot each before one of them appends. -/
def buildBoth : List Action :=
  Action.loop 0 :: List.replicate 4 (Action.thread 0 {}) ++ List.replicate 5 (Action.thread 1 {})
    ++ [Action.thread 0 {}]

theorem snapshotIds_nodup_interleaved :
    let call := sampleCall (samplePlan [sampleStep "a" [], sampleStep "final" []])
    ∃ c₀ c session, Executor.start call {} = .ok c₀
      ∧ (sampleExecutor 0 1).Runs call.request (fun c => c.plan.stepIds.Nodup) c₀ c
      ∧ c.world.store.sessions.get? "s" = some session
      ∧ session.snapshotIds = ["s:final:0", "s:a:0"] ∧ session.snapshotIds.Nodup := by
  intro call
  have hq : ((Executor.start call {}).toOption.bind fun c =>
      (sampleExecutor 0 1).runWhile call.request (fun c => decide c.plan.stepIds.Nodup) c
        buildBoth).any (fun c => (c.world.store.sessions.get? "s").any
          (·.snapshotIds = ["s:final:0", "s:a:0"])) = true := by decide +kernel
  obtain ⟨c₀, c, hstart, hrun, hq⟩ := exists_of_runWhile hq
  obtain ⟨session, hs, hids⟩ := (Option.any_eq_true _ _).mp hq
  have hruns := hrun.mono (Q := fun c => c.plan.stepIds.Nodup) fun c hc => of_decide_eq_true hc
  exact ⟨c₀, c, session, hstart, hruns, hs, of_decide_eq_true hids,
    snapshotIds_nodup .empty hstart hruns "s" session hs⟩

/-- An accepted plan with distinct ids, one of which is the id the other is replaced under: the
two threads of that id build before either appends, and one id is stored twice. -/
theorem snapshotIds_repeat_after_id_collision :
    let call := sampleCall (samplePlan [sampleStep "a" [], sampleStep "a-replan-v2" []])
    let E := sampleExecutor 0 1
    Planner.validatePlan call.plan ["t"] = .ok () ∧ call.plan.stepIds.Nodup
      ∧ ∃ c₀ c session, Executor.start call {} = .ok c₀
        ∧ E.run call.request c₀ (batchRound 2 (exhaustThread 0 ++ exhaustThread 1) ++ buildBoth)
          = some c
        ∧ c.world.store.sessions.get? "s" = some session
        ∧ ¬ (session.snapshots.map (·.snapshotId)).Nodup := by
  intro call E
  have hq : ((Executor.start call {}).toOption.bind fun c =>
      E.run call.request c (batchRound 2 (exhaustThread 0 ++ exhaustThread 1) ++ buildBoth)).any
      (fun c => (c.world.store.sessions.get? "s").any fun session =>
        decide (¬ (session.snapshots.map (·.snapshotId)).Nodup)) = true := by decide +kernel
  obtain ⟨c₀, c, hstart, hrun, hq⟩ := exists_of_run hq
  obtain ⟨session, hs, hids⟩ := (Option.any_eq_true _ _).mp hq
  exact ⟨by decide +kernel, by decide, c₀, c, session, hstart, hrun, hs, of_decide_eq_true hids⟩

end AgentLearning
