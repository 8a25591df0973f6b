import AgentLearning.Proofs.MemoryOps

/-!
# One behaviour over different stores

Two stores answer every call alike if the calls they make of what is under them keep them in a
relation (`Agrees.prog`). Two instances: a store without a backend and one over a backend in
memory, and a store and the one that goes on with its backend after a restart. What differs after a
restart is the history, which is in the object only.
-/

namespace AgentLearning

namespace SharedMemoryStore

open SharedMemoryBackend Prog

/-! ## Programs of stores in a relation -/

/-- What the stores have under them answers alike, and keeps them related. -/
structure Agrees {β β' : Type} [SharedMemoryBackend β] [SharedMemoryBackend β']
    (R : SharedMemoryStore β → SharedMemoryStore β' → Prop) : Prop where
  current : ∀ s s' key, R s s' → s.current key = s'.current key
  contents : ∀ s s', R s s' → s.contents = s'.contents
  stored : ∀ s s' entry, R s s' → R (s.stored entry) (s'.stored entry)
  removed : ∀ s s' key, R s s' → R (s.removed key) (s'.removed key)
  appended : ∀ s s' key version, R s s' → R (s.appended key version) (s'.appended key version)

section Agrees

variable {β β' : Type} [SharedMemoryBackend β] [SharedMemoryBackend β']
  {R : SharedMemoryStore β → SharedMemoryStore β' → Prop} (h : Agrees R)

include h

theorem Agrees.load (key : String) : Simulates R (load key) (load key) :=
  Simulates.atomic fun s s' hs => ⟨h.current s s' key hs, hs⟩

theorem Agrees.allEntries : Simulates R allEntries allEntries :=
  Simulates.atomic fun s s' hs => ⟨h.contents s s' hs, hs⟩

theorem Agrees.store (entry : MemoryEntry) : Simulates R (store entry) (store entry) :=
  Simulates.atomic fun s s' hs => ⟨rfl, h.stored s s' entry hs⟩

theorem Agrees.remove (key : String) : Simulates R (remove key) (remove key) :=
  Simulates.atomic fun s s' hs => ⟨rfl, h.removed s s' key hs⟩

theorem Agrees.appendHistory (key : String) (version : ℤ) :
    Simulates R (appendHistory key version) (appendHistory key version) :=
  Simulates.atomic fun s s' hs => ⟨rfl, h.appended s s' key version hs⟩

theorem Agrees.removeExpired (now : ℚ) : ∀ l : List (String × MemoryEntry),
    Simulates R (removeExpired now l) (removeExpired now l)
  | [] => Simulates.pure []
  | (key, entry) :: rest => by
    rw [SharedMemoryStore.removeExpired, SharedMemoryStore.removeExpired]
    split_ifs
    · refine Simulates.bind (fun _ => ?_) (h.remove key)
      exact Simulates.bind (fun removed => Simulates.pure _) (Agrees.removeExpired now rest)
    · exact Agrees.removeExpired now rest

theorem Agrees.cleanupExpired (now : ℚ) :
    Simulates R (cleanupExpired now) (cleanupExpired now) := by
  refine Simulates.bind (fun entries => ?_) h.allEntries
  exact h.removeExpired now entries.entries

theorem Agrees.compareAndStore (clock : MemoryClock) (w : MemoryWrite) :
    Simulates R (compareAndStore clock w) (compareAndStore clock w) := by
  refine Simulates.bind (fun current => ?_) (h.load w.key)
  refine Simulates.bind (fun _ => ?_) (Simulates.ofExcept _)
  refine Simulates.bind (fun _ => ?_) (h.store _)
  exact Simulates.bind (fun _ => Simulates.pure _) (h.appendHistory _ _)

/-- A call other than `get_history`. -/
theorem Agrees.prog {c : MemoryCall} (hc : ∀ key, c ≠ .getHistory key) :
    Simulates R (prog c) (prog c) := by
  cases c with
  | read now key =>
    exact (Simulates.bind (fun _ => h.load key) (h.cleanupExpired now)).map _
  | write clock w =>
    exact (Simulates.bind (fun _ => h.compareAndStore clock w)
      (h.cleanupExpired clock.cleanup)).map _
  | cleanupExpired now => exact (h.cleanupExpired now).map _
  | snapshot now =>
    exact (Simulates.bind (fun _ => h.allEntries) (h.cleanupExpired now)).map _
  | getHistory key => exact absurd rfl (hc key)

end Agrees

/-! ## Without a backend and over one in memory -/

/-- The entries in the object are those of the records in the backend, in the same order. -/
structure FastPath (s s' : SharedMemoryStore InMemorySharedMemoryBackend) : Prop where
  fast : s.backend = none
  slow : ∃ b, s'.backend = some b ∧ s.entries = b.store.mapValues MemoryRecord.toEntry
  history : s.history = s'.history

theorem entriesOf_inMemory (b : InMemorySharedMemoryBackend) :
    entriesOf (listAll b) = b.store.mapValues MemoryRecord.toEntry := by
  refine Dict.ext ?_
  have hnodup : ((∅ : Dict String MemoryEntry).keys ++
      (listAll b).map MemoryRecord.key).Nodup := nodup_listAll b
  rw [entriesOf, Dict.entries_foldl_set _ _ _ _ hnodup]
  show (b.store.entries.map Prod.snd).map _ = b.store.entries.map _
  rw [List.map_map]
  refine List.map_congr_left fun e he => ?_
  have hkey := b.keyed e.1 e.2 (b.store.get?_eq_some_iff.mpr he)
  simp [Prod.map, hkey]

theorem agrees_fastPath : Agrees FastPath where
  current s s' key h := by
    obtain ⟨b, hb, hentries⟩ := h.slow
    simp only [current, h.fast, hb, hentries, Dict.get?_mapValues]
    rfl
  contents s s' h := by
    obtain ⟨b, hb, hentries⟩ := h.slow
    simp only [contents, h.fast, hb, hentries, entriesOf_inMemory]
  stored s s' entry h := by
    obtain ⟨b, hb, hentries⟩ := h.slow
    simp only [stored, h.fast, hb]
    refine ⟨rfl, ⟨_, rfl, ?_⟩, h.history⟩
    rw [hentries]
    exact (Dict.mapValues_set MemoryRecord.toEntry b.store entry.key entry.toRecord).symm
  removed s s' key h := by
    obtain ⟨b, hb, hentries⟩ := h.slow
    simp only [removed, h.fast, hb]
    refine ⟨rfl, ⟨_, rfl, ?_⟩, h.history⟩
    rw [hentries]
    exact (Dict.mapValues_erase MemoryRecord.toEntry b.store key).symm
  appended s s' key version h :=
    ⟨h.fast, h.slow, by simp only [appended, versions, h.history]⟩

theorem call_getHistory {β : Type} [SharedMemoryBackend β] (s : SharedMemoryStore β)
    (key : String) : s.call (.getHistory key) = (.ok (.history (s.versions key)), s) := rfl

theorem FastPath.call {s s' : SharedMemoryStore InMemorySharedMemoryBackend} (h : FastPath s s')
    (c : MemoryCall) : (s.call c).1 = (s'.call c).1 ∧ FastPath (s.call c).2 (s'.call c).2 := by
  by_cases hc : ∀ key, c ≠ .getHistory key
  · exact (agrees_fastPath.prog hc).run () h
  · push Not at hc
    obtain ⟨key, rfl⟩ := hc
    refine ⟨?_, h⟩
    rw [call_getHistory, call_getHistory, versions, versions, h.history]

theorem FastPath.calls : ∀ {s s' : SharedMemoryStore InMemorySharedMemoryBackend}
    (cs : List MemoryCall), FastPath s s' → (s.calls cs).1 = (s'.calls cs).1
  | _, _, [], _ => rfl
  | s, s', c :: cs, h => by
    obtain ⟨hresult, hnext⟩ := h.call c
    rw [SharedMemoryStore.calls, SharedMemoryStore.calls, hresult, FastPath.calls cs hnext]

/-! ## After a restart -/

/-- The stores are on one backend; the first also has what was written before the restart in its
history. -/
structure Restarted {β : Type} (before : String → List ℤ) (s s' : SharedMemoryStore β) : Prop where
  backend : ∃ b, s.backend = some b ∧ s'.backend = some b
  versions : ∀ key, s.versions key = before key ++ s'.versions key

section Restarted

variable {β : Type} [SharedMemoryBackend β] (before : String → List ℤ)

theorem agrees_restarted : Agrees (@Restarted β before) where
  current s s' key h := by
    obtain ⟨b, hb, hb'⟩ := h.backend
    simp only [current, hb, hb']
  contents s s' h := by
    obtain ⟨b, hb, hb'⟩ := h.backend
    simp only [contents, hb, hb']
  stored s s' entry h := by
    obtain ⟨b, hb, hb'⟩ := h.backend
    simp only [stored, hb, hb']
    exact ⟨⟨_, rfl, rfl⟩, h.versions⟩
  removed s s' key h := by
    obtain ⟨b, hb, hb'⟩ := h.backend
    simp only [removed, hb, hb']
    exact ⟨⟨_, rfl, rfl⟩, h.versions⟩
  appended s s' key version h := by
    refine ⟨h.backend, fun key' => ?_⟩
    rw [versions_appended, versions_appended]
    split_ifs with hkey
    · rw [h.versions, List.append_assoc, hkey]
    · exact h.versions key'

/-- A call answers alike on both stores, but for the history from before the restart. -/
def SameButHistory : MemoryCall × Except VersionConflictError MemoryResult →
    MemoryCall × Except VersionConflictError MemoryResult → Prop
  | (.getHistory key, r), (c', r') => c' = .getHistory key ∧
      ∃ l, r = .ok (.history (before key ++ l)) ∧ r' = .ok (.history l)
  | (c, r), (c', r') => c = c' ∧ r = r'

variable {before}

theorem Restarted.call {s s' : SharedMemoryStore β} (h : Restarted before s s') (c : MemoryCall) :
    SameButHistory before (c, (s.call c).1) (c, (s'.call c).1) ∧
      Restarted before (s.call c).2 (s'.call c).2 := by
  by_cases hc : ∀ key, c ≠ .getHistory key
  · obtain ⟨hresult, hnext⟩ := ((agrees_restarted before).prog hc).run () h
    refine ⟨?_, hnext⟩
    cases c with
    | getHistory key => exact absurd rfl (hc key)
    | _ => exact ⟨rfl, hresult⟩
  · push Not at hc
    obtain ⟨key, rfl⟩ := hc
    rw [call_getHistory, call_getHistory, h.versions key]
    exact ⟨⟨rfl, _, rfl, rfl⟩, h⟩

theorem Restarted.calls : ∀ {s s' : SharedMemoryStore β} (cs : List MemoryCall),
    Restarted before s s' → List.Forall₂ (SameButHistory before) (s.calls cs).1 (s'.calls cs).1 ∧
      Restarted before (s.calls cs).2 (s'.calls cs).2
  | _, _, [], h => ⟨List.Forall₂.nil, h⟩
  | s, s', c :: cs, h => by
    obtain ⟨hresult, hnext⟩ := h.call c
    obtain ⟨hresults, hlast⟩ := Restarted.calls cs hnext
    exact ⟨List.Forall₂.cons hresult hresults, hlast⟩

end Restarted

end SharedMemoryStore

/-- A store without a backend and one over a fresh backend in memory give equal results at every
call, of removed keys and snapshots in the same order too. -/
theorem fastPath_results_eq (cs : List MemoryCall) :
    (({} : SharedMemoryStore InMemorySharedMemoryBackend).calls cs).1
      = (({ backend := some {} } : SharedMemoryStore InMemorySharedMemoryBackend).calls cs).1 :=
  SharedMemoryStore.FastPath.calls cs ⟨rfl, ⟨{}, rfl, rfl⟩, rfl⟩

/-- After any calls, a new store on the backend answers every later call as the old one does; to
`get_history` the old one also has the versions it wrote before. -/
theorem restart_same_but_history {β : Type} [SharedMemoryBackend β] (b : β)
    (before later : List MemoryCall) :
    let old := (({ backend := some b } : SharedMemoryStore β).calls before).2
    List.Forall₂ (SharedMemoryStore.SameButHistory old.versions) (old.calls later).1
      (({ backend := old.backend } : SharedMemoryStore β).calls later).1 := by
  intro old
  have hstart : SharedMemoryStore.Restarted (fun _ => []) ({ backend := some b } :
      SharedMemoryStore β) { backend := some b } := ⟨⟨b, rfl, rfl⟩, fun _ => rfl⟩
  obtain ⟨b', hold, -⟩ := (hstart.calls before).2.backend
  have hrestart : SharedMemoryStore.Restarted old.versions old
      ({ backend := old.backend } : SharedMemoryStore β) :=
    ⟨⟨b', hold, hold⟩, fun key => (List.append_nil _).symm⟩
  exact (hrestart.calls later).1

/-- The history of a key is empty in a new store on the database. -/
theorem history_lost_at_restart :
    let w : MemoryWrite := { key := "k", value := .null, writerRole := "a" }
    let old := (({ backend := some {} } : SharedMemoryStore SQLiteSharedMemoryBackend).calls
      [.write (.at 0) w]).2
    let new : SharedMemoryStore SQLiteSharedMemoryBackend := { backend := old.backend }
    (old.call (.getHistory "k")).1 = .ok (.history [1]) ∧
      (new.call (.getHistory "k")).1 = .ok (.history []) :=
  ⟨rfl, rfl⟩

end AgentLearning
