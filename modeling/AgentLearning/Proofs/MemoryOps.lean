import Mathlib.Tactic.SplitIfs
import AgentLearning.SharedMemory

/-!
# What the operations of the shared memory do

One lemma for each operation: what it returns and the store it leaves, over the entry of each key
(`current`), whether there is a backend or not. A cleanup takes out the entries that are over and
nothing else (`current_cleaned`).
-/

namespace AgentLearning

@[simp]
theorem MemoryEntry.toEntry_toRecord (entry : MemoryEntry) : entry.toRecord.toEntry = entry := rfl

theorem MemoryWrite.checkVersion_ok {w : MemoryWrite} {current : Option MemoryEntry}
    (h : w.checkVersion current = .ok ()) {n : ℤ} (hn : w.expectedVersion = some n) :
    current.elim 0 MemoryEntry.version = n := by
  simp only [checkVersion, hn] at h
  split_ifs at h with hne
  exact not_not.mp hne

/-- An entry that is written has a greater version than the write expected. -/
theorem MemoryWrite.lt_version_entry {w : MemoryWrite} {current : Option MemoryEntry}
    (h : w.checkVersion current = .ok ()) {n : ℤ} (hn : w.expectedVersion = some n)
    (clock : MemoryClock) : n < (w.entry clock current).version := by
  rw [← checkVersion_ok h hn]
  unfold MemoryWrite.entry
  cases current with
  | none => simp
  | some found =>
    show found.version < found.version + 1
    omega

namespace SharedMemoryStore

open SharedMemoryBackend

variable {β : Type} [SharedMemoryBackend β] (s : SharedMemoryStore β)

/-- The entry of a key. -/
def current (key : String) : Option MemoryEntry :=
  match s.backend with
  | some b => (get b key).map MemoryRecord.toEntry
  | none => s.entries.get? key

/-- The entries in the order they are listed in. -/
def contents : Dict String MemoryEntry :=
  match s.backend with
  | some b => entriesOf (listAll b)
  | none => s.entries

/-- The store after an entry was stored. -/
def stored (entry : MemoryEntry) : SharedMemoryStore β :=
  match s.backend with
  | some b => { s with backend := some (put b entry.toRecord) }
  | none => { s with entries := s.entries.set entry.key entry }

/-- The store after a key was removed. -/
def removed (key : String) : SharedMemoryStore β :=
  match s.backend with
  | some b => { s with backend := some (delete b key).2 }
  | none => { s with entries := s.entries.erase key }

/-- The versions this store has written under a key. -/
def versions (key : String) : List ℤ := (s.history.get? key).getD []

/-- The store after a version was appended to the history of a key. -/
def appended (key : String) (version : ℤ) : SharedMemoryStore β :=
  { s with history := s.history.set key (s.versions key ++ [version]) }

/-- The keys of the entries that are over. -/
def expiredKeys (now : ℚ) : List String :=
  (s.contents.entries.filter fun e => e.2.expired now).map Prod.fst

/-- The store after a cleanup. -/
def cleaned (now : ℚ) : SharedMemoryStore β := (s.expiredKeys now).foldl removed s

theorem get?_entriesOf (b : β) (key : String) :
    (entriesOf (listAll b)).get? key = (get b key).map MemoryRecord.toEntry := by
  by_cases hmem : key ∈ (listAll b).map MemoryRecord.key
  · obtain ⟨r, hr, rfl⟩ := List.mem_map.mp hmem
    rw [entriesOf, Dict.get?_foldl_set_of_mem _ _ _ _ (nodup_listAll b) hr,
      (mem_listAll b r).mp hr]
    rfl
  · rw [entriesOf, Dict.get?_foldl_set_of_notMem _ _ _ _ hmem]
    rcases hget : get b key with _ | r
    · rfl
    · obtain rfl := key_of_get hget
      exact absurd (List.mem_map_of_mem ((mem_listAll b r).mpr hget)) hmem

theorem get?_contents (key : String) : s.contents.get? key = s.current key := by
  unfold contents current
  rcases s.backend with _ | b
  · rfl
  · exact get?_entriesOf b key

theorem current_stored (entry : MemoryEntry) (key : String) :
    (s.stored entry).current key = if entry.key = key then some entry else s.current key := by
  unfold stored current
  rcases s.backend with _ | b
  · simp only [Dict.get?_set]
  · simp only [get_put, MemoryEntry.toRecord]
    split_ifs <;> rfl

theorem current_removed (key key' : String) :
    (s.removed key).current key' = if key = key' then none else s.current key' := by
  unfold removed current
  rcases s.backend with _ | b
  · simp only [Dict.get?_erase]
  · simp only [get_delete]
    split_ifs <;> rfl

theorem current_foldl_removed (key : String) : ∀ (keys : List String) (s : SharedMemoryStore β),
    (keys.foldl removed s).current key = if key ∈ keys then none else s.current key
  | [], s => by simp
  | k :: keys, s => by
    rw [List.foldl_cons, current_foldl_removed key keys, current_removed]
    by_cases hk : k = key
    · simp [hk]
    · simp [hk, Ne.symm hk]

theorem mem_expiredKeys {now : ℚ} {key : String} :
    key ∈ s.expiredKeys now ↔ ∃ entry, s.current key = some entry ∧ entry.expired now := by
  simp only [expiredKeys, List.mem_map, List.mem_filter, ← get?_contents, Dict.get?_eq_some_iff]
  constructor
  · rintro ⟨⟨k, entry⟩, h, rfl⟩
    exact ⟨entry, h⟩
  · rintro ⟨entry, h⟩
    exact ⟨(key, entry), h, rfl⟩

theorem current_cleaned (now : ℚ) (key : String) :
    (s.cleaned now).current key = (s.current key).filter fun entry => !entry.expired now := by
  rw [cleaned, current_foldl_removed]
  by_cases hmem : key ∈ s.expiredKeys now
  · obtain ⟨entry, hcur, hexp⟩ := s.mem_expiredKeys.mp hmem
    simp [hmem, hcur, hexp, Option.filter_some]
  · rw [if_neg hmem]
    rcases hcur : s.current key with _ | entry
    · rfl
    · have hexp : entry.expired now = false := by
        by_contra h
        exact hmem (s.mem_expiredKeys.mpr ⟨entry, hcur, by simpa using h⟩)
      simp [hexp, Option.filter_some]

@[simp]
theorem history_stored (entry : MemoryEntry) : (s.stored entry).history = s.history := by
  unfold stored
  rcases s.backend with _ | b <;> rfl

@[simp]
theorem history_removed (key : String) : (s.removed key).history = s.history := by
  unfold removed
  rcases s.backend with _ | b <;> rfl

@[simp]
theorem history_cleaned (now : ℚ) : (s.cleaned now).history = s.history := by
  have h : ∀ (keys : List String) (s : SharedMemoryStore β),
      (keys.foldl removed s).history = s.history := by
    intro keys
    induction keys with
    | nil => intro s; rfl
    | cons k keys ih =>
      intro s
      rw [List.foldl_cons, ih, history_removed]
  exact h _ s

@[simp]
theorem current_appended (key : String) (version : ℤ) (key' : String) :
    (s.appended key version).current key' = s.current key' := rfl

omit [SharedMemoryBackend β] in
theorem versions_appended (key : String) (version : ℤ) (key' : String) :
    (s.appended key version).versions key'
      = if key = key' then s.versions key ++ [version] else s.versions key' := by
  unfold appended
  rw [versions, Dict.get?_set]
  split_ifs <;> rfl

/-! ## The programs -/

theorem run_load (key : String) : (load key).run () s = (.ok (s.current key), s) := rfl

theorem run_allEntries : allEntries.run () s = (.ok s.contents, s) := rfl

theorem run_store (entry : MemoryEntry) : (store entry).run () s = (.ok (), s.stored entry) := rfl

theorem run_remove (key : String) : (remove key).run () s = (.ok (), s.removed key) := rfl

omit [SharedMemoryBackend β] in
theorem run_appendHistory (key : String) (version : ℤ) :
    (appendHistory key version).run () s = (.ok (), s.appended key version) := rfl

theorem run_removeExpired (now : ℚ) : ∀ (l : List (String × MemoryEntry)) (s : SharedMemoryStore β),
    (removeExpired now l).run () s =
      (.ok ((l.filter fun e => e.2.expired now).map Prod.fst),
        ((l.filter fun e => e.2.expired now).map Prod.fst).foldl removed s)
  | [], s => rfl
  | (key, entry) :: rest, s => by
    rw [removeExpired]
    by_cases h : entry.expired now
    · rw [if_pos h, Prog.run_bind, run_remove]
      simp only [Prog.run_bind, run_removeExpired now rest, Prog.run_pure]
      simp [h]
    · rw [if_neg h, run_removeExpired now rest]
      simp [h]

theorem run_cleanupExpired (now : ℚ) :
    (cleanupExpired now).run () s = (.ok (s.expiredKeys now), s.cleaned now) := by
  rw [cleanupExpired, Prog.run_bind, run_allEntries]
  exact run_removeExpired now _ s

theorem run_read (now : ℚ) (key : String) :
    (read now key).run () s = (.ok ((s.cleaned now).current key), s.cleaned now) := by
  rw [read, Prog.run_bind, run_cleanupExpired]
  rfl

theorem run_snapshot (now : ℚ) :
    (snapshot now).run () s = (.ok (s.cleaned now).contents, s.cleaned now) := by
  rw [snapshot, Prog.run_bind, run_cleanupExpired]
  rfl

theorem run_write (clock : MemoryClock) (w : MemoryWrite) :
    (write clock w).run () s =
      let s₁ := s.cleaned clock.cleanup
      let entry := w.entry clock (s₁.current w.key)
      match w.checkVersion (s₁.current w.key) with
      | .error e => (.error e, s₁)
      | .ok () => (.ok entry, (s₁.stored entry).appended w.key entry.version) := by
  rw [write, Prog.run_bind, run_cleanupExpired]
  simp only [compareAndStore, Prog.run_bind, run_load, Prog.run_ofExcept]
  rcases w.checkVersion ((s.cleaned clock.cleanup).current w.key) with e | _
  · rfl
  · simp only [run_store, run_appendHistory, Prog.run_pure]

end SharedMemoryStore

end AgentLearning
