import Mathlib.Tactic.Linarith
import AgentLearning.Lib.Trace
import AgentLearning.Proofs.MemoryOps

/-!
# Versions of one store

Over any calls of one store, the versions written under a key are the history of the key, and the
entry there has the last of them. They increase until the key is written again after its entry is
over, when they begin at one again.
-/

namespace AgentLearning

/-! ## What a trace of calls says -/

abbrev MemoryTrace := List (MemoryCall × Except VersionConflictError MemoryResult)

/-- The version a call wrote under a key. -/
def wrote? (key : String) : MemoryCall × Except VersionConflictError MemoryResult → Option ℤ
  | (.write _ w, .ok (.written entry)) => if w.key = key then some entry.version else none
  | _ => none

/-- The version of a key that the caller sees in the result of a read or a write. -/
def observed? (key : String) : MemoryCall × Except VersionConflictError MemoryResult → Option ℤ
  | (.read _ k, .ok (.entry (some entry))) => if k = key then some entry.version else none
  | call => wrote? key call

def writtenVersions (key : String) (trace : MemoryTrace) : List ℤ := trace.filterMap (wrote? key)

/-- The versions written under a key increase, and a write that expects a version the caller saw
does not succeed if the key was written since. -/
structure NeverRepeats (trace : MemoryTrace) : Prop where
  increasing : ∀ key, (writtenVersions key trace).Pairwise (· < ·)
  compareAndSet : ∀ l₁ seen l₂ clock w entry l₃ n,
    trace = l₁ ++ seen :: l₂ ++ (.write clock w, .ok (.written entry)) :: l₃ →
      observed? w.key seen = some n → w.expectedVersion = some n → writtenVersions w.key l₂ = []

namespace SharedMemoryStore

variable {β : Type} [SharedMemoryBackend β] {s : SharedMemoryStore β}

/-- A write that begins a key again: the store has written it before, what was written is over or
gone, and the write expects no version, or expects that there is none. -/
def Restarts (s : SharedMemoryStore β) : MemoryCall → Prop
  | .write clock w => s.versions w.key ≠ [] ∧
      (∀ entry, s.current w.key = some entry → entry.expired clock.cleanup) ∧
      (w.expectedVersion = none ∨ w.expectedVersion = some 0)
  | _ => False

/-- Versions begin at one, and an entry has the last version of its key. -/
structure Versioned (s : SharedMemoryStore β) : Prop where
  positive : ∀ key, ∀ v ∈ s.versions key, 1 ≤ v
  last : ∀ key entry, s.current key = some entry →
    (s.versions key).getLast? = some entry.version

def Increasing (s : SharedMemoryStore β) : Prop := ∀ key, (s.versions key).Pairwise (· < ·)

/-! ## One call -/

/-- The entry a write makes if it passes its check. -/
def nextEntry (s : SharedMemoryStore β) (clock : MemoryClock) (w : MemoryWrite) : MemoryEntry :=
  w.entry clock ((s.cleaned clock.cleanup).current w.key)

/-- The store after a write that passed its check. -/
def written (s : SharedMemoryStore β) (clock : MemoryClock) (w : MemoryWrite) :
    SharedMemoryStore β :=
  ((s.cleaned clock.cleanup).stored (s.nextEntry clock w)).appended w.key
    (s.nextEntry clock w).version

/-- A call is a write that passes its check and makes an entry, or it writes nothing and at most
cleans up. -/
theorem call_cases (s : SharedMemoryStore β) (c : MemoryCall) :
    (∃ clock w, c = .write clock w ∧
      w.checkVersion ((s.cleaned clock.cleanup).current w.key) = .ok () ∧
      s.call c = (.ok (.written (s.nextEntry clock w)), s.written clock w)) ∨
    ((s.call c).2 = s ∨ ∃ now, (s.call c).2 = s.cleaned now) ∧
      ∀ key, wrote? key (c, (s.call c).1) = none := by
  cases c with
  | read now key =>
    rw [call, prog, Prog.run_map, run_read]
    exact .inr ⟨.inr ⟨now, rfl⟩, fun _ => rfl⟩
  | write clock w =>
    rw [call, prog, Prog.run_map, run_write]
    simp only
    rcases hcheck : w.checkVersion ((s.cleaned clock.cleanup).current w.key) with e | _
    · exact .inr ⟨.inr ⟨clock.cleanup, rfl⟩, fun _ => rfl⟩
    · exact .inl ⟨clock, w, rfl, hcheck, rfl⟩
  | cleanupExpired now =>
    rw [call, prog, Prog.run_map, run_cleanupExpired]
    exact .inr ⟨.inr ⟨now, rfl⟩, fun _ => rfl⟩
  | snapshot now =>
    rw [call, prog, Prog.run_map, run_snapshot]
    exact .inr ⟨.inr ⟨now, rfl⟩, fun _ => rfl⟩
  | getHistory key => exact .inr ⟨.inl rfl, fun _ => rfl⟩

theorem versions_cleaned (now : ℚ) (key : String) :
    (s.cleaned now).versions key = s.versions key := by
  rw [versions, history_cleaned, versions]

theorem versions_written (clock : MemoryClock) (w : MemoryWrite) (key : String) :
    (s.written clock w).versions key
      = if w.key = key then s.versions key ++ [(s.nextEntry clock w).version]
        else s.versions key := by
  have hstored : ∀ k, ((s.cleaned clock.cleanup).stored (s.nextEntry clock w)).versions k
      = s.versions k := by
    intro k
    rw [versions, history_stored, history_cleaned, versions]
  rw [written, versions_appended, hstored, hstored]
  split_ifs with hk
  · rw [hk]
  · rfl

theorem current_written (clock : MemoryClock) (w : MemoryWrite) (key : String) :
    (s.written clock w).current key
      = if w.key = key then some (s.nextEntry clock w)
        else (s.cleaned clock.cleanup).current key := by
  rw [written, current_appended, current_stored]
  rfl

/-- An entry is written on top of the last version of its key, or it has version one. -/
theorem Versioned.nextEntry (h : s.Versioned) (clock : MemoryClock) (w : MemoryWrite) :
    (∃ last, (s.versions w.key).getLast? = some last ∧
      (s.nextEntry clock w).version = last + 1) ∨
    (s.cleaned clock.cleanup).current w.key = none ∧ (s.nextEntry clock w).version = 1 := by
  rcases hcur : (s.cleaned clock.cleanup).current w.key with _ | entry
  · exact .inr ⟨rfl, by rw [SharedMemoryStore.nextEntry, hcur]; rfl⟩
  · have hold := current_cleaned s clock.cleanup w.key
    rw [hcur, eq_comm, Option.filter_eq_some_iff] at hold
    refine .inl ⟨entry.version, h.last _ _ hold.1, ?_⟩
    rw [SharedMemoryStore.nextEntry, hcur]
    rfl

theorem Versioned.one_le_nextEntry (h : s.Versioned) (clock : MemoryClock) (w : MemoryWrite) :
    1 ≤ (s.nextEntry clock w).version := by
  rcases h.nextEntry clock w with ⟨last, hlast, hv⟩ | ⟨-, hv⟩
  · have := h.positive _ last (List.mem_of_getLast? hlast)
    omega
  · omega

theorem Versioned.cleaned (h : s.Versioned) (now : ℚ) : (s.cleaned now).Versioned where
  positive key := by
    rw [versions_cleaned]
    exact h.positive key
  last key entry hcur := by
    rw [current_cleaned, Option.filter_eq_some_iff] at hcur
    rw [versions_cleaned]
    exact h.last key entry hcur.1

theorem Versioned.written (h : s.Versioned) (clock : MemoryClock) (w : MemoryWrite) :
    (s.written clock w).Versioned where
  positive key v hv := by
    rw [versions_written] at hv
    split_ifs at hv
    · rcases List.mem_append.mp hv with hold | hnew
      · exact h.positive key v hold
      · rw [List.mem_singleton.mp hnew]
        exact h.one_le_nextEntry clock w
    · exact h.positive key v hv
  last key entry hcur := by
    rw [current_written] at hcur
    rw [versions_written]
    split_ifs at hcur ⊢
    · cases hcur
      simp
    · rw [← versions_cleaned clock.cleanup]
      exact (h.cleaned clock.cleanup).last key entry hcur

theorem Versioned.call (h : s.Versioned) (c : MemoryCall) : (s.call c).2.Versioned := by
  rcases s.call_cases c with ⟨clock, w, rfl, -, hcall⟩ | ⟨hsame | ⟨now, hclean⟩, -⟩
  · rw [hcall]
    exact h.written clock w
  · rwa [hsame]
  · rw [hclean]
    exact h.cleaned now

theorem versions_call (s : SharedMemoryStore β) (c : MemoryCall) (key : String) :
    (s.call c).2.versions key = s.versions key ++ (wrote? key (c, (s.call c).1)).toList := by
  rcases s.call_cases c with ⟨clock, w, rfl, -, hcall⟩ | ⟨hsame | ⟨now, hclean⟩, hnone⟩
  · rw [hcall, versions_written, wrote?]
    split_ifs <;> simp
  · rw [hnone, hsame]
    simp
  · rw [hnone, hclean, versions_cleaned]
    simp

theorem current_cleaned_eq_none_iff {now : ℚ} {key : String} :
    (s.cleaned now).current key = none ↔
      ∀ entry, s.current key = some entry → entry.expired now := by
  rw [current_cleaned, Option.filter_eq_none_iff]
  simp

/-- A write that begins a key again passes its check. -/
theorem Restarts.call {clock : MemoryClock} {w : MemoryWrite} (h : s.Restarts (.write clock w)) :
    s.call (.write clock w) = (.ok (.written (s.nextEntry clock w)), s.written clock w) := by
  obtain ⟨-, hover, hexpected⟩ := h
  have hnone := current_cleaned_eq_none_iff.mpr hover
  have hcheck : w.checkVersion ((s.cleaned clock.cleanup).current w.key) = .ok () := by
    rw [hnone]
    rcases hexpected with hexpected | hexpected <;> simp [MemoryWrite.checkVersion, hexpected]
  rw [SharedMemoryStore.call, prog, Prog.run_map, run_write]
  simp only [hcheck]
  rfl

theorem le_of_getLast? {l : List ℤ} {last : ℤ} (hl : l.Pairwise (· < ·))
    (hlast : l.getLast? = some last) {a : ℤ} (ha : a ∈ l) : a ≤ last := by
  obtain ⟨l', rfl⟩ := List.getLast?_eq_some_iff.mp hlast
  rcases List.mem_append.mp ha with hold | hnew
  · exact le_of_lt ((pairwise_append_singleton.mp hl).2 a hold)
  · exact le_of_eq (List.mem_singleton.mp hnew)

theorem Versioned.increasing_written (h : s.Versioned) (hinc : s.Increasing) {clock : MemoryClock}
    {w : MemoryWrite} (hcheck : w.checkVersion ((s.cleaned clock.cleanup).current w.key) = .ok ())
    (hnot : ¬ s.Restarts (.write clock w)) : (s.written clock w).Increasing := by
  intro key
  rw [versions_written]
  split_ifs with hkey
  · subst hkey
    refine pairwise_append_singleton.mpr ⟨hinc _, fun a ha => ?_⟩
    rcases h.nextEntry clock w with ⟨last, hlast, hv⟩ | ⟨hnone, -⟩
    · have := le_of_getLast? (hinc _) hlast ha
      omega
    · refine absurd ⟨List.ne_nil_of_mem ha, current_cleaned_eq_none_iff.mp hnone, ?_⟩ hnot
      rcases hexpected : w.expectedVersion with _ | n
      · exact .inl rfl
      · have hn := MemoryWrite.checkVersion_ok hcheck hexpected
        rw [hnone] at hn
        exact .inr (congrArg some hn.symm)
  · exact hinc key

/-- The versions stay increasing exactly if the call does not begin a key again. -/
theorem Versioned.increasing_call_iff (h : s.Versioned) (hinc : s.Increasing) (c : MemoryCall) :
    (s.call c).2.Increasing ↔ ¬ s.Restarts c := by
  constructor
  · intro hinc' hrestarts
    cases c with
    | write clock w =>
      have hkey := hinc' w.key
      rw [hrestarts.call, versions_written, if_pos rfl, pairwise_append_singleton] at hkey
      obtain ⟨hwritten, hover, -⟩ := hrestarts
      obtain ⟨a, ha⟩ := List.exists_mem_of_ne_nil _ hwritten
      have hfirst : (s.nextEntry clock w).version = 1 := by
        rw [SharedMemoryStore.nextEntry, current_cleaned_eq_none_iff.mpr hover]
        rfl
      have := hkey.2 a ha
      have := h.positive _ a ha
      omega
    | _ => exact hrestarts
  · intro hnot
    rcases s.call_cases c with ⟨clock, w, rfl, hcheck, hcall⟩ | ⟨-, hnone⟩
    · rw [hcall]
      exact h.increasing_written hinc hcheck hnot
    · intro key
      rw [versions_call, hnone]
      simpa using hinc key

/-! ## A run -/

theorem versions_calls (key : String) : ∀ (s : SharedMemoryStore β) (cs : List MemoryCall),
    (s.calls cs).2.versions key = s.versions key ++ writtenVersions key (s.calls cs).1
  | s, [] => by simp [calls, writtenVersions]
  | s, c :: cs => by
    rw [calls, versions_calls key _ cs, versions_call, writtenVersions, writtenVersions,
      List.filterMap_cons]
    rcases wrote? key (c, (s.call c).1) with _ | v <;> simp

theorem Versioned.calls : ∀ {s : SharedMemoryStore β} (cs : List MemoryCall), s.Versioned →
    (s.calls cs).2.Versioned
  | _, [], h => h
  | _, c :: cs, h => Versioned.calls cs (h.call c)

/-- The versions are increasing after the calls exactly if none of them begins a key again. -/
theorem Versioned.increasing_calls_iff : ∀ {s : SharedMemoryStore β} (cs : List MemoryCall),
    s.Versioned → s.Increasing → ((s.calls cs).2.Increasing ↔
      ∀ cs₁ c cs₂, cs = cs₁ ++ c :: cs₂ → ¬ (s.calls cs₁).2.Restarts c)
  | s, [], h, hinc => by
    refine ⟨fun _ cs₁ c cs₂ hcs => ?_, fun _ => hinc⟩
    simp at hcs
  | s, c :: cs, h, hinc => by
    constructor
    · intro hfinal cs₁ c' cs₂ hcs
      have hinc' : (s.call c).2.Increasing := fun key => by
        have hkey := hfinal key
        rw [SharedMemoryStore.calls, versions_calls] at hkey
        exact hkey.sublist (List.sublist_append_left _ _)
      cases cs₁ with
      | nil =>
        cases hcs
        exact (h.increasing_call_iff hinc c).mp hinc'
      | cons c₁ cs₁ =>
        cases hcs
        exact (Versioned.increasing_calls_iff _ (h.call c) hinc').mp hfinal cs₁ c' cs₂ rfl
    · intro hnot
      have hinc' := (h.increasing_call_iff hinc c).mpr (hnot [] c cs rfl)
      exact (Versioned.increasing_calls_iff cs (h.call c) hinc').mpr
        fun cs₁ c' cs₂ hcs => hnot (c :: cs₁) c' cs₂ (by rw [hcs, List.cons_append])

theorem calls_append_inv : ∀ {s : SharedMemoryStore β} {cs : List MemoryCall} {l₁ l₂ : MemoryTrace},
    (s.calls cs).1 = l₁ ++ l₂ → ∃ cs₁ cs₂, cs = cs₁ ++ cs₂ ∧ (s.calls cs₁).1 = l₁ ∧
      ((s.calls cs₁).2.calls cs₂).1 = l₂ ∧ (s.calls cs).2 = ((s.calls cs₁).2.calls cs₂).2
  | s, cs, [], l₂, h => ⟨[], cs, rfl, rfl, h, rfl⟩
  | s, [], e :: l₁, l₂, h => by cases h
  | s, c :: cs, e :: l₁, l₂, h => by
    rw [calls, List.cons_append, List.cons.injEq] at h
    obtain ⟨rfl, htail⟩ := h
    obtain ⟨cs₁, cs₂, rfl, hl₁, hl₂, hfinal⟩ := calls_append_inv htail
    refine ⟨c :: cs₁, cs₂, rfl, ?_, hl₂, hfinal⟩
    rw [calls, hl₁]

theorem calls_cons_inv {cs : List MemoryCall} {e : MemoryCall × Except VersionConflictError
    MemoryResult} {l : MemoryTrace} (h : (s.calls cs).1 = e :: l) :
    ∃ cs', cs = e.1 :: cs' ∧ (s.call e.1).1 = e.2 ∧ ((s.call e.1).2.calls cs').1 = l ∧
      (s.calls cs).2 = ((s.call e.1).2.calls cs').2 := by
  cases cs with
  | nil => cases h
  | cons c cs =>
    rw [calls, List.cons.injEq] at h
    obtain ⟨rfl, htail⟩ := h
    exact ⟨cs, rfl, rfl, htail, rfl⟩

/-- The version a caller sees is the last one of its key. -/
theorem Versioned.getLast?_of_observed (h : s.Versioned) {c : MemoryCall} {key : String} {n : ℤ}
    (hseen : observed? key (c, (s.call c).1) = some n) :
    ((s.call c).2.versions key).getLast? = some n := by
  have hwrote : wrote? key (c, (s.call c).1) = some n →
      ((s.call c).2.versions key).getLast? = some n := by
    intro hw
    rw [versions_call, hw]
    simp
  cases c with
  | read now k =>
    have hcall : s.call (.read now k)
        = (.ok (.entry ((s.cleaned now).current k)), s.cleaned now) := by
      rw [SharedMemoryStore.call, prog, Prog.run_map, run_read]
      rfl
    rw [hcall] at hseen ⊢
    rcases hcur : (s.cleaned now).current k with _ | entry
    · simp [hcur, observed?, wrote?] at hseen
    · simp only [hcur, observed?] at hseen
      split_ifs at hseen with hk
      cases hseen
      rw [← hk]
      exact (h.cleaned now).last k entry hcur
  | _ => exact hwrote hseen

/-- A write that expects a version and succeeds finds it to be the last one. -/
theorem Versioned.getLast?_of_expected (h : s.Versioned) {clock : MemoryClock} {w : MemoryWrite}
    {entry : MemoryEntry} {n : ℤ} (hok : (s.call (.write clock w)).1 = .ok (.written entry))
    (hexpected : w.expectedVersion = some n) (hn : 1 ≤ n) :
    (s.versions w.key).getLast? = some n := by
  rcases s.call_cases (.write clock w) with ⟨_, _, hwrite, hcheck, -⟩ | ⟨-, hnone⟩
  · cases hwrite
    have hactual := MemoryWrite.checkVersion_ok hcheck hexpected
    rcases hcur : (s.cleaned clock.cleanup).current w.key with _ | found
    · rw [hcur, Option.elim_none] at hactual
      omega
    · rw [hcur, Option.elim_some] at hactual
      rw [← versions_cleaned clock.cleanup, ← hactual]
      exact (h.cleaned clock.cleanup).last _ _ hcur
  · have hkey := hnone w.key
    rw [hok, wrote?, if_pos rfl] at hkey
    cases hkey

theorem eq_nil_of_getLast?_append {l l' : List ℤ} {n : ℤ} (hinc : (l ++ l').Pairwise (· < ·))
    (hl : l.getLast? = some n) (hlast : (l ++ l').getLast? = some n) : l' = [] := by
  rcases List.eq_nil_or_concat l' with rfl | ⟨init, last, rfl⟩
  · rfl
  · obtain rfl : last = n := by simpa [List.concat_eq_append] using hlast
    have hlt := (List.pairwise_append.mp hinc).2.2 last (List.mem_of_getLast? hl) last (by simp)
    exact absurd hlt (lt_irrefl last)

/-- As long as the versions increase, a write that expects a version the caller saw finds the key
as it was then. -/
theorem Versioned.compareAndSet (h : s.Versioned) {cs : List MemoryCall}
    (hinc : (s.calls cs).2.Increasing) {l₁ l₂ l₃ : MemoryTrace}
    {seen : MemoryCall × Except VersionConflictError MemoryResult} {clock : MemoryClock}
    {w : MemoryWrite} {entry : MemoryEntry} {n : ℤ}
    (htrace : (s.calls cs).1 = l₁ ++ seen :: l₂ ++ (.write clock w, .ok (.written entry)) :: l₃)
    (hseen : observed? w.key seen = some n) (hexpected : w.expectedVersion = some n) :
    writtenVersions w.key l₂ = [] := by
  rw [List.append_assoc] at htrace
  obtain ⟨cs₁, cs', rfl, -, hrest, hfinal⟩ := calls_append_inv htrace
  obtain ⟨cs'', rfl, hresult, hrest, hfinal₁⟩ := calls_cons_inv hrest
  obtain ⟨cs₂, cs₃, rfl, rfl, hrest, hfinal₂⟩ := calls_append_inv hrest
  obtain ⟨cs₄, rfl, hok, -, hfinal₃⟩ := calls_cons_inv hrest
  have h₁ := h.calls cs₁
  have h₂ := h₁.call seen.1
  have hlast : (((s.calls cs₁).2.call seen.1).2.versions w.key).getLast? = some n :=
    h₁.getLast?_of_observed (by rw [hresult]; exact hseen)
  have hn : 1 ≤ n := h₂.positive _ n (List.mem_of_getLast? hlast)
  have hfound := (h₂.calls cs₂).getLast?_of_expected hok hexpected hn
  have hkey := hinc w.key
  rw [hfinal, hfinal₁, hfinal₂, hfinal₃, versions_calls, versions_call] at hkey
  have hprefix := (hkey.sublist (List.sublist_append_left _ _)).sublist
    (List.sublist_append_left _ _)
  rw [versions_calls] at hprefix hfound
  exact eq_nil_of_getLast?_append hprefix hlast hfound

end SharedMemoryStore

/-- Over every run of a store that begins empty, with or without a backend and whatever the clock
reads: the versions never repeat exactly if no write begins a key again after its entry is over. -/
theorem neverRepeats_iff_not_restarts {β : Type} [SharedMemoryBackend β] (backend : Option β)
    (hempty : ∀ b ∈ backend, ∀ key, SharedMemoryBackend.get b key = none)
    (cs : List MemoryCall) :
    NeverRepeats (({ backend } : SharedMemoryStore β).calls cs).1 ↔
      ∀ cs₁ c cs₂, cs = cs₁ ++ c :: cs₂ →
        ¬ (({ backend } : SharedMemoryStore β).calls cs₁).2.Restarts c := by
  have hcurrent : ∀ key, ({ backend } : SharedMemoryStore β).current key = none := by
    intro key
    rcases backend with _ | b
    · rfl
    · exact congrArg (Option.map MemoryRecord.toEntry) (hempty b rfl key)
  have h : ({ backend } : SharedMemoryStore β).Versioned := by
    refine ⟨fun key v hv => ?_, fun key entry hcur => ?_⟩
    · cases hv
    · rw [hcurrent] at hcur
      cases hcur
  have hinc : ({ backend } : SharedMemoryStore β).Increasing := fun _ => List.Pairwise.nil
  have hversions : ∀ key, (({ backend } : SharedMemoryStore β).calls cs).2.versions key
      = writtenVersions key (({ backend } : SharedMemoryStore β).calls cs).1 := by
    intro key
    rw [SharedMemoryStore.versions_calls]
    rfl
  rw [← h.increasing_calls_iff cs hinc]
  constructor
  · intro hnever key
    rw [hversions]
    exact hnever.increasing key
  · intro hfinal
    refine ⟨fun key => ?_, fun l₁ seen l₂ clock w entry l₃ n htrace hseen hexpected => ?_⟩
    · rw [← hversions]
      exact hfinal key
    · exact h.compareAndSet hfinal htrace hseen hexpected

/-- A write, a read of its entry, and a compare-and-set with what it saw, in a database. -/
theorem neverRepeats_iff_not_restarts_sqlite :
    let cs : List MemoryCall :=
      [.write (.at 0) { key := "k", value := .null, writerRole := "a", ttlSeconds := some 9 },
        .read 1 "k",
        .write (.at 2) { key := "k", value := .null, writerRole := "a", expectedVersion := some 1 }]
    NeverRepeats (({ backend := some {} } : SharedMemoryStore SQLiteSharedMemoryBackend).calls
      cs).1 := by
  intro cs
  refine (neverRepeats_iff_not_restarts (some ({} : SQLiteSharedMemoryBackend)) ?_ cs).mpr ?_
  · rintro b ⟨⟩ key
    rfl
  · intro cs₁ c cs₂ hcs hrestarts
    match cs₁ with
    | [] =>
      obtain ⟨rfl, -⟩ := List.cons.inj hcs
      exact hrestarts.1 rfl
    | [_] =>
      obtain ⟨rfl, -⟩ := List.cons.inj (List.cons.inj hcs).2
      exact hrestarts
    | [_, _] =>
      obtain ⟨rfl, -⟩ := List.cons.inj (List.cons.inj (List.cons.inj hcs).2).2
      obtain ⟨-, -, hnone | hzero⟩ := hrestarts
      · cases hnone
      · cases hzero
    | _ :: _ :: _ :: l => simp [cs] at hcs

/-- An entry ends, another writer begins the key again at version one, and a compare-and-set of
the first writer succeeds on it. -/
theorem not_neverRepeats_after_expiry :
    let cs : List MemoryCall :=
      [.write (.at 0) { key := "k", value := .null, writerRole := "a", ttlSeconds := some 1 },
        .write (.at 2) { key := "k", value := .null, writerRole := "b" },
        .write (.at 3) { key := "k", value := .null, writerRole := "a", expectedVersion := some 1 }]
    let trace := (({} : SharedMemoryStore InMemorySharedMemoryBackend).calls cs).1
    writtenVersions "k" trace = [1, 1, 2] ∧ ¬ NeverRepeats trace := by
  intro cs trace
  have hversions : writtenVersions "k" trace = [1, 1, 2] := by decide +kernel
  refine ⟨hversions, fun h => ?_⟩
  have hinc := h.increasing "k"
  rw [hversions] at hinc
  exact absurd hinc (by decide)

end AgentLearning
