import Mathlib.Data.List.Forall2
import Mathlib.Logic.Function.Basic
import AgentLearning.RedisBackend
import AgentLearning.Proofs.MemoryOps

/-!
# The backends of the shared memory are interchangeable

A store sees of its backend the entry of each key only (`Alike.call`); the order in which a backend
lists shows in the listings and nowhere else. So stores that share a backend, a restarted one
among them, answer as they would over any other with the same records.
-/

namespace AgentLearning

/-- The same answer, a listing up to its order. -/
inductive AnswersAlike : Except VersionConflictError MemoryResult →
    Except VersionConflictError MemoryResult → Prop
  | same (answer : Except VersionConflictError MemoryResult) : AnswersAlike answer answer
  | removed {keys keys' : List String} (h : keys.Perm keys') :
    AnswersAlike (.ok (.removed keys)) (.ok (.removed keys'))
  | snapshot {entries entries' : Dict String MemoryEntry}
    (h : ∀ key, entries.get? key = entries'.get? key) :
    AnswersAlike (.ok (.snapshot entries)) (.ok (.snapshot entries'))

theorem MemoryRecord.toEntry_injective : Function.Injective MemoryRecord.toEntry := by
  rintro ⟨⟩ ⟨⟩ h
  simpa [toEntry] using h

namespace SharedMemoryStore

open SharedMemoryBackend

variable {β γ : Type} [SharedMemoryBackend β] [SharedMemoryBackend γ]

/-! ## A store on a backend stays on it -/

section IsSome

variable {s : SharedMemoryStore β}

theorem isSome_stored (h : s.backend.isSome) (entry : MemoryEntry) :
    (s.stored entry).backend.isSome := by
  obtain ⟨b, hb⟩ := Option.isSome_iff_exists.mp h
  simp [stored, hb]

theorem isSome_removed (h : s.backend.isSome) (key : String) :
    (s.removed key).backend.isSome := by
  obtain ⟨b, hb⟩ := Option.isSome_iff_exists.mp h
  simp [removed, hb]

theorem isSome_cleaned (h : s.backend.isSome) (now : ℚ) : (s.cleaned now).backend.isSome := by
  unfold cleaned
  generalize s.expiredKeys now = keys
  induction keys generalizing s with
  | nil => exact h
  | cons key keys ih => exact ih (isSome_removed h key)

theorem isSome_call (h : s.backend.isSome) (c : MemoryCall) : (s.call c).2.backend.isSome := by
  unfold call
  cases c with
  | read now key =>
    rw [prog, Prog.run_map, run_read]
    exact isSome_cleaned h now
  | write clock w =>
    simp only [prog, Prog.run_map, run_write]
    have hcleaned := isSome_cleaned h clock.cleanup
    rcases w.checkVersion ((s.cleaned clock.cleanup).current w.key) with error | _
    · exact hcleaned
    · exact isSome_stored hcleaned _
  | cleanupExpired now =>
    rw [prog, Prog.run_map, run_cleanupExpired]
    exact isSome_cleaned h now
  | snapshot now =>
    rw [prog, Prog.run_map, run_snapshot]
    exact isSome_cleaned h now
  | getHistory key => exact h

end IsSome

/-! ## What a store sees of its backend -/

omit [SharedMemoryBackend β] in
theorem run_getHistory (s : SharedMemoryStore β) (key : String) :
    (getHistory key).run () s = (.ok (s.versions key), s) := rfl

structure Alike (s : SharedMemoryStore β) (s' : SharedMemoryStore γ) : Prop where
  current : ∀ key, s.current key = s'.current key
  history : s.history = s'.history

namespace Alike

variable {s : SharedMemoryStore β} {s' : SharedMemoryStore γ}

theorem versions (h : s.Alike s') (key : String) : s.versions key = s'.versions key := by
  rw [SharedMemoryStore.versions, SharedMemoryStore.versions, h.history]

theorem cleaned (h : s.Alike s') (now : ℚ) : (s.cleaned now).Alike (s'.cleaned now) where
  current key := by rw [current_cleaned, current_cleaned, h.current]
  history := by rw [history_cleaned, history_cleaned, h.history]

theorem written (h : s.Alike s') (entry : MemoryEntry) :
    ((s.stored entry).appended entry.key entry.version).Alike
      ((s'.stored entry).appended entry.key entry.version) where
  current key := by
    rw [current_appended, current_appended, current_stored, current_stored, h.current]
  history := by
    simp only [appended, SharedMemoryStore.versions, history_stored, h.history]

theorem expiredKeys (h : s.Alike s') (now : ℚ) :
    (s.expiredKeys now).Perm (s'.expiredKeys now) := by
  have hnodup (entries : Dict String MemoryEntry) :
      ((entries.entries.filter fun e => e.2.expired now).map Prod.fst).Nodup :=
    entries.nodup.sublist (List.filter_sublist.map Prod.fst)
  refine (List.perm_ext_iff_of_nodup (hnodup _) (hnodup _)).mpr fun key => ?_
  show key ∈ s.expiredKeys now ↔ key ∈ s'.expiredKeys now
  rw [mem_expiredKeys, mem_expiredKeys, h.current]

/-- One call: the answers are alike, and so are the stores after it. -/
theorem call (h : s.Alike s') (c : MemoryCall) :
    AnswersAlike (s.call c).1 (s'.call c).1 ∧ (s.call c).2.Alike (s'.call c).2 := by
  unfold SharedMemoryStore.call
  cases c with
  | read now key =>
    simp only [prog, Prog.run_map, run_read, (h.cleaned now).current]
    exact ⟨.same _, h.cleaned now⟩
  | write clock w =>
    have hcleaned := h.cleaned clock.cleanup
    simp only [prog, Prog.run_map, run_write, hcleaned.current]
    rcases w.checkVersion ((s'.cleaned clock.cleanup).current w.key) with error | _
    · exact ⟨.same _, hcleaned⟩
    · exact ⟨.same _, hcleaned.written _⟩
  | cleanupExpired now =>
    simp only [prog, Prog.run_map, run_cleanupExpired]
    exact ⟨.removed (h.expiredKeys now), h.cleaned now⟩
  | snapshot now =>
    simp only [prog, Prog.run_map, run_snapshot]
    refine ⟨.snapshot fun key => ?_, h.cleaned now⟩
    rw [get?_contents, get?_contents, (h.cleaned now).current]
  | getHistory key =>
    simp only [prog, Prog.run_map, run_getHistory, h.versions]
    exact ⟨.same _, h⟩

end Alike

end SharedMemoryStore

/-! ## Stores that share a backend -/

/-- A backend with the stores over it, each of which has a history of its own. A store that was
restarted is another one. -/
structure MemoryFleet (β : Type) where
  backend : β
  histories : ℕ → Dict String (List ℤ) := fun _ => ∅

namespace MemoryFleet

open SharedMemoryBackend

variable {β γ : Type} [SharedMemoryBackend β] [SharedMemoryBackend γ]

def store (fleet : MemoryFleet β) (i : ℕ) : SharedMemoryStore β :=
  { backend := some fleet.backend, history := fleet.histories i }

/-- A call on one of the stores. -/
def exec (fleet : MemoryFleet β) (i : ℕ) (c : MemoryCall) :
    Except VersionConflictError MemoryResult × MemoryFleet β :=
  let (answer, s) := (fleet.store i).call c
  (answer,
    { backend := s.backend.getD fleet.backend
      histories := Function.update fleet.histories i s.history })

def answers : MemoryFleet β → List (ℕ × MemoryCall) →
    List (Except VersionConflictError MemoryResult)
  | _, [] => []
  | fleet, (i, c) :: cs => (fleet.exec i c).1 :: (fleet.exec i c).2.answers cs

def final (fleet : MemoryFleet β) (cs : List (ℕ × MemoryCall)) : MemoryFleet β :=
  cs.foldl (fun fleet c => (fleet.exec c.1 c.2).2) fleet

/-- The same records, and the same histories. -/
structure Alike (fleet : MemoryFleet β) (fleet' : MemoryFleet γ) : Prop where
  records : ∀ key, get fleet.backend key = get fleet'.backend key
  histories : fleet.histories = fleet'.histories

namespace Alike

variable {fleet : MemoryFleet β} {fleet' : MemoryFleet γ}

theorem store (h : fleet.Alike fleet') (i : ℕ) : (fleet.store i).Alike (fleet'.store i) where
  current key := congrArg (Option.map MemoryRecord.toEntry) (h.records key)
  history := congrFun h.histories i

theorem exec (h : fleet.Alike fleet') (i : ℕ) (c : MemoryCall) :
    AnswersAlike (fleet.exec i c).1 (fleet'.exec i c).1
      ∧ (fleet.exec i c).2.Alike (fleet'.exec i c).2 := by
  obtain ⟨hanswer, hafter⟩ := (h.store i).call c
  refine ⟨hanswer, fun key => ?_, ?_⟩
  · obtain ⟨b, hb⟩ := Option.isSome_iff_exists.mp
      (SharedMemoryStore.isSome_call (s := fleet.store i) rfl c)
    obtain ⟨b', hb'⟩ := Option.isSome_iff_exists.mp
      (SharedMemoryStore.isSome_call (s := fleet'.store i) rfl c)
    have hcurrent := hafter.current key
    simp only [SharedMemoryStore.current, hb, hb'] at hcurrent
    simp only [MemoryFleet.exec, hb, hb', Option.getD_some]
    exact Option.map_injective MemoryRecord.toEntry_injective hcurrent
  · simp only [MemoryFleet.exec, h.histories, hafter.history]

theorem answers : ∀ {fleet : MemoryFleet β} {fleet' : MemoryFleet γ} (cs : List (ℕ × MemoryCall)),
    fleet.Alike fleet' → List.Forall₂ AnswersAlike (fleet.answers cs) (fleet'.answers cs)
  | _, _, [], _ => .nil
  | _, _, (i, c) :: cs, h => .cons (h.exec i c).1 (Alike.answers cs (h.exec i c).2)

theorem final : ∀ {fleet : MemoryFleet β} {fleet' : MemoryFleet γ} (cs : List (ℕ × MemoryCall)),
    fleet.Alike fleet' → (fleet.final cs).Alike (fleet'.final cs)
  | _, _, [], h => h
  | _, _, (i, c) :: cs, h => Alike.final cs (h.exec i c).2

end Alike

/-- A fleet over a backend that some records were put into. -/
def loaded (b : β) (records : List MemoryRecord) : MemoryFleet β :=
  { backend := records.foldl put b }

theorem alike_loaded {b : β} {b' : γ} (h : ∀ key, get b key = get b' key) :
    ∀ records : List MemoryRecord, (loaded b records).Alike (loaded b' records)
  | [] => ⟨h, rfl⟩
  | record :: records => by
    have hput (key : String) : get (put b record) key = get (put b' record) key := by
      rw [get_put, get_put, h]
    exact alike_loaded hput records

end MemoryFleet

end AgentLearning
