import AgentLearning.Proofs.ActiveVersion

/-!
# Which version a transition hits

`transition` looks up the entry that it changes as `get` does, by whom an empty version stands for
the active one, and it makes active the version as it was given. So an empty version moves the
active entry and makes the empty version active. Any other version is the entry's own.
-/

namespace AgentLearning.Gateway

namespace ToolRegistry

def statusOf (registry : ToolRegistry) (name version : String) : Option ToolStatus :=
  ((registry.versions name).get? version).map ToolMeta.status

/-- The active version of the tool is one of its versions, if there is one. -/
def ActiveRegistered (registry : ToolRegistry) (name : String) : Prop :=
  ∀ version, registry.activeVersions.get? name = some version →
    ((registry.versions name).get? version).isSome = true

/-- Either a call raises and changes nothing, or it moves the named entry and no other to the
target, and the tool has no active version after it that is not there. -/
def HitsNamed (registry : ToolRegistry) (name version : String) (target : ToolStatus)
    (result : Except PyError ToolMeta × ToolRegistry) : Prop :=
  ((∃ message, result.1 = .error (.valueError message)) ∧ result.2 = registry)
    ∨ ((∃ tool, result.1 = .ok tool)
      ∧ (∃ status, registry.statusOf name version = some status ∧ status ≠ target)
      ∧ result.2.statusOf name version = some target
      ∧ (∀ n v, (n, v) ≠ (name, version) → result.2.statusOf n v = registry.statusOf n v)
      ∧ result.2.ActiveRegistered name)

section Moves

variable {registry registry' : ToolRegistry} {name version : String} {target : ToolStatus}
  {tool tool' : ToolMeta}

theorem registered_of_fallbackOf {v : String}
    (h : fallbackOf (registry.versions name).values version = some v) :
    ((registry.versions name).get? v).isSome = true := by
  unfold fallbackOf at h
  obtain ⟨tool, hfind, rfl⟩ := Option.map_eq_some_iff.mp h
  have hmem := List.mem_of_find?_eq_some hfind
  rw [List.mem_reverse, List.mem_insertionSort,
    Dict.mem_values_iff fun v tool hv => (registry.versions_keyed name hv).2] at hmem
  rw [hmem]
  rfl

theorem validTransitions_ne {status : ToolStatus} (h : target ∈ validTransitions status) :
    status ≠ target := by
  rcases status with _ | _ | _ <;> rcases target with _ | _ | _ <;>
    simp [validTransitions] at h ⊢

theorem Moves.statusOf_eq (h : Moves registry name version target tool tool' registry')
    (n v : String) : registry'.statusOf n v
      = if (n, v) = (name, tool.version) then some target else registry.statusOf n v := by
  unfold statusOf
  rw [h.versions_eq]
  by_cases hn : name = n
  · subst hn
    rw [if_pos rfl, Dict.get?_set]
    by_cases hv : tool.version = v
    · subst hv
      simp [h.status_eq]
    · simp [hv, Ne.symm hv]
  · simp [hn, Ne.symm hn]

theorem Moves.isSome_iff (h : Moves registry name version target tool tool' registry')
    (htool : (registry.versions name).get? tool.version = some tool) (v : String) :
    ((registry'.versions name).get? v).isSome = true
      ↔ ((registry.versions name).get? v).isSome = true := by
  rw [h.versions_eq, if_pos rfl, Dict.get?_set]
  split_ifs with hv
  · simp [← hv, htool]
  · exact Iff.rfl

/-- A move to `AVAILABLE` makes a version active that is there. Any other move leaves the active
version, or falls back to one that is there. -/
theorem Moves.activeRegistered_iff (h : Moves registry name version target tool tool' registry')
    (htool : (registry.versions name).get? version = some tool) :
    registry'.ActiveRegistered name ↔ target = .available ∨ registry.ActiveRegistered name := by
  obtain rfl : tool.version = version := (registry.versions_keyed name htool).2
  have hthere : ((registry.versions name).get? tool.version).isSome = true := by simp [htool]
  unfold ActiveRegistered
  rw [h.active_eq]
  simp only [h.isSome_iff htool]
  by_cases htarget : target = .available
  · simpa [htarget] using hthere
  · by_cases hactive : registry.activeVersions.get? name = some tool.version
    · rw [if_neg htarget, if_pos hactive, hactive]
      refine iff_of_true (fun v hv => ?_) (.inr ?_)
      · rw [← h.isSome_iff htool]
        exact registered_of_fallbackOf hv
      · simpa using hthere
    · simp [htarget, hactive]

end Moves

/-- A transition does what it should to the named entry just if it raises, or the name of the
version is not empty and the tool had no active version that is not there, or is given one. -/
theorem transition_hits_iff (registry : ToolRegistry)
    (listOf : List ToolStatus → List ToolStatus) (name version : String) (target : ToolStatus)
    (reason replacement : String) (now : ℚ) :
    registry.HitsNamed name version target
        (registry.transition name listOf version target reason replacement now)
      ↔ (∀ tool, registry.get name (some version) = some tool →
          target ∉ validTransitions tool.status)
        ∨ version ≠ "" ∧ (target = .available ∨ registry.ActiveRegistered name) := by
  by_cases h : ∀ tool, registry.get name (some version) = some tool →
      target ∉ validTransitions tool.status
  · obtain ⟨message, hmove⟩ := transition_raises listOf reason replacement now h
    rw [hmove]
    exact iff_of_true (.inl ⟨⟨message, rfl⟩, rfl⟩) (.inl h)
  · rw [or_iff_right h]
    push Not at h
    obtain ⟨tool, hget, ht⟩ := h
    obtain ⟨tool', registry', hmove, hmoves⟩ :=
      transition_moves listOf reason replacement now hget ht
    obtain ⟨hne, hthere⟩ := get_registered hget
    have hstatus : registry.statusOf name tool.version = some tool.status := by
      rw [statusOf, hthere, Option.map_some]
    rw [hmove, HitsNamed]
    simp only [reduceCtorEq, exists_false, false_and, false_or]
    by_cases hversion : version = ""
    · -- The entry that moves is another one than the one under the empty version.
      subst hversion
      refine iff_of_false ?_ fun hne => hne.1 rfl
      rintro ⟨-, -, -, hrest, -⟩
      have hsame := hrest name tool.version (by simpa using hne)
      rw [hmoves.statusOf_eq, if_pos rfl, hstatus, Option.some.injEq] at hsame
      exact validTransitions_ne ht hsame.symm
    · rw [get_some hversion] at hget
      obtain rfl : tool.version = version := (registry.versions_keyed name hget).2
      rw [← hmoves.activeRegistered_iff hget, and_iff_right hversion]
      refine ⟨fun hhit => hhit.2.2.2.2, fun hactive => ⟨⟨tool', rfl⟩, ?_, ?_, ?_, hactive⟩⟩
      · exact ⟨tool.status, hstatus, validTransitions_ne ht⟩
      · rw [hmoves.statusOf_eq, if_pos rfl]
      · exact fun n v hne => (hmoves.statusOf_eq n v).trans (if_neg hne)

/-- A draft that is published under the empty version becomes available, and the tool's active
version becomes one that is not there. -/
theorem transition_hits_iff_fails_on_empty :
    let draft : ToolMeta :=
      { name := "search", version := "1.0.0", description := "", registeredAt := 1, updatedAt := 1 }
    let registry := ((∅ : ToolRegistry).register draft).2
    ¬ registry.HitsNamed "search" "" .available
      (registry.transition "search" id "" .available "" "" 2) := by
  intro draft registry hhits
  rcases hhits with ⟨⟨message, hraised⟩, -⟩ | ⟨-, ⟨status, hstatus, -⟩, -⟩
  · have hok : (registry.transition "search" id "" .available "" "" 2).1.isOk := by decide +kernel
    rw [hraised] at hok
    simp [Except.isOk, Except.toBool] at hok
  · have hnone : registry.statusOf "search" "" = none := by decide +kernel
    simp [hnone] at hstatus

end ToolRegistry

end AgentLearning.Gateway
