import AgentLearning.ConfigCenter
import AgentLearning.Lib.Trace

/-!
# Versions of the configuration

The next version of an entry is counted from the entry there is, and what was put under its keys
before is kept apart. As long as an entry is there it is the newest of its past (`Numbered`), so
the next version is larger than all before. Only a put under keys whose entry was deleted starts
from one again.
-/

namespace AgentLearning

open Trace

namespace ConfigCenter

variable {β κ : Type} [DecidableEq κ] [ConfigBackend β κ]

/-- A center as it is made. -/
def fresh : ConfigCenter β := { backend := ConfigBackend.empty }

abbrev CenterEvent (β : Type) := Trace.Event (ConfigCenter β) CenterCall (Option WatchEvent)

/-- The new versions that the watchers of a key are told. -/
def told (ns key : String) (tr : List (CenterEvent β)) : List ℤ :=
  ((tr.filterMap Trace.Event.output).filter fun e => e.ns = ns ∧ e.key = key).map
    WatchEvent.newVersion

/-- Puts an entry where there is none but was one. -/
def Recreates (center : ConfigCenter β) : CenterCall → Prop
  | .put ns key .. => center.get ns key = none ∧ center.history ns key ≠ []
  | .delete .. => False

/-! ## What a call does -/

def current (center : ConfigCenter β) (ns key : String) : Option ℤ :=
  (ConfigBackend.get center.backend ns key).map ConfigRecord.version

def versions (center : ConfigCenter β) (ns key : String) : List ℤ :=
  (ConfigBackend.getHistory center.backend ns key).map ConfigRecord.version

/-- The version that a put under the keys gives. -/
def next (center : ConfigCenter β) (ns key : String) : ℤ := (center.current ns key).getD 0 + 1

section Exec

variable (center : ConfigCenter β) {ns key ns' key' : String}

theorem get_eq_none_iff : center.get ns key = none ↔ center.current ns key = none := by
  simp [get, current]

theorem map_version_history :
    (center.history ns key).map ConfigEntry.version = center.versions ns key := by
  simp [history, versions, ConfigRecord.toEntry, Function.comp_def]

theorem history_eq_nil_iff : center.history ns key = [] ↔ center.versions ns key = [] := by
  simp [history, versions]

variable {value : Json} {configType description : String} {now : ℚ}

theorem current_put :
    (exec center (.put ns key value configType description now)).2.current ns' key'
      = if ConfigBackend.keyOf β (ns, key) = ConfigBackend.keyOf β (ns', key')
        then some (center.next ns key) else center.current ns' key' := by
  unfold current
  simp only [exec, put, ConfigBackend.get_put, ConfigRecord.pair]
  by_cases h : ConfigBackend.keyOf β (ns, key) = ConfigBackend.keyOf β (ns', key')
  · simp [h, next, current, nextVersion]
  · simp [h]

theorem versions_put :
    (exec center (.put ns key value configType description now)).2.versions ns' key'
      = if ConfigBackend.keyOf β (ns, key) = ConfigBackend.keyOf β (ns', key')
        then center.versions ns' key' ++ [center.next ns key]
        else center.versions ns' key' := by
  unfold versions
  simp only [exec, put, ConfigBackend.getHistory_put, ConfigRecord.pair]
  by_cases h : ConfigBackend.keyOf β (ns, key) = ConfigBackend.keyOf β (ns', key')
  · simp [h, next, current, nextVersion]
  · simp [h]

theorem current_delete : (exec center (.delete ns key)).2.current ns' key'
    = if center.current ns key = none then center.current ns' key'
      else if ConfigBackend.keyOf β (ns, key) = ConfigBackend.keyOf β (ns', key') then none
      else center.current ns' key' := by
  unfold current
  simp only [exec, delete]
  cases ConfigBackend.get center.backend ns key with
  | none => rfl
  | some existing =>
    simp only [ConfigBackend.get_delete, Option.map_some, reduceCtorEq, if_false]
    split_ifs <;> rfl

theorem versions_delete :
    (exec center (.delete ns key)).2.versions ns' key' = center.versions ns' key' := by
  unfold versions
  simp only [exec, delete]
  cases ConfigBackend.get center.backend ns key with
  | none => rfl
  | some existing => simp only [ConfigBackend.getHistory_delete]

theorem told_put (tr : List (CenterEvent β)) :
    told ns' key' (tr ++ [event exec center (.put ns key value configType description now)])
      = told ns' key' tr
        ++ if ns = ns' ∧ key = key' then [center.next ns key] else [] := by
  have hout : (event exec center (.put ns key value configType description now)).output
    = some (center.put ns key value configType description now).1.2 := rfl
  simp only [told, List.filterMap_append, List.filter_append, List.map_append]
  simp only [List.filterMap_cons, hout, List.filterMap_nil, List.filter_singleton, put]
  by_cases h : ns = ns' ∧ key = key' <;> simp [h, next, current, nextVersion]

theorem told_delete (tr : List (CenterEvent β)) :
    told ns' key' (tr ++ [event exec center (.delete ns key)])
      = told ns' key' tr
        ++ if ns = ns' ∧ key = key' then (center.current ns key).toList else [] := by
  simp only [told, List.filterMap_append, List.filter_append, List.map_append, current]
  cases hget : ConfigBackend.get center.backend ns key with
  | none => simp [exec, delete, hget]
  | some existing =>
    by_cases h : ns = ns' ∧ key = key'
    · obtain ⟨rfl, rfl⟩ := h
      simp [exec, delete, hget]
    · simp [exec, delete, hget, h]

end Exec

/-! ## What is always so -/

/-- Versions are counted from one, and pairs that share the keys of the backend share what is kept
under them. -/
structure Counting (center : ConfigCenter β) : Prop where
  current_pos : ∀ ns key, ∀ v ∈ center.current ns key, 1 ≤ v
  versions_pos : ∀ ns key, ∀ v ∈ center.versions ns key, 1 ≤ v
  current_congr : ∀ {ns key ns' key'},
    ConfigBackend.keyOf β (ns, key) = ConfigBackend.keyOf β (ns', key') →
      center.current ns key = center.current ns' key'
  versions_congr : ∀ {ns key ns' key'},
    ConfigBackend.keyOf β (ns, key) = ConfigBackend.keyOf β (ns', key') →
      center.versions ns key = center.versions ns' key'

section Counting

variable {center : ConfigCenter β}

theorem counting_fresh : (fresh : ConfigCenter β).Counting := by
  constructor <;> intros <;>
    simp_all [fresh, current, versions, ConfigBackend.get_empty, ConfigBackend.getHistory_empty]

theorem Counting.one_le_next (h : center.Counting) (ns key : String) :
    1 ≤ center.next ns key := by
  unfold next
  cases hcurrent : center.current ns key with
  | none => simp
  | some v =>
    have hv := h.current_pos ns key v hcurrent
    simp only [Option.getD_some]
    omega

theorem Counting.exec (h : center.Counting) (call : CenterCall) :
    (center.exec call).2.Counting := by
  cases call with
  | put ns key value configType description now =>
    have hnext := h.one_le_next ns key
    constructor
    · intro ns' key' v hv
      rw [current_put] at hv
      split_ifs at hv
      · cases hv
        exact hnext
      · exact h.current_pos ns' key' v hv
    · intro ns' key' v hv
      rw [versions_put] at hv
      split_ifs at hv
      · rcases List.mem_append.mp hv with hv | hv
        · exact h.versions_pos ns' key' v hv
        · rw [List.mem_singleton.mp hv]
          exact hnext
      · exact h.versions_pos ns' key' v hv
    · intro ns₁ key₁ ns₂ key₂ hkey
      rw [current_put, current_put, hkey, h.current_congr hkey]
    · intro ns₁ key₁ ns₂ key₂ hkey
      rw [versions_put, versions_put, hkey, h.versions_congr hkey]
  | delete ns key =>
    constructor
    · intro ns' key' v hv
      rw [current_delete] at hv
      split_ifs at hv
      · exact h.current_pos ns' key' v hv
      · cases hv
      · exact h.current_pos ns' key' v hv
    · intro ns' key' v hv
      rw [versions_delete] at hv
      exact h.versions_pos ns' key' v hv
    · intro ns₁ key₁ ns₂ key₂ hkey
      rw [current_delete, current_delete, hkey, h.current_congr hkey]
    · intro ns₁ key₁ ns₂ key₂ hkey
      rw [versions_delete, versions_delete, h.versions_congr hkey]

theorem versions_grow (center : ConfigCenter β) (call : CenterCall) (ns key : String) :
    center.versions ns key <+: (exec center call).2.versions ns key := by
  cases call with
  | put ns' key' value configType description now =>
    rw [versions_put]
    split_ifs
    · exact List.prefix_append ..
    · exact List.prefix_rfl
  | delete ns' key' => exact ⟨[], by rw [versions_delete, List.append_nil]⟩

end Counting

/-! ## As long as nothing is put back -/

/-- What there is under a key is the newest of what there was and of what was told. -/
structure Numbered (tr : List (CenterEvent β)) (center : ConfigCenter β) : Prop where
  counting : center.Counting
  increasing : ∀ ns key, (center.versions ns key).Pairwise (· < ·)
  nondecreasing : ∀ ns key, (told ns key tr).Pairwise (· ≤ ·)
  newest : ∀ ns key, ∀ v ∈ center.current ns key,
    (∀ w ∈ center.versions ns key, w ≤ v) ∧ ∀ w ∈ told ns key tr, w ≤ v
  unused : ∀ ns key, center.versions ns key = [] →
    center.current ns key = none ∧ told ns key tr = []

section Numbered

variable {tr : List (CenterEvent β)} {center : ConfigCenter β}

theorem numbered_fresh : Numbered [] (fresh : ConfigCenter β) where
  counting := counting_fresh
  increasing ns key := by
    simp [fresh, versions, ConfigBackend.getHistory_empty]
  nondecreasing ns key := by simp [told]
  newest ns key v hv := by simp [fresh, current, ConfigBackend.get_empty] at hv
  unused ns key _ := by simp [fresh, current, told, ConfigBackend.get_empty]

/-- What a put gives is newer than all that was under its keys. -/
theorem Numbered.lt_next (h : Numbered tr center) {ns key : String}
    (hnew : ¬ (center.current ns key = none ∧ center.versions ns key ≠ [])) :
    (∀ w ∈ center.versions ns key, w < center.next ns key)
      ∧ ∀ w ∈ told ns key tr, w < center.next ns key := by
  unfold next
  cases hcurrent : center.current ns key with
  | none =>
    have hnil : center.versions ns key = [] := by
      by_contra hne
      exact hnew ⟨hcurrent, hne⟩
    rw [hnil, (h.unused ns key hnil).2]
    simp
  | some v =>
    obtain ⟨hversions, htold⟩ := h.newest ns key v hcurrent
    exact ⟨fun w hw => Int.lt_add_one_of_le (hversions w hw),
      fun w hw => Int.lt_add_one_of_le (htold w hw)⟩

theorem Numbered.put (h : Numbered tr center) {ns key : String} {value : Json}
    {configType description : String} {now : ℚ}
    (hnew : ¬ (center.current ns key = none ∧ center.versions ns key ≠ [])) :
    Numbered (tr ++ [event exec center (.put ns key value configType description now)])
      (exec center (.put ns key value configType description now)).2 := by
  have hlt {ns' key' : String}
      (hkey : ConfigBackend.keyOf β (ns, key) = ConfigBackend.keyOf β (ns', key')) :
      (∀ w ∈ center.versions ns' key', w < center.next ns key)
        ∧ ∀ w ∈ told ns' key' tr, w < center.next ns key := by
    have hcurrent := h.counting.current_congr hkey
    rw [hcurrent, h.counting.versions_congr hkey] at hnew
    rw [next, hcurrent]
    exact h.lt_next hnew
  have hpair {ns' key' : String}
      (hkey : ConfigBackend.keyOf β (ns, key) ≠ ConfigBackend.keyOf β (ns', key')) :
      ¬ (ns = ns' ∧ key = key') := by
    rintro ⟨rfl, rfl⟩
    exact hkey rfl
  refine ⟨h.counting.exec _, fun ns' key' => ?_, fun ns' key' => ?_, fun ns' key' => ?_,
    fun ns' key' => ?_⟩
  · rw [versions_put]
    split_ifs with hkey
    · exact pairwise_append_singleton.mpr ⟨h.increasing ns' key', (hlt hkey).1⟩
    · exact h.increasing ns' key'
  · rw [told_put]
    split_ifs with hsame
    · obtain ⟨rfl, rfl⟩ := hsame
      refine pairwise_append_singleton.mpr ⟨h.nondecreasing ns key, fun w hw => ?_⟩
      exact Int.le_of_lt ((hlt rfl).2 w hw)
    · rw [List.append_nil]
      exact h.nondecreasing ns' key'
  · intro v hv
    rw [current_put] at hv
    rw [versions_put, told_put]
    by_cases hkey : ConfigBackend.keyOf β (ns, key) = ConfigBackend.keyOf β (ns', key')
    · rw [if_pos hkey] at hv ⊢
      cases hv
      refine ⟨fun w hw => ?_, fun w hw => ?_⟩
      · rcases List.mem_append.mp hw with hw | hw
        · exact Int.le_of_lt ((hlt hkey).1 w hw)
        · exact Int.le_of_eq (List.mem_singleton.mp hw)
      · rcases List.mem_append.mp hw with hw | hw
        · exact Int.le_of_lt ((hlt hkey).2 w hw)
        · split_ifs at hw
          · exact Int.le_of_eq (List.mem_singleton.mp hw)
          · cases hw
    · rw [if_neg hkey] at hv ⊢
      rw [if_neg (hpair hkey), List.append_nil]
      exact h.newest ns' key' v hv
  · rw [versions_put, current_put, told_put]
    by_cases hkey : ConfigBackend.keyOf β (ns, key) = ConfigBackend.keyOf β (ns', key')
    · simp [hkey]
    · rw [if_neg hkey, if_neg hkey, if_neg (hpair hkey), List.append_nil]
      exact h.unused ns' key'

theorem Numbered.delete (h : Numbered tr center) {ns key : String} :
    Numbered (tr ++ [event exec center (.delete ns key)])
      (exec center (.delete ns key)).2 := by
  refine ⟨h.counting.exec _, fun ns' key' => ?_, fun ns' key' => ?_, fun ns' key' => ?_,
    fun ns' key' => ?_⟩
  · rw [versions_delete]
    exact h.increasing ns' key'
  · rw [told_delete]
    split_ifs with hsame
    · obtain ⟨rfl, rfl⟩ := hsame
      rw [List.pairwise_append]
      refine ⟨h.nondecreasing ns key, ?_, fun w hw v hv => ?_⟩
      · cases center.current ns key <;> simp
      · exact (h.newest ns key v (Option.mem_toList.mp hv)).2 w hw
    · rw [List.append_nil]
      exact h.nondecreasing ns' key'
  · intro v hv
    rw [current_delete] at hv
    rw [versions_delete, told_delete]
    have hstill : v ∈ center.current ns' key' := by
      split_ifs at hv
      · exact hv
      · cases hv
      · exact hv
    obtain ⟨hversions, htold⟩ := h.newest ns' key' v hstill
    refine ⟨hversions, fun w hw => ?_⟩
    rcases List.mem_append.mp hw with hpast | hlast
    · exact htold w hpast
    · split_ifs at hlast with hsame
      · obtain ⟨rfl, rfl⟩ := hsame
        have hw : w ∈ center.current ns key := Option.mem_toList.mp hlast
        exact Int.le_of_eq (Option.mem_unique hw hstill)
      · cases hlast
  · rw [versions_delete, current_delete, told_delete]
    intro hnil
    obtain ⟨hcurrent, htold⟩ := h.unused ns' key' hnil
    rw [hcurrent, htold]
    refine ⟨by split_ifs <;> rfl, ?_⟩
    split_ifs with hsame
    · obtain ⟨rfl, rfl⟩ := hsame
      rw [hcurrent]
      rfl
    · rfl

end Numbered

/-! ## Runs -/

theorem recreates_iff {center : ConfigCenter β} {ns key : String} {value : Json}
    {configType description : String} {now : ℚ} :
    center.Recreates (.put ns key value configType description now)
      ↔ center.current ns key = none ∧ center.versions ns key ≠ [] := by
  rw [Recreates, get_eq_none_iff, Ne, history_eq_nil_iff]

theorem Numbered.exec {tr : List (CenterEvent β)} {center : ConfigCenter β}
    (h : Numbered tr center) {call : CenterCall} (hnew : ¬ center.Recreates call) :
    Numbered (tr ++ [event ConfigCenter.exec center call]) (center.exec call).2 := by
  cases call with
  | put ns key value configType description now => exact h.put (recreates_iff.not.mp hnew)
  | delete ns key => exact h.delete

theorem counting_final (calls : List CenterCall) :
    (final exec (fresh : ConfigCenter β) calls).Counting :=
  final_induct counting_fresh fun _ call _ h => h.exec call

/-- What was once put stays in the past of its key. -/
theorem past_versions_kept (center : ConfigCenter β) (calls : List CenterCall)
    (ns key : String) :
    center.versions ns key <+: (final exec center calls).versions ns key :=
  final_induct
    (P := fun center' : ConfigCenter β => center.versions ns key <+: center'.versions ns key)
    List.prefix_rfl fun center' call _ h => h.trans (versions_grow center' call ns key)

/-- The version that is given when an entry is put back was given before. -/
theorem not_increasing_of_recreates {center : ConfigCenter β} (h : center.Counting)
    {call : CenterCall} (hcall : center.Recreates call) :
    ∃ ns key, ¬ ((exec center call).2.versions ns key).Pairwise (· < ·) := by
  cases call with
  | delete ns key => exact hcall.elim
  | put ns key value configType description now =>
    obtain ⟨hcurrent, hpast⟩ := recreates_iff.mp hcall
    refine ⟨ns, key, fun hincreasing => ?_⟩
    rw [versions_put, if_pos rfl, pairwise_append_singleton] at hincreasing
    obtain ⟨w, hw⟩ := List.exists_mem_of_ne_nil _ hpast
    have hlt : w < center.next ns key := hincreasing.2 w hw
    have hle := h.versions_pos ns key w hw
    rw [next, hcurrent, Option.getD_none] at hlt
    omega

theorem numbered_final {calls : List CenterCall}
    (hnew : ∀ before call later, calls = before ++ call :: later →
      ¬ (final exec (fresh : ConfigCenter β) before).Recreates call) :
    Numbered (events exec (fresh : ConfigCenter β) calls) (final exec fresh calls) := by
  induction calls using List.reverseRecOn with
  | nil => exact numbered_fresh
  | append_singleton calls call ih =>
    rw [events_concat, final_concat]
    refine (ih fun before call' later heq => ?_).exec (hnew calls call [] rfl)
    exact hnew before call' (later ++ [call]) (by rw [heq, List.append_assoc, List.cons_append])

/-- Versions increase along a run exactly if nothing is put back that was deleted. -/
theorem versions_increase_iff (calls : List CenterCall) :
    let center : ConfigCenter β := final exec fresh calls
    ((∀ ns key, ((center.history ns key).map ConfigEntry.version).Pairwise (· < ·))
        ∧ ∀ ns key, (told ns key (events exec (fresh : ConfigCenter β) calls)).Pairwise (· ≤ ·))
      ↔ ∀ before call later, calls = before ++ call :: later →
        ¬ (final exec (fresh : ConfigCenter β) before).Recreates call := by
  intro center
  simp only [map_version_history]
  constructor
  · rintro ⟨hincreasing, -⟩ before call later rfl hcall
    obtain ⟨ns, key, hnot⟩ := not_increasing_of_recreates (counting_final before) hcall
    have hprefix := past_versions_kept
      (exec (final exec (fresh : ConfigCenter β) before) call).2 later ns key
    rw [← final_cons, ← final_append] at hprefix
    exact hnot ((hincreasing ns key).sublist hprefix.sublist)
  · intro hnew
    have hnumbered : Numbered (events exec (fresh : ConfigCenter β) calls) center :=
      numbered_final hnew
    exact ⟨hnumbered.increasing, hnumbered.nondecreasing⟩

/-- An entry that is deleted and put back. -/
theorem versions_repeat_after_delete :
    let calls : List CenterCall := [
      .put "experiments" "banner" (.int 1) "feature_flag" "" 0,
      .delete "experiments" "banner",
      .put "experiments" "banner" (.int 2) "feature_flag" "" 1]
    let center : ConfigCenter InMemoryConfigBackend := final exec fresh calls
    (center.history "experiments" "banner").map ConfigEntry.version = [1, 1]
      ∧ ¬ ((center.history "experiments" "banner").map ConfigEntry.version).Pairwise (· < ·) := by
  decide +kernel

end ConfigCenter

end AgentLearning
