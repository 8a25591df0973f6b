import Mathlib.Algebra.Order.Ring.Unbundled.Rat
import AgentLearning.Lib.Ranking
import AgentLearning.Lib.Trace
import AgentLearning.ToolCenter

/-!
# The active version of a tool

A call does one of five things to the registry (`step_exec`), and each is said through the versions
and the active version of every name. The law of one name relates these to what has happened: the
active version is one of those registered, it is available if any is, and it was not moved to
`DEPRECATED` since it was last registered.
-/

namespace AgentLearning.Gateway

open Trace

inductive RegistryCall
  | register (tool : ToolMeta)
  | transition (listOf : List ToolStatus → List ToolStatus) (name version : String)
    (targetStatus : ToolStatus) (reason replacement : String) (now : ℚ)
  | unregister (name : String)

inductive RegistryAnswer
  | tool (result : Except PyError ToolMeta)
  | removed (existed : Bool)

/-- The call names a version by a string that is not empty, if it names one. -/
def RegistryCall.NamesVersion : RegistryCall → Prop
  | register tool => tool.version ≠ ""
  | transition _ _ version _ _ _ _ => version ≠ ""
  | unregister _ => True

namespace ToolRegistry

def exec (registry : ToolRegistry) : RegistryCall → RegistryAnswer × ToolRegistry
  | .register tool => (.tool (registry.register tool).1, (registry.register tool).2)
  | .transition listOf name version targetStatus reason replacement now =>
    let result := registry.transition name listOf version targetStatus reason replacement now
    (.tool result.1, result.2)
  | .unregister name => (.removed (registry.unregister name).1, (registry.unregister name).2)

abbrev RegistryEvent := Trace.Event ToolRegistry RegistryCall RegistryAnswer

/-! ## What a call does -/

section Lookup

variable {registry : ToolRegistry} {name : String}

theorem versions_store (tool : ToolMeta) (n : String) :
    (registry.store tool).versions n
      = if tool.name = n then (registry.versions n).set tool.version tool
        else registry.versions n := by
  unfold versions store
  rw [Dict.get?_set]
  split_ifs with h
  · subst h
    rfl
  · rfl

theorem get_some {version : String} (h : version ≠ "") :
    registry.get name (some version) = (registry.versions name).get? version := by
  unfold get versions
  cases registry.tools.get? name with
  | none => rfl
  | some versions => exact if_pos h

/-- What is active after the active version was deprecated, said of all versions. -/
def fallbackOf (versions : List ToolMeta) (version : String) : Option String :=
  ((versions.insertionSort fun a b => a.registeredAt ≤ b.registeredAt).reverse.find?
    fun tool => tool.status = .available ∧ tool.version ≠ version).map ToolMeta.version

theorem activeVersions_fallBack (version : String) (n : String) :
    (registry.fallBack name version).activeVersions.get? n
      = if name = n ∧ (fallbackOf (registry.versions name).values version).isSome
        then fallbackOf (registry.versions name).values version
        else registry.activeVersions.get? n := by
  unfold fallBack fallbackOf getAllVersions
  cases List.find? (fun tool : ToolMeta => decide (tool.status = .available
      ∧ tool.version ≠ version)) (List.reverse ((registry.versions name).values.insertionSort
      fun a b => a.registeredAt ≤ b.registeredAt)) with
  | none => simp
  | some tool =>
    show (registry.activeVersions.set name tool.version).get? n = _
    rw [Dict.get?_set]
    simp

theorem versions_fallBack (version n : String) :
    (registry.fallBack name version).versions n = registry.versions n := by
  unfold fallBack
  split <;> rfl

end Lookup

/-- What a call does, by what it is. -/
inductive RegistryStep (e : RegistryEvent) : Prop
  | raised (ho : ∃ error, e.output = .tool (.error error)) (h : e.after = e.before)
  | missing (name : String) (hi : e.input = .unregister name) (ho : e.output = .removed false)
    (hb : e.before.tools.get? name = none) (h : e.after = e.before)
  | unregistered (name : String) (hi : e.input = .unregister name) (ho : e.output = .removed true)
    (hv : ∀ n, e.after.versions n = if name = n then ∅ else e.before.versions n)
    (ha : ∀ n, e.after.activeVersions.get? n
      = if name = n then none else e.before.activeVersions.get? n)
  | registered (tool : ToolMeta) (hi : e.input = .register tool) (ho : e.output = .tool (.ok tool))
    (hversion : tool.version ≠ "")
    (hb : (e.before.versions tool.name).get? tool.version = none)
    (hv : ∀ n, e.after.versions n = if tool.name = n
      then (e.before.versions n).set tool.version tool else e.before.versions n)
    (ha : ∀ n, e.after.activeVersions.get? n = if tool.name = n
      ∧ (e.before.activeVersions.get? n = none ∨ tool.status = .available)
      then some tool.version else e.before.activeVersions.get? n)
  | moved (listOf) (name version : String) (target : ToolStatus) (reason replacement : String)
    (now : ℚ) (tool tool' : ToolMeta)
    (hi : e.input = .transition listOf name version target reason replacement now)
    (ho : e.output = .tool (.ok tool')) (hversion : version ≠ "")
    (hb : (e.before.versions name).get? version = some tool)
    (ht : target ∈ validTransitions tool.status) (hstatus : tool'.status = target)
    (hreg : tool'.version = version)
    (hv : ∀ n, e.after.versions n = if name = n
      then (e.before.versions n).set version tool' else e.before.versions n)
    (ha : e.after.activeVersions.get? name = if target = .available then some version
      else if e.before.activeVersions.get? name = some version
      then fallbackOf (e.after.versions name).values version
      else e.before.activeVersions.get? name)
    (hrest : ∀ n, name ≠ n → e.after.activeVersions.get? n = e.before.activeVersions.get? n)

section Step

variable (registry : ToolRegistry)

theorem step_register {tool : ToolMeta} (hversion : tool.version ≠ "") :
    RegistryStep (event exec registry (.register tool)) := by
  by_cases hmem : ((registry.versions tool.name).get? tool.version).isSome
  · have hreg : (registry.register tool).2 = registry := by rw [register, if_pos hmem]
    refine .raised ⟨.valueError
      (s!"Tool '{tool.name}' version '{tool.version}' already registered. "
        ++ "Use a new version string for updates."), ?_⟩ hreg
    exact congrArg RegistryAnswer.tool (by rw [register, if_pos hmem])
  · have hok : (registry.register tool).1 = .ok tool := by rw [register, if_neg hmem]
    have hreg : (registry.register tool).2
        = if registry.activeVersions.get? tool.name = none ∨ tool.status = .available
          then (registry.store tool).activate tool.name tool.version else registry.store tool := by
      simp only [register, if_neg hmem, Option.isNone_iff_eq_none]
      rfl
    refine .registered tool rfl (congrArg RegistryAnswer.tool hok) hversion
      (by simpa using hmem) ?_ ?_
    · intro n
      show (registry.register tool).2.versions n = _
      rw [hreg, event_before, ← versions_store]
      split_ifs <;> rfl
    · intro n
      show (registry.register tool).2.activeVersions.get? n = _
      rw [hreg, event_before]
      by_cases hn : tool.name = n
      · subst hn
        simp only [true_and]
        split_ifs
        · exact Dict.get?_set_self ..
        · rfl
      · simp only [hn, false_and, if_false]
        split_ifs
        · exact Dict.get?_set_ne _ _ hn
        · rfl

theorem step_unregister (name : String) :
    RegistryStep (event exec registry (.unregister name)) := by
  by_cases hmem : (registry.tools.get? name).isSome
  · have hafter : (registry.unregister name).2.tools = registry.tools.erase name
        ∧ (registry.unregister name).2.activeVersions = registry.activeVersions.erase name := by
      simp only [unregister, if_pos hmem, and_self]
    refine .unregistered name rfl (congrArg RegistryAnswer.removed hmem) ?_ ?_
    · intro n
      show ((registry.unregister name).2.tools.get? n).getD ∅ = _
      rw [hafter.1, Dict.get?_erase]
      split_ifs <;> rfl
    · intro n
      show (registry.unregister name).2.activeVersions.get? n = _
      rw [hafter.2, Dict.get?_erase]
      rfl
  · refine .missing name rfl ?_ (by simpa using hmem) ?_
    · exact congrArg RegistryAnswer.removed (by simpa [unregister] using hmem)
    · show (registry.unregister name).2 = registry
      rw [unregister, if_neg hmem]

section Moved

variable {registry} {name version : String} {tool : ToolMeta}

/-- What is looked up is registered under its own version, which is not empty. -/
theorem get_registered (h : registry.get name (some version) = some tool) :
    tool.version ≠ "" ∧ (registry.versions name).get? tool.version = some tool := by
  unfold get at h
  unfold versions
  rcases hname : registry.tools.get? name with _ | versions
  · simp [hname] at h
  · simp only [hname] at h
    have hkey {v : String} (hne : v ≠ "") (hv : versions.get? v = some tool) :
        tool.version ≠ "" ∧ ((some versions).getD ∅).get? tool.version = some tool := by
      rw [(registry.keyed name versions hname v tool hv).2]
      exact ⟨hne, hv⟩
    split at h
    · exact hkey (by assumption) h
    · split at h
      · simp at h
      · split at h
        · exact hkey (by assumption) h
        · simp at h

/-- What a move that is allowed does. The entry that it changes is the one that was looked up, and
what it makes active is what it was told. -/
structure Moves (registry : ToolRegistry) (name version : String) (target : ToolStatus)
    (tool tool' : ToolMeta) (registry' : ToolRegistry) : Prop where
  status_eq : tool'.status = target
  version_eq : tool'.version = tool.version
  versions_eq : ∀ n, registry'.versions n = if name = n
    then (registry.versions n).set tool.version tool' else registry.versions n
  active_eq : registry'.activeVersions.get? name = if target = .available then some version
    else if registry.activeVersions.get? name = some version
    then fallbackOf (registry'.versions name).values version
    else registry.activeVersions.get? name
  rest_eq : ∀ n, name ≠ n → registry'.activeVersions.get? n = registry.activeVersions.get? n

theorem versions_store_moved (hget : registry.get name (some version) = some tool)
    (tool' : ToolMeta) (hname : tool'.name = tool.name) (hversion : tool'.version = tool.version)
    (n : String) : (registry.store tool').versions n = if name = n
      then (registry.versions n).set tool.version tool' else registry.versions n := by
  rw [versions_store, hname, hversion, registry.get_name name hget]

variable (listOf : List ToolStatus → List ToolStatus) (reason replacement : String) (now : ℚ)

theorem transition_available (hget : registry.get name (some version) = some tool)
    (ht : .available ∈ validTransitions tool.status) :
    ∃ tool' registry',
      registry.transition name listOf version .available reason replacement now
        = (.ok tool', registry') ∧ Moves registry name version .available tool tool' registry' := by
  refine ⟨{ tool with status := .available, updatedAt := now },
    (registry.store { tool with status := .available, updatedAt := now }).activate name version,
    by simp only [transition, hget, if_neg (not_not.mpr ht)], rfl, rfl,
    versions_store_moved hget _ rfl rfl, ?_, fun n hn => Dict.get?_set_ne _ _ hn⟩
  rw [if_pos rfl]
  exact Dict.get?_set_self ..

theorem transition_deprecated (hget : registry.get name (some version) = some tool)
    (ht : .deprecated ∈ validTransitions tool.status) :
    ∃ tool' registry',
      registry.transition name listOf version .deprecated reason replacement now
        = (.ok tool', registry')
      ∧ Moves registry name version .deprecated tool tool' registry' := by
  let tool' := { tool with
    status := .deprecated
    updatedAt := now
    deprecatedReason := reason
    replacementTool := replacement }
  by_cases hactive : registry.activeVersions.get? name = some version
  · refine ⟨tool', ((registry.store tool').deactivate name).fallBack name version, ?_, rfl, rfl,
      fun n => ?_, ?_, fun n hn => ?_⟩
    · simp only [transition, hget, if_neg (not_not.mpr ht)]
      exact congrArg (Prod.mk _) (if_pos hactive)
    · rw [versions_fallBack]
      exact versions_store_moved hget tool' rfl rfl n
    · rw [if_neg (by decide), if_pos hactive, activeVersions_fallBack, versions_fallBack]
      have hgone : ((registry.store tool').deactivate name).activeVersions.get? name = none := by
        simp [deactivate, Dict.get?_erase]
      simp only [hgone, true_and]
      split_ifs with h
      · rfl
      · exact (Option.not_isSome_iff_eq_none.mp h).symm
    · rw [activeVersions_fallBack, if_neg fun h => hn h.1]
      exact (Dict.get?_erase ..).trans (if_neg hn)
  · refine ⟨tool', registry.store tool', ?_, rfl, rfl,
      versions_store_moved hget tool' rfl rfl, ?_, fun _ _ => rfl⟩
    · simp only [transition, hget, if_neg (not_not.mpr ht)]
      exact congrArg (Prod.mk _) (if_neg hactive)
    · rw [if_neg (by decide), if_neg hactive]
      rfl

theorem transition_moves {target : ToolStatus}
    (hget : registry.get name (some version) = some tool)
    (ht : target ∈ validTransitions tool.status) :
    ∃ tool' registry',
      registry.transition name listOf version target reason replacement now
        = (.ok tool', registry') ∧ Moves registry name version target tool tool' registry' := by
  rcases target with _ | _ | _
  · rcases hs : tool.status with _ | _ | _ <;> simp [hs, validTransitions] at ht
  · exact transition_available listOf reason replacement now hget ht
  · exact transition_deprecated listOf reason replacement now hget ht

/-- What is not there, or cannot go there, is not moved. -/
theorem transition_raises {target : ToolStatus}
    (h : ∀ tool, registry.get name (some version) = some tool →
      target ∉ validTransitions tool.status) :
    ∃ message, registry.transition name listOf version target reason replacement now
      = (.error (.valueError message), registry) := by
  unfold transition
  rcases hget : registry.get name (some version) with _ | tool
  · exact ⟨_, rfl⟩
  · exact ⟨_, if_pos (h tool hget)⟩

end Moved

theorem step_transition (listOf) {name version : String} (target : ToolStatus)
    (reason replacement : String) (now : ℚ) (hversion : version ≠ "") :
    RegistryStep (event exec registry
      (.transition listOf name version target reason replacement now)) := by
  by_cases h : ∀ tool, registry.get name (some version) = some tool →
      target ∉ validTransitions tool.status
  · obtain ⟨message, hmove⟩ := transition_raises listOf reason replacement now h
    exact .raised ⟨_, congrArg (RegistryAnswer.tool ∘ Prod.fst) hmove⟩ (congrArg Prod.snd hmove)
  · push Not at h
    obtain ⟨tool, hget, ht⟩ := h
    obtain ⟨tool', registry', hmove, hmoves⟩ :=
      transition_moves listOf reason replacement now hget ht
    rw [get_some hversion] at hget
    have hkey : tool.version = version := (registry.versions_keyed name hget).2
    have hafter : (event exec registry
        (.transition listOf name version target reason replacement now)).after = registry' :=
      congrArg Prod.snd hmove
    refine .moved listOf name version target reason replacement now tool tool' rfl
      (congrArg (RegistryAnswer.tool ∘ Prod.fst) hmove) hversion hget ht hmoves.status_eq
      (hmoves.version_eq.trans hkey) ?_ ?_ ?_
    · rw [hafter, ← hkey]
      exact hmoves.versions_eq
    · rw [hafter]
      exact hmoves.active_eq
    · rw [hafter]
      exact hmoves.rest_eq

theorem step_exec {call : RegistryCall} (h : call.NamesVersion) :
    RegistryStep (event exec registry call) := by
  cases call with
  | register tool => exact step_register registry h
  | transition listOf name version target reason replacement now =>
    exact step_transition registry listOf target reason replacement now h
  | unregister name => exact step_unregister registry name

end Step

/-! ## The fallback -/

/-- The greatest registration time among the available versions, and the last registered one of
those who have it. -/
def IsFallback (versions : List ToolMeta) : Option String → Prop
  | none => ∀ tool ∈ versions, tool.status ≠ .available
  | some version => ∃ l₁ tool l₂, versions = l₁ ++ tool :: l₂ ∧ tool.version = version
    ∧ tool.status = .available
    ∧ (∀ other ∈ l₁, other.status = .available → other.registeredAt ≤ tool.registeredAt)
    ∧ ∀ other ∈ l₂, other.status = .available → other.registeredAt < tool.registeredAt

theorem isFallback_fallbackOf {versions : List ToolMeta} {version : String}
    (hnd : versions.Nodup)
    (hne : ∀ tool ∈ versions, tool.status = .available → tool.version ≠ version) :
    IsFallback versions (fallbackOf versions version) := by
  unfold fallbackOf
  cases hfind : (versions.insertionSort fun a b => a.registeredAt ≤ b.registeredAt).reverse.find?
    fun tool => decide (tool.status = .available ∧ tool.version ≠ version) with
  | none =>
    intro tool htool hstatus
    rw [List.find?_eq_none] at hfind
    exact hfind tool (by simpa using htool) (by simpa using ⟨hstatus, hne tool htool hstatus⟩)
  | some tool =>
    obtain ⟨hp, l₁, l₂, hl, h₁, h₂⟩ := find?_reverse_insertionSort hnd hfind
    have hmem (l : List ToolMeta) (hsub : l ⊆ versions) (other : ToolMeta) (ho : other ∈ l)
        (hs : other.status = .available) :
        decide (other.status = .available ∧ other.version ≠ version) :=
      decide_eq_true ⟨hs, hne other (hsub ho) hs⟩
    exact ⟨l₁, tool, l₂, hl, rfl, (of_decide_eq_true hp).1,
      fun other ho hs => h₁ other ho (hmem l₁ (by simp [hl]) other ho hs),
      fun other ho hs => h₂ other ho (hmem l₂ (by simp [hl]) other ho hs)⟩

/-! ## The law of one name -/

/-- The version that was registered under the name. -/
def registeredVersion (name : String) (e : RegistryEvent) : Option String :=
  match e.input, e.output with
  | .register tool, .tool (.ok _) => if tool.name = name then some tool.version else none
  | _, _ => none

def registers (name version : String) (e : RegistryEvent) : Bool :=
  registeredVersion name e = some version

def unregisters (name : String) (e : RegistryEvent) : Bool :=
  match e.input, e.output with
  | .unregister n, .removed true => n = name
  | _, _ => false

/-- The version was moved to `DEPRECATED`. -/
def Deprecates (name version : String) (e : RegistryEvent) : Prop :=
  ∃ listOf reason replacement now tool,
    e.input = .transition listOf name version .deprecated reason replacement now
      ∧ e.output = .tool (.ok tool)

structure ActiveLaw (name : String) (tr : List RegistryEvent) (registry : ToolRegistry) :
    Prop where
  nonempty : ∀ v tool, (registry.versions name).get? v = some tool → v ≠ ""
  registered : ∀ v, registry.activeVersions.get? name = some v →
    ∃ tool, (registry.versions name).get? v = some tool
  available : ∀ v tool, (registry.versions name).get? v = some tool → tool.status = .available →
    ∃ w tool', registry.activeVersions.get? name = some w
      ∧ (registry.versions name).get? w = some tool' ∧ tool'.status = .available
  notMoved : ∀ v, registry.activeVersions.get? name = some v →
    ¬ OccursSince (registers name v) (Deprecates name v) tr
  moved : ∀ v tool, (registry.versions name).get? v = some tool →
    OccursSince (registers name v) (Deprecates name v) tr → tool.status = .deprecated
  order : (registry.versions name).keys
    = (sinceLast (unregisters name) tr).filterMap (registeredVersion name)

section Law

variable {name : String} {tr : List RegistryEvent} {e : RegistryEvent}

theorem activeLaw_empty : ActiveLaw name [] ∅ where
  nonempty _ _ h := by cases h
  registered _ h := by cases h
  available _ _ h := by cases h
  notMoved _ h := by cases h
  moved _ _ h := by cases h
  order := rfl

/-- A call that registers and deprecates nothing. -/
theorem occursSince_quiet (hreg : registeredVersion name e = none)
    (hdep : ∀ v, ¬ Deprecates name v e) (v : String) :
    OccursSince (registers name v) (Deprecates name v) (tr ++ [e])
      ↔ OccursSince (registers name v) (Deprecates name v) tr := by
  rw [occursSince_concat]
  simp [registers, hreg, hdep v]

/-- A call that has to do with another name, or that changes nothing. -/
theorem ActiveLaw.frame (h : ActiveLaw name tr e.before)
    (hv : e.after.versions name = e.before.versions name)
    (ha : e.after.activeVersions.get? name = e.before.activeVersions.get? name)
    (hreg : registeredVersion name e = none) (hun : unregisters name e = false)
    (hdep : ∀ v, ¬ Deprecates name v e) : ActiveLaw name (tr ++ [e]) e.after := by
  constructor <;> simp only [hv, ha, occursSince_quiet hreg hdep]
  · exact h.nonempty
  · exact h.registered
  · exact h.available
  · exact h.notMoved
  · exact h.moved
  · rw [sinceLast_concat, hun, h.order]
    simp [hreg]

theorem ActiveLaw.unregister (hi : unregisters name e) (hv : e.after.versions name = ∅)
    (ha : e.after.activeVersions.get? name = none) : ActiveLaw name (tr ++ [e]) e.after := by
  constructor
  · simp [hv]
  · simp [ha]
  · simp [hv]
  · simp [ha]
  · simp [hv]
  · rw [sinceLast_concat, if_pos hi, hv]
    rfl

theorem ActiveLaw.register (h : ActiveLaw name tr e.before) (tool : ToolMeta)
    (hreg : registeredVersion name e = some tool.version) (hun : unregisters name e = false)
    (hdep : ∀ v, ¬ Deprecates name v e) (hversion : tool.version ≠ "")
    (hb : (e.before.versions name).get? tool.version = none)
    (hv : e.after.versions name = (e.before.versions name).set tool.version tool)
    (ha : e.after.activeVersions.get? name
      = if e.before.activeVersions.get? name = none ∨ tool.status = .available
        then some tool.version else e.before.activeVersions.get? name) :
    ActiveLaw name (tr ++ [e]) e.after := by
  have hnew : (e.after.versions name).get? tool.version = some tool := by
    rw [hv, Dict.get?_set_self]
  have hold {v : String} (hne : tool.version ≠ v) :
      (e.after.versions name).get? v = (e.before.versions name).get? v := by
    rw [hv, Dict.get?_set_ne _ _ hne]
  have hthere {v : String} {other : ToolMeta}
      (ho : (e.before.versions name).get? v = some other) : tool.version ≠ v := by
    rintro rfl
    rw [hb] at ho
    cases ho
  have hsince (v : String) : OccursSince (registers name v) (Deprecates name v) (tr ++ [e])
      ↔ tool.version ≠ v ∧ OccursSince (registers name v) (Deprecates name v) tr := by
    rw [occursSince_concat]
    simp [registers, hreg, hdep v]
  constructor
  · intro v other hget
    by_cases heq : tool.version = v
    · exact heq ▸ hversion
    · exact h.nonempty v other (hold heq ▸ hget)
  · intro v hactive
    rw [ha] at hactive
    split_ifs at hactive
    · obtain rfl := Option.some.inj hactive
      exact ⟨tool, hnew⟩
    · obtain ⟨other, ho⟩ := h.registered v hactive
      exact ⟨other, by rw [hold (hthere ho), ho]⟩
  · intro v other hget hstatus
    rw [ha]
    by_cases hav : tool.status = .available
    · exact ⟨tool.version, tool, if_pos (.inr hav), hnew, hav⟩
    · have hne : tool.version ≠ v := by
        rintro rfl
        rw [hnew] at hget
        cases hget
        exact hav hstatus
      obtain ⟨w, tool', hw, hw', hs⟩ := h.available v other (hold hne ▸ hget) hstatus
      exact ⟨w, tool', by simp [hw, hav], by rw [hold (hthere hw'), hw'], hs⟩
  · intro v hactive
    rw [hsince]
    rintro ⟨hne, hocc⟩
    rw [ha] at hactive
    split_ifs at hactive
    · exact hne (Option.some.inj hactive)
    · exact h.notMoved v hactive hocc
  · intro v other hget hocc
    rw [hsince] at hocc
    exact h.moved v other (hold hocc.1 ▸ hget) hocc.2
  · have hnot : tool.version ∉ (e.before.versions name).keys := by
      rw [Dict.mem_keys_iff, hb]
      simp
    rw [hv, Dict.keys_set, if_neg hnot, sinceLast_concat, hun, h.order]
    simp [hreg]

section Move

variable {version : String} {tool tool' : ToolMeta}

/-- The versions after a move, which differ in the one that was moved. -/
theorem get?_of_moved (hv : e.after.versions name = (e.before.versions name).set version tool')
    {v : String} (hne : v ≠ version) :
    (e.after.versions name).get? v = (e.before.versions name).get? v := by
  rw [hv, Dict.get?_set_ne _ _ hne.symm]

/-- A move makes no version. -/
theorem ActiveLaw.nonempty_of_moved (h : ActiveLaw name tr e.before)
    (hb : (e.before.versions name).get? version = some tool)
    (hv : e.after.versions name = (e.before.versions name).set version tool') {v : String}
    {other : ToolMeta} (hget : (e.after.versions name).get? v = some other) : v ≠ "" := by
  by_cases heq : v = version
  · exact heq ▸ h.nonempty version tool hb
  · exact h.nonempty v other (get?_of_moved hv heq ▸ hget)

/-- A move leaves the versions in their order. -/
theorem ActiveLaw.order_of_moved (h : ActiveLaw name tr e.before)
    (hreg : registeredVersion name e = none) (hun : unregisters name e = false)
    (hb : (e.before.versions name).get? version = some tool)
    (hv : e.after.versions name = (e.before.versions name).set version tool') :
    (e.after.versions name).keys
      = (sinceLast (unregisters name) (tr ++ [e])).filterMap (registeredVersion name) := by
  have hmem : version ∈ (e.before.versions name).keys := by
    rw [Dict.mem_keys_iff, hb]
    rfl
  rw [hv, Dict.keys_set, if_pos hmem, sinceLast_concat, hun, h.order]
  simp [hreg]

theorem ActiveLaw.publish (h : ActiveLaw name tr e.before) (hreg : registeredVersion name e = none)
    (hun : unregisters name e = false) (hdep : ∀ v, ¬ Deprecates name v e)
    (hb : (e.before.versions name).get? version = some tool) (hs : tool.status ≠ .deprecated)
    (hs' : tool'.status = .available)
    (hv : e.after.versions name = (e.before.versions name).set version tool')
    (ha : e.after.activeVersions.get? name = some version) :
    ActiveLaw name (tr ++ [e]) e.after := by
  have hnew : (e.after.versions name).get? version = some tool' := by
    rw [hv, Dict.get?_set_self]
  have hnot : ¬ OccursSince (registers name version) (Deprecates name version) tr :=
    fun hocc => hs (h.moved version tool hb hocc)
  constructor
  · exact fun v other => h.nonempty_of_moved hb hv
  · intro v hactive
    rw [ha] at hactive
    exact ⟨tool', Option.some.inj hactive ▸ hnew⟩
  · exact fun _ _ _ _ => ⟨version, tool', ha, hnew, hs'⟩
  · intro v hactive
    rw [ha] at hactive
    rw [occursSince_quiet hreg hdep, ← Option.some.inj hactive]
    exact hnot
  · intro v other hget hocc
    rw [occursSince_quiet hreg hdep] at hocc
    have hne : v ≠ version := by
      rintro rfl
      exact hnot hocc
    exact h.moved v other (get?_of_moved hv hne ▸ hget) hocc
  · exact h.order_of_moved hreg hun hb hv

/-- The fallback of a deprecation is one of the versions that are available after it. -/
theorem isFallback_moved (hs' : tool'.status = .deprecated)
    (hv : e.after.versions name = (e.before.versions name).set version tool') :
    IsFallback (e.after.versions name).values
      (fallbackOf (e.after.versions name).values version) := by
  have hkeyed (v : String) (other : ToolMeta)
      (ho : (e.after.versions name).get? v = some other) : other.version = v :=
    (e.after.versions_keyed name ho).2
  refine isFallback_fallbackOf (Dict.nodup_map_values hkeyed).of_map fun other hother hav heq => ?_
  rw [Dict.mem_values_iff hkeyed, heq, hv, Dict.get?_set_self] at hother
  rw [← Option.some.inj hother, hs'] at hav
  cases hav

/-- What is active after a deprecation is available, or it was active before and is not the one that
was moved. -/
theorem available_or_active_of_moved (hs' : tool'.status = .deprecated)
    (hv : e.after.versions name = (e.before.versions name).set version tool')
    (ha : e.after.activeVersions.get? name
      = if e.before.activeVersions.get? name = some version
        then fallbackOf (e.after.versions name).values version
        else e.before.activeVersions.get? name) {v : String}
    (hact : e.after.activeVersions.get? name = some v) :
    (∃ other, (e.after.versions name).get? v = some other ∧ other.status = .available)
      ∨ v ≠ version ∧ e.before.activeVersions.get? name = some v := by
  have hkeyed (v : String) (other : ToolMeta)
      (ho : (e.after.versions name).get? v = some other) : other.version = v :=
    (e.after.versions_keyed name ho).2
  have hfallback := isFallback_moved hs' hv
  rw [ha] at hact
  split_ifs at hact with hwas
  · rw [hact] at hfallback
    obtain ⟨l₁, other, l₂, hl, rfl, hav, -⟩ := hfallback
    exact .inl ⟨other, (Dict.mem_values_iff hkeyed).mp (by simp [hl]), hav⟩
  · exact .inr ⟨fun heq => hwas (heq ▸ hact), hact⟩

theorem ActiveLaw.deprecate (h : ActiveLaw name tr e.before)
    (hreg : registeredVersion name e = none) (hun : unregisters name e = false)
    (hdep : ∀ v, Deprecates name v e ↔ v = version)
    (hb : (e.before.versions name).get? version = some tool)
    (hs' : tool'.status = .deprecated)
    (hv : e.after.versions name = (e.before.versions name).set version tool')
    (ha : e.after.activeVersions.get? name
      = if e.before.activeVersions.get? name = some version
        then fallbackOf (e.after.versions name).values version
        else e.before.activeVersions.get? name) : ActiveLaw name (tr ++ [e]) e.after := by
  have hnew : (e.after.versions name).get? version = some tool' := by
    rw [hv, Dict.get?_set_self]
  have hsince (v : String) : OccursSince (registers name v) (Deprecates name v) (tr ++ [e])
      ↔ v = version ∨ OccursSince (registers name v) (Deprecates name v) tr := by
    rw [occursSince_concat, hdep]
    simp [registers, hreg]
  have hgone {v : String} {other : ToolMeta} (hget : (e.after.versions name).get? v = some other)
      (hav : other.status = .available) : v ≠ version := by
    rintro rfl
    rw [hnew] at hget
    rw [← Option.some.inj hget, hs'] at hav
    cases hav
  have hkeyed (v : String) (other : ToolMeta)
      (ho : (e.after.versions name).get? v = some other) : other.version = v :=
    (e.after.versions_keyed name ho).2
  have hfallback := isFallback_moved hs' hv
  constructor
  · exact fun v other => h.nonempty_of_moved hb hv
  · intro v hact
    rcases available_or_active_of_moved hs' hv ha hact with ⟨other, ho, -⟩ | ⟨hne, hwas⟩
    · exact ⟨other, ho⟩
    · obtain ⟨other, ho⟩ := h.registered v hwas
      exact ⟨other, by rw [get?_of_moved hv hne, ho]⟩
  · intro v other hget hav
    rw [ha]
    have hne := hgone hget hav
    split_ifs with hwas
    · cases hf : fallbackOf (e.after.versions name).values version with
      | none =>
        rw [hf] at hfallback
        obtain rfl := hkeyed v other hget
        exact absurd hav (hfallback other ((Dict.mem_values_iff hkeyed).mpr hget))
      | some w =>
        rw [hf] at hfallback
        obtain ⟨l₁, chosen, l₂, hl, rfl, hchosen, -⟩ := hfallback
        exact ⟨chosen.version, chosen, rfl, (Dict.mem_values_iff hkeyed).mp (by simp [hl]), hchosen⟩
    · obtain ⟨w, other', hw, hw', hav'⟩ := h.available v other (get?_of_moved hv hne ▸ hget) hav
      have hwne : w ≠ version := fun heq => hwas (heq ▸ hw)
      exact ⟨w, other', hw, by rw [get?_of_moved hv hwne, hw'], hav'⟩
  · intro v hact hocc
    rw [hsince] at hocc
    rcases available_or_active_of_moved hs' hv ha hact with ⟨other, ho, hav⟩ | ⟨hne, hwas⟩
    · have hne := hgone ho hav
      have hdeprecated := h.moved v other (get?_of_moved hv hne ▸ ho) (hocc.resolve_left hne)
      rw [hdeprecated] at hav
      cases hav
    · exact h.notMoved v hwas (hocc.resolve_left hne)
  · intro v other hget hocc
    rw [hsince] at hocc
    by_cases heq : v = version
    · rw [heq, hnew] at hget
      exact Option.some.inj hget ▸ hs'
    · exact h.moved v other (get?_of_moved hv heq ▸ hget) (hocc.resolve_left heq)
  · exact h.order_of_moved hreg hun hb hv

end Move

theorem ActiveLaw.concat (h : ActiveLaw name tr e.before) (hstep : RegistryStep e) :
    ActiveLaw name (tr ++ [e]) e.after := by
  cases hstep with
  | raised ho hsame =>
    obtain ⟨error, ho⟩ := ho
    refine h.frame (by rw [hsame]) (by rw [hsame]) ?_ ?_ ?_
    · unfold registeredVersion
      rw [ho]
      cases e.input <;> rfl
    · unfold unregisters
      rw [ho]
      cases e.input <;> rfl
    · rintro v ⟨_, _, _, _, tool, -, ho'⟩
      rw [ho] at ho'
      cases ho'
  | missing n hi ho hb hsame =>
    refine h.frame (by rw [hsame]) (by rw [hsame]) ?_ ?_ ?_
    · simp only [registeredVersion, hi]
    · simp only [unregisters, hi, ho]
    · rintro v ⟨_, _, _, _, tool, hi', -⟩
      rw [hi] at hi'
      cases hi'
  | unregistered n hi ho hv ha =>
    by_cases hn : n = name
    · subst hn
      exact .unregister (by simp [unregisters, hi, ho]) (by simp [hv]) (by simp [ha])
    · refine h.frame (by rw [hv, if_neg hn]) (by rw [ha, if_neg hn]) ?_ ?_ ?_
      · simp only [registeredVersion, hi]
      · simp [unregisters, hi, ho, hn]
      · rintro v ⟨_, _, _, _, tool, hi', -⟩
        rw [hi] at hi'
        cases hi'
  | registered tool hi ho hversion hb hv ha =>
    have hun : unregisters name e = false := by simp only [unregisters, hi]
    have hdep (v : String) : ¬ Deprecates name v e := by
      rintro ⟨_, _, _, _, tool, hi', -⟩
      rw [hi] at hi'
      cases hi'
    by_cases hn : tool.name = name
    · subst hn
      refine h.register tool ?_ hun hdep hversion hb ?_ ?_
      · simp [registeredVersion, hi, ho]
      · rw [hv, if_pos rfl]
      · rw [ha]
        simp only [true_and]
    · refine h.frame (by rw [hv, if_neg hn]) (by rw [ha, if_neg fun hand => hn hand.1]) ?_ hun hdep
      simp [registeredVersion, hi, ho, hn]
  | moved listOf n version target reason replacement now tool tool' hi ho hversion hb ht hstatus
      hreg hv ha hrest =>
    have hnone : registeredVersion name e = none := by simp only [registeredVersion, hi]
    have hun : unregisters name e = false := by simp only [unregisters, hi]
    have hdep (v : String) : Deprecates name v e
        ↔ n = name ∧ v = version ∧ target = .deprecated := by
      constructor
      · rintro ⟨_, _, _, _, tool, hi', -⟩
        rw [hi] at hi'
        cases hi'
        exact ⟨rfl, rfl, rfl⟩
      · rintro ⟨rfl, rfl, rfl⟩
        exact ⟨listOf, reason, replacement, now, tool', hi, ho⟩
    by_cases hn : n = name
    · subst hn
      cases target with
      | draft => cases hs : tool.status <;> simp [hs, validTransitions] at ht
      | available =>
        refine h.publish hnone hun (by simp [hdep]) hb ?_ hstatus (by rw [hv, if_pos rfl]) ?_
        · intro hs
          simp [hs, validTransitions] at ht
        · rw [ha, if_pos rfl]
      | deprecated =>
        refine h.deprecate hnone hun (by simp [hdep]) hb hstatus (by rw [hv, if_pos rfl]) ?_
        rw [ha, if_neg (by decide)]
    · exact h.frame (by rw [hv, if_neg hn]) (hrest name hn) hnone hun (by simp [hdep, hn])

end Law

section Run

variable {calls : List RegistryCall} (hcalls : ∀ call ∈ calls, call.NamesVersion)
include hcalls

theorem activeLaw_run (name : String) :
    ActiveLaw name (events exec ∅ calls) (final exec ∅ calls) :=
  history_induct activeLaw_empty fun _ registry call hcall h =>
    h.concat (step_exec registry (hcalls call hcall))

theorem step_of_mem_events {e : RegistryEvent} (he : e ∈ events exec ∅ calls) : RegistryStep e := by
  obtain ⟨calls₁, call, calls₂, rfl, rfl⟩ := exists_of_mem_events he
  exact step_exec _ (hcalls call (by simp))

end Run

/-- What `get` returns is the active version. -/
theorem ActiveLaw.get_eq {name : String} {tr : List RegistryEvent} {registry : ToolRegistry}
    (h : ActiveLaw name tr registry) :
    registry.get name none = (registry.activeVersions.get? name).bind
      (registry.versions name).get? := by
  have htools : registry.get name none = match registry.activeVersions.get? name with
      | none => none
      | some v => if v ≠ "" then (registry.versions name).get? v else none := by
    unfold get versions
    cases registry.tools.get? name with
    | none => cases registry.activeVersions.get? name <;> simp
    | some versions => rfl
  rw [htools]
  cases hactive : registry.activeVersions.get? name with
  | none => rfl
  | some v =>
    obtain ⟨tool, htool⟩ := h.registered v hactive
    exact if_pos (h.nonempty v tool htool)

/-- A version that stays changes its status only by a move that is allowed. -/
theorem status_of_step {e : RegistryEvent} (hstep : RegistryStep e) {name v : String}
    {tool tool' : ToolMeta} (hb : (e.before.versions name).get? v = some tool)
    (ha : (e.after.versions name).get? v = some tool') (hne : tool.status ≠ tool'.status) :
    tool'.status ∈ validTransitions tool.status := by
  have hsame (h : (e.after.versions name).get? v = (e.before.versions name).get? v) : False := by
    rw [h, hb] at ha
    exact hne (congrArg ToolMeta.status (Option.some.inj ha))
  cases hstep with
  | raised ho h => exact (hsame (by rw [h])).elim
  | missing n hi ho hn h => exact (hsame (by rw [h])).elim
  | unregistered n hi ho hv =>
    rw [hv] at ha hsame
    split_ifs at ha hsame with hn
    · cases ha
    · exact (hsame rfl).elim
  | registered new hi ho hversion hnone hv =>
    rw [hv] at ha hsame
    split_ifs at ha hsame with hn
    · rw [Dict.get?_set] at ha hsame
      split_ifs at ha hsame with hnv
      · subst hn hnv
        rw [hnone] at hb
        cases hb
      · exact (hsame rfl).elim
    · exact (hsame rfl).elim
  | moved listOf n version target reason replacement now old new hi ho hversion hold ht hstatus hreg
      hv =>
    rw [hv] at ha hsame
    split_ifs at ha hsame with hn
    · rw [Dict.get?_set] at ha hsame
      split_ifs at ha hsame with hnv
      · subst hn hnv
        rw [hold] at hb
        rw [← Option.some.inj ha, ← Option.some.inj hb, hstatus]
        exact ht
      · exact (hsame rfl).elim
    · exact (hsame rfl).elim

theorem unchanged_of_raised {e : RegistryEvent} (hstep : RegistryStep e) {error : PyError}
    (h : e.output = .tool (.error error)) : e.after = e.before := by
  cases hstep with
  | raised ho hsame => exact hsame
  | missing n hi ho hn hsame => exact hsame
  | unregistered n hi ho => rw [h] at ho; cases ho
  | registered tool hi ho => rw [h] at ho; cases ho
  | moved listOf n version target reason replacement now tool tool' hi ho =>
    rw [h] at ho
    cases ho

/-- A deprecation of the active version falls back. -/
theorem fallback_of_step {e : RegistryEvent} (hstep : RegistryStep e) {name v : String}
    (hactive : e.before.activeVersions.get? name = some v) (hdep : Deprecates name v e) :
    IsFallback (e.after.versions name).values (e.after.activeVersions.get? name) := by
  obtain ⟨_, _, _, _, _, hi', ho'⟩ := hdep
  cases hstep with
  | raised ho => obtain ⟨_, ho⟩ := ho; rw [ho] at ho'; cases ho'
  | missing n hi => rw [hi] at hi'; cases hi'
  | unregistered n hi => rw [hi] at hi'; cases hi'
  | registered tool hi => rw [hi] at hi'; cases hi'
  | moved listOf n version target reason replacement now tool tool' hi ho hversion hb ht hstatus
      hreg hv ha =>
    rw [hi] at hi'
    cases hi'
    rw [ha, if_neg (by decide), if_pos hactive]
    exact isFallback_moved hstatus (by rw [hv, if_pos rfl])

/-- After any calls: the active version is registered, and it is available if any version is; it
was not deprecated since it was last registered; the versions are in the order of their
registration. In any call: a deprecation of the active version falls back, statuses only change
along the life cycle, and a call that raises changes nothing. -/
theorem active_version_law (calls : List RegistryCall)
    (hcalls : ∀ call ∈ calls, call.NamesVersion) :
    (∀ name, let registry := final exec ∅ calls
      (∀ v, registry.activeVersions.get? name = some v →
        ∃ tool, (registry.versions name).get? v = some tool)
      ∧ (∀ v tool, (registry.versions name).get? v = some tool → tool.status = .available →
        ∃ tool', registry.get name none = some tool' ∧ tool'.status = .available)
      ∧ (∀ tool, registry.get name none = some tool →
        ¬ OccursSince (registers name tool.version) (Deprecates name tool.version)
          (events exec ∅ calls))
      ∧ (registry.versions name).keys = (sinceLast (unregisters name)
        (events exec ∅ calls)).filterMap (registeredVersion name))
    ∧ ∀ e ∈ events exec ∅ calls,
      (∀ name v, e.before.activeVersions.get? name = some v → Deprecates name v e →
        IsFallback (e.after.versions name).values (e.after.activeVersions.get? name))
      ∧ (∀ name v tool tool', (e.before.versions name).get? v = some tool →
        (e.after.versions name).get? v = some tool' → tool.status ≠ tool'.status →
        (tool.status, tool'.status)
          ∈ [(.draft, .available), (.draft, .deprecated), (.available, .deprecated)])
      ∧ ∀ error, e.output = .tool (.error error) → e.after = e.before := by
  refine ⟨fun name => ?_, fun e he => ?_⟩
  · have hlaw := activeLaw_run hcalls name
    have hget := hlaw.get_eq
    refine ⟨hlaw.registered, fun v tool hv hav => ?_, fun tool htool => ?_, hlaw.order⟩
    · obtain ⟨w, tool', hw, hw', hav'⟩ := hlaw.available v tool hv hav
      exact ⟨tool', by rw [hget, hw, Option.bind_some, hw'], hav'⟩
    · rw [hget, Option.bind_eq_some_iff] at htool
      obtain ⟨v, hv, htool⟩ := htool
      rw [((final exec ∅ calls).versions_keyed name htool).2]
      exact hlaw.notMoved v hv
  · have hstep := step_of_mem_events hcalls he
    refine ⟨fun name v => fallback_of_step hstep, fun name v tool tool' hb ha hne => ?_,
      fun error => unchanged_of_raised hstep⟩
    have hmove := status_of_step hstep hb ha hne
    cases hs : tool.status <;> cases hs' : tool'.status <;>
      simp [hs, hs', validTransitions] at hmove ⊢

/-- Two versions, of which the newer one is deprecated again. -/
theorem active_version_law_two_versions :
    let v1 : ToolMeta :=
      { name := "search", version := "1.0.0", description := "", registeredAt := 1, updatedAt := 1 }
    let calls := [.register v1, .transition id "search" "1.0.0" .available "" "" 2,
      .register { v1 with version := "2.0.0", status := .available, registeredAt := 3 },
      .transition id "search" "2.0.0" .deprecated "broken" "" 4]
    let registry := final exec ∅ calls
    ∃ tool, registry.get "search" none = some tool ∧ tool.status = .available := by
  intro v1 calls registry
  have hcalls : ∀ call ∈ calls, call.NamesVersion := by
    simp [calls, RegistryCall.NamesVersion, v1]
  have hav : ((registry.versions "search").get? "1.0.0").map ToolMeta.status
      = some .available := by decide +kernel
  obtain ⟨tool, htool, hstatus⟩ := Option.map_eq_some_iff.mp hav
  exact ((active_version_law calls hcalls).1 "search").2.1 "1.0.0" tool htool hstatus

/-- A version that was deprecated comes back as the active one when, after its tool was
unregistered, it is registered again as it is. -/
theorem deprecated_version_registered_again :
    ¬ ∀ calls : List RegistryCall, (∀ call ∈ calls, call.NamesVersion) →
      ∀ name tool, (final exec ∅ calls).get name none = some tool →
        ∀ e ∈ events exec ∅ calls, ¬ Deprecates name tool.version e := by
  intro h
  let v1 : ToolMeta :=
    { name := "search", version := "1.0.0", description := "", registeredAt := 1, updatedAt := 1 }
  let v1' : ToolMeta := { v1 with status := .deprecated, updatedAt := 2 }
  let calls : List RegistryCall := [.register v1,
    .transition id "search" "1.0.0" .deprecated "" "" 2, .unregister "search", .register v1']
  have hcalls : ∀ call ∈ calls, call.NamesVersion := by
    simp [calls, RegistryCall.NamesVersion, v1, v1']
  have hactive : ((final exec ∅ calls).get "search" none).map ToolMeta.version
      = some "1.0.0" := by decide +kernel
  obtain ⟨tool, htool, hversion⟩ := Option.map_eq_some_iff.mp hactive
  have hok : (((∅ : ToolRegistry).register v1).2.transition "search" id "1.0.0" .deprecated "" ""
      2).1.isOk := by decide +kernel
  cases hmoved : (((∅ : ToolRegistry).register v1).2.transition
    "search" id "1.0.0" .deprecated "" ""
      2).1 with
  | error error =>
    rw [hmoved] at hok
    cases hok
  | ok moved =>
    refine h calls hcalls "search" tool htool _ (List.mem_cons_of_mem _ List.mem_cons_self) ?_
    rw [hversion]
    exact ⟨id, "", "", 2, moved, rfl, congrArg RegistryAnswer.tool hmoved⟩

end ToolRegistry

end AgentLearning.Gateway
