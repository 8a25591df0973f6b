import Mathlib.Data.List.Sort
import AgentLearning.Value

/-!
# The tool registry center

`src/gateway/tool_registry.py`: every version of a tool with its metadata, and which version of it
is the active one. Two dictionaries are kept in step by `register`, `transition` and `unregister`.
A call that raises does so before it changes anything.
-/

namespace AgentLearning.Gateway

inductive ToolStatus
  | draft
  | available
  | deprecated
  deriving DecidableEq, Repr

def ToolStatus.value : ToolStatus → String
  | draft => "draft"
  | available => "available"
  | deprecated => "deprecated"

structure QuotaConfig where
  qps : ℤ := 10
  maxConcurrent : ℤ := 5
  dailyLimit : ℤ := 1000
  deriving DecidableEq

/-- The schemas are dictionaries of JSON. -/
structure ToolMeta where
  name : String
  version : String
  description : String
  status : ToolStatus := .draft
  inputSchema : List (String × Json) := []
  outputSchema : List (String × Json) := []
  capabilities : List String := []
  requiredRoles : List String := ["public"]
  isSensitive : Bool := false
  quota : QuotaConfig := {}
  timeoutSeconds : ℚ := 30
  author : String := ""
  tags : List String := []
  registeredAt : ℚ
  updatedAt : ℚ
  deprecatedReason : String := ""
  replacementTool : String := ""

/-- Every version is under the name and the version that its metadata has. -/
structure ToolRegistry where
  tools : Dict String (Dict String ToolMeta) := ∅
  activeVersions : Dict String String := ∅
  keyed : ∀ name versions, tools.get? name = some versions →
    ∀ version tool, versions.get? version = some tool →
      tool.name = name ∧ tool.version = version := by simp

/-- `str` of a list of values of the enumeration. -/
def showStatuses (statuses : List ToolStatus) : String :=
  "[" ++ ", ".intercalate (statuses.map fun s => "'" ++ s.value ++ "'") ++ "]"

/-- The targets of `valid_transitions`, a set. -/
def validTransitions : ToolStatus → List ToolStatus
  | .draft => [.available, .deprecated]
  | .available => [.deprecated]
  | .deprecated => []

namespace ToolRegistry

instance : EmptyCollection ToolRegistry := ⟨{}⟩

variable (registry : ToolRegistry) (name : String)

/-- The versions of a tool in the order they were registered in. -/
def versions : Dict String ToolMeta := (registry.tools.get? name).getD ∅

theorem versions_keyed {version : String} {tool : ToolMeta}
    (h : (registry.versions name).get? version = some tool) :
    tool.name = name ∧ tool.version = version := by
  unfold versions at h
  cases hname : registry.tools.get? name with
  | none => simp [hname] at h
  | some versions =>
    rw [hname] at h
    exact registry.keyed name versions hname version tool h

/-- `self._tools[name][version] = meta`, in the place it has or as the last one. -/
def store (tool : ToolMeta) : ToolRegistry where
  tools := registry.tools.set tool.name
    ((registry.versions tool.name).set tool.version tool)
  activeVersions := registry.activeVersions
  keyed := by
    intro name versions h version other hother
    rw [Dict.get?_set] at h
    split_ifs at h with hname
    · cases h
      rw [Dict.get?_set] at hother
      split_ifs at hother with hversion
      · cases hother
        exact ⟨hname, hversion⟩
      · exact hname ▸ registry.versions_keyed tool.name hother
    · exact registry.keyed name versions h version other hother

/-- `self._active_versions[name] = version`. -/
def activate (version : String) : ToolRegistry :=
  { registry with activeVersions := registry.activeVersions.set name version }

/-- `self._active_versions.pop(name, None)`. -/
def deactivate : ToolRegistry :=
  { registry with activeVersions := registry.activeVersions.erase name }

def register (tool : ToolMeta) : Except PyError ToolMeta × ToolRegistry :=
  if ((registry.versions tool.name).get? tool.version).isSome then
    (.error (.valueError (s!"Tool '{tool.name}' version '{tool.version}' already registered. "
      ++ "Use a new version string for updates.")), registry)
  else
    let registry := registry.store tool
    (.ok tool,
      if (registry.activeVersions.get? tool.name).isNone ∨ tool.status = .available
      then registry.activate tool.name tool.version else registry)

/-- The version asked for, and the active one if that is missing or empty. -/
def get (version : Option String) : Option ToolMeta :=
  match registry.tools.get? name with
  | none => none
  | some versions =>
    if version.getD "" ≠ "" then versions.get? (version.getD "")
    else match registry.activeVersions.get? name with
      | none => none
      | some activeVer => if activeVer ≠ "" then versions.get? activeVer else none

theorem get_name {version : Option String} {tool : ToolMeta}
    (h : registry.get name version = some tool) : tool.name = name := by
  unfold get at h
  cases hname : registry.tools.get? name with
  | none => simp [hname] at h
  | some versions =>
    simp only [hname] at h
    split at h
    · exact (registry.keyed name versions hname _ tool h).1
    · split at h
      · cases h
      · split at h
        · exact (registry.keyed name versions hname _ tool h).1
        · cases h

def getAllVersions : List ToolMeta :=
  (registry.versions name).values.insertionSort fun a b => a.registeredAt ≤ b.registeredAt

/-- Makes the last of the available versions by registration time the active one. -/
def fallBack (version : String) : ToolRegistry :=
  match (registry.getAllVersions name).reverse.find?
    fun tool => tool.status = .available ∧ tool.version ≠ version with
  | none => registry
  | some tool => registry.activate name tool.version

/-- `listOf` is the order in which a set of statuses is listed. -/
def transition (listOf : List ToolStatus → List ToolStatus) (version : String)
    (targetStatus : ToolStatus) (reason replacement : String) (now : ℚ) :
    Except PyError ToolMeta × ToolRegistry :=
  match registry.get name (some version) with
  | none => (.error (.valueError s!"Tool '{name}' version '{version}' not found."), registry)
  | some tool =>
    if targetStatus ∉ validTransitions tool.status then
      (.error (.valueError
        (s!"Invalid transition: {tool.status.value} -> {targetStatus.value}. Allowed: "
          ++ showStatuses (listOf (validTransitions tool.status)))), registry)
    else
      let tool := { tool with status := targetStatus, updatedAt := now }
      match targetStatus with
      | .draft => (.ok tool, registry.store tool)
      | .available => (.ok tool, (registry.store tool).activate name version)
      | .deprecated =>
        let tool := { tool with deprecatedReason := reason, replacementTool := replacement }
        let registry := registry.store tool
        (.ok tool,
          if registry.activeVersions.get? name = some version
          then (registry.deactivate name).fallBack name version else registry)

def unregister : Bool × ToolRegistry :=
  ((registry.tools.get? name).isSome,
    if (registry.tools.get? name).isSome then
      { tools := registry.tools.erase name
        activeVersions := registry.activeVersions.erase name
        keyed := by
          intro other versions h
          rw [Dict.get?_erase] at h
          split_ifs at h
          exact registry.keyed other versions h }
    else registry)

end ToolRegistry

end AgentLearning.Gateway
