import AgentLearning.ConfigBackend

/-!
# The configuration center

`src/config_center/config_store.py` over any backend. A call that changes an entry gives the event
that the watchers are told of. A namespace is `ns` throughout.
-/

namespace AgentLearning

structure ConfigEntry where
  ns : String
  key : String
  value : Json
  version : ℤ := 0
  configType : String := "feature_flag"
  updatedAt : ℚ := 0
  description : String := ""

structure WatchEvent where
  ns : String
  key : String
  oldValue : Json
  newValue : Json
  oldVersion : ℤ
  newVersion : ℤ
  eventType : String := "updated"

def ConfigRecord.toEntry (record : ConfigRecord) : ConfigEntry where
  ns := record.ns
  key := record.key
  value := record.value
  version := record.version
  configType := record.configType
  updatedAt := record.updatedAt
  description := record.description

structure ConfigCenter (β : Type) where
  backend : β

namespace ConfigCenter

variable {β κ : Type} [DecidableEq κ] [ConfigBackend β κ] (center : ConfigCenter β)

def get (ns key : String) : Option ConfigEntry :=
  (ConfigBackend.get center.backend ns key).map ConfigRecord.toEntry

/-- The version after the one there is. -/
def nextVersion (existing : Option ConfigRecord) : ℤ :=
  ((existing.map ConfigRecord.version).getD 0) + 1

def put (ns key : String) (value : Json) (configType description : String) (now : ℚ) :
    (ConfigEntry × WatchEvent) × ConfigCenter β :=
  let existing := ConfigBackend.get center.backend ns key
  let record : ConfigRecord := {
    ns, key, value
    version := nextVersion existing
    configType
    updatedAt := now
    description }
  let event : WatchEvent := {
    ns, key
    oldValue := (existing.map ConfigRecord.value).getD .null
    newValue := value
    oldVersion := (existing.map ConfigRecord.version).getD 0
    newVersion := nextVersion existing
    eventType := if existing.isNone then "created" else "updated" }
  ((record.toEntry, event), { backend := ConfigBackend.put center.backend record })

def delete (ns key : String) : (Bool × Option WatchEvent) × ConfigCenter β :=
  match ConfigBackend.get center.backend ns key with
  | none => ((false, none), center)
  | some existing =>
    let event : WatchEvent := {
      ns, key
      oldValue := existing.value
      newValue := .null
      oldVersion := existing.version
      newVersion := existing.version
      eventType := "deleted" }
    ((true, some event), { backend := (ConfigBackend.delete center.backend ns key).2 })

def listAll : List ConfigEntry :=
  (ConfigBackend.listAll center.backend).map ConfigRecord.toEntry

def history (ns key : String) : List ConfigEntry :=
  (ConfigBackend.getHistory center.backend ns key).map ConfigRecord.toEntry

end ConfigCenter

/-- The calls that change something. -/
inductive CenterCall
  | put (ns key : String) (value : Json) (configType description : String) (now : ℚ)
  | delete (ns key : String)

/-- A call, with the event that the watchers are told of. -/
def ConfigCenter.exec {β κ : Type} [DecidableEq κ] [ConfigBackend β κ] (center : ConfigCenter β) :
    CenterCall → Option WatchEvent × ConfigCenter β
  | .put ns key value configType description now =>
    let ((_, event), center) := center.put ns key value configType description now
    (some event, center)
  | .delete ns key =>
    let ((_, event), center) := center.delete ns key
    (event, center)

end AgentLearning
