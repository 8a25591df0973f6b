import AgentLearning.ConfigCenter

/-!
# The configuration scripts

`scripts/export_config.py`, `scripts/import_config.py` and `scripts/init_default_config.py`, over
the table of `sqlite_backend.py`. What is written to a file is the document that is read from it. A
script stops at an item that raises, with what it put so far; texts are strings.
-/

namespace AgentLearning

abbrev SQLiteConfigCenter := ConfigCenter SQLiteConfigBackend

/-! ## Export -/

def ConfigEntry.document (e : ConfigEntry) : Json := .obj [
  ("namespace", .str e.ns),
  ("key", .str e.key),
  ("value", e.value),
  ("version", .int e.version),
  ("config_type", .str e.configType),
  ("description", .str e.description)]

def exportConfig (center : SQLiteConfigCenter) : Json :=
  .arr (center.listAll.map ConfigEntry.document)

/-! ## Import -/

/-- The arguments that a script puts an entry with. -/
structure ConfigItem where
  ns : String
  key : String
  value : Json
  configType : String := "feature_flag"
  description : String := ""

namespace ConfigItem

def pair (item : ConfigItem) : String × String := (item.ns, item.key)

/-- `item.get(name, default)` of a text. -/
def textOr (default name : String) (fields : List (String × Json)) : Option String :=
  match (getEntry name fields).getD (.str default) with
  | .str s => some s
  | _ => none

/-- `item[name]` of a text. -/
def text (name : String) (fields : List (String × Json)) : Option String :=
  match getEntry name fields with
  | some (.str s) => some s
  | _ => none

def ofDocument : Json → Option ConfigItem
  | .obj fields => do
    let ns ← text "namespace" fields
    let key ← text "key" fields
    let value ← getEntry "value" fields
    let configType ← textOr "feature_flag" "config_type" fields
    let description ← textOr "" "description" fields
    pure { ns, key, value, configType, description }
  | _ => none

/-- `center.put` with the item. -/
def putIn (item : ConfigItem) (now : ℚ) (center : SQLiteConfigCenter) : SQLiteConfigCenter :=
  (center.put item.ns item.key item.value item.configType item.description now).2

end ConfigItem

/-- What iterating over a document gives. -/
def Json.iterate : Json → Option (List Json)
  | .arr items => some items
  | .obj fields => some (fields.map fun field => .str field.1)
  | .str s => some (s.toList.map fun c => .str (String.singleton c))
  | _ => none

/-- The loop of the import; the number is of what was imported, and the reading of the clock at a
put is numbered so too. -/
def importItems (now : ℕ → ℚ) (imported : ℕ) :
    List Json → SQLiteConfigCenter → Option ℕ × SQLiteConfigCenter
  | [], center => (some imported, center)
  | document :: documents, center =>
    match ConfigItem.ofDocument document with
    | none => (none, center)
    | some item => importItems now (imported + 1) documents (item.putIn (now imported) center)

def importConfig (now : ℕ → ℚ) (data : Json) (center : SQLiteConfigCenter) :
    Option ℕ × SQLiteConfigCenter :=
  match data.iterate with
  | none => (none, center)
  | some items => importItems now 0 items center

/-! ## Defaults -/

def defaultConfigs : List ConfigItem := [
  { ns := "alert_rules"
    key := "low_e2e_success_rate"
    configType := "alert_rule"
    value := .obj [
      ("name", .str "low_e2e_success_rate"),
      ("severity", .str "P1"),
      ("metric", .str "e2e_success_rate"),
      ("threshold", .float (3 / 4)),
      ("comparator", .str "lt"),
      ("route", .str "oncall+owner+war-room"),
      ("description", .str "E2E success rate drops below SLO.")] },
  { ns := "alert_rules"
    key := "high_p95_latency"
    configType := "alert_rule"
    value := .obj [
      ("name", .str "high_p95_latency"),
      ("severity", .str "P2"),
      ("metric", .str "p95_latency_ms"),
      ("threshold", .float (15 / 2)),
      ("comparator", .str "gt"),
      ("route", .str "owner+team-channel"),
      ("description", .str "P95 latency exceeds smoke baseline tolerance.")] },
  { ns := "feature_flags"
    key := "enable_multi_agent"
    configType := "feature_flag"
    value := .bool true
    description := "Enable multi-agent collaboration pipeline." },
  { ns := "feature_flags"
    key := "enable_ab_routing"
    configType := "feature_flag"
    value := .bool true
    description := "Enable A/B experiment routing." },
  { ns := "gateway"
    key := "circuit_breaker_defaults"
    configType := "gateway"
    value := .obj [
      ("failure_threshold", .int 5),
      ("recovery_timeout", .float 30),
      ("success_threshold", .int 2),
      ("window_size", .float 60)]
    description := "Default circuit breaker configuration." },
  { ns := "experiments"
    key := "refund-decision-exp"
    configType := "experiment"
    value := .obj [
      ("experiment_id", .str "refund-decision-exp"),
      ("default_variant", .str "control"),
      ("variants", .arr [
        .obj [("name", .str "control"), ("percentage", .float 90)],
        .obj [("name", .str "assistant_v2"), ("percentage", .float 10)]]),
      ("salt", .str "w8"),
      ("guardrails", .arr [
        .obj [("metric", .str "success_rate"), ("comparator", .str "lt"),
          ("threshold", .float (23 / 25))],
        .obj [("metric", .str "latency.p95_ms"), ("comparator", .str "gt"),
          ("threshold", .float 2500)]])]
    description := "Refund decision experiment." }]

/-- The loop over the defaults: an entry that is there is skipped. -/
def initItems (now : ℕ → ℚ) (created : ℕ) :
    List ConfigItem → SQLiteConfigCenter → ℕ × SQLiteConfigCenter
  | [], center => (created, center)
  | item :: items, center =>
    match center.get item.ns item.key with
    | some _ => initItems now created items center
    | none => initItems now (created + 1) items (item.putIn (now created) center)

def initDefaultConfig (now : ℕ → ℚ) (center : SQLiteConfigCenter) : ℕ × SQLiteConfigCenter :=
  initItems now 0 defaultConfigs center

end AgentLearning
