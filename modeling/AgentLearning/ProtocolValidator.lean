import AgentLearning.ContractValidator

/-!
# The validator of messages between agents

`src/multi_agent/protocol_validator.py` and the schema that is published for the same messages,
`contracts/multi-agent-message.schema.json`. A check gives the errors it adds to the list, or the
exception that a value of the wrong kind makes it raise.
-/

namespace AgentLearning

open Gateway

namespace Json

/-- `value.get(key, default)`. -/
def pyGet (value : Json) (key : String) (default : Json) : Except PyError Json :=
  match value with
  | .obj fields => .ok ((getEntry key fields).getD default)
  | value => .error (.attributeError s!"'{pythonType value}' object has no attribute 'get'")

/-- `value in {…}`, for a set of strings. -/
def pyInSet (value : Json) (members : List String) : Except PyError Bool :=
  match value with
  | .str s => .ok (members.contains s)
  | .arr _ => .error (.typeError "unhashable type: 'list'")
  | .obj _ => .error (.typeError "unhashable type: 'dict'")
  | _ => .ok false

end Json

structure ProtocolValidationResult where
  valid : Bool
  errors : List String := []
  deriving DecidableEq, Repr

namespace ProtocolValidator

open ContractValidator (Report errorIf forEach)

def supportedRoles : List String := ["planner", "executor", "auditor", "coordinator", "human"]

def supportedMessageTypes : List String :=
  ["task_request", "task_result", "audit_review", "conflict_notice", "memory_update"]

def supportedStatuses : List String :=
  ["pending", "running", "completed", "failed", "needs_human"]

def supportedVersionPrefixes : List String := ["1."]

def topLevelFields : List String := ["version", "header", "payload", "meta"]

def headerFields : List String :=
  ["message_id", "message_type", "sender_role", "receiver_role", "task_id"]

def metaFields : List String := ["trace_id", "session_id", "status", "priority"]

/-- The field of the payload that each type of message requires. -/
def payloadFields : List (String × String) :=
  [("task_request", "instruction"), ("task_result", "result"), ("audit_review", "review"),
    ("conflict_notice", "conflict_type"), ("memory_update", "memory_key")]

-- `str` of a JSON value, for the messages.
variable (pyStr : Json → String)

/-- `if field_name not in container`, for each of the required fields. -/
def checkMissing (noun : String) (fieldNames : List String) (container : Json) : Report :=
  forEach fieldNames fun fieldName => do
    let found ← (Json.str fieldName).pyIn container
    return errorIf (!found) s!"missing {noun} field: {fieldName}"

/-- `if value not in supported`. -/
def checkSupported (noun : String) (supported : List String) (value : Json) : Report := do
  let found ← value.pyInSet supported
  return errorIf (!found) s!"unsupported {noun}: {pyStr value}"

def checkVersion (version : Json) : List String :=
  match version with
  | .str version =>
    errorIf (!supportedVersionPrefixes.any fun start => start.toList <+: version.toList)
      s!"unsupported version: {version}"
  | _ => ["version must be string"]

def validateTopLevel (message : List (String × Json)) : Report := do
  let missing ← checkMissing "top-level" topLevelFields (.obj message)
  return missing ++ checkVersion ((getEntry "version" message).getD .null)

def validateHeader (header : Json) : Report := do
  let missing ← checkMissing "header" headerFields header
  let senderRole ← header.pyGet "sender_role" .null
  let receiverRole ← header.pyGet "receiver_role" .null
  let messageType ← header.pyGet "message_type" .null
  let sender ← checkSupported pyStr "sender_role" supportedRoles senderRole
  let receiver ← checkSupported pyStr "receiver_role" supportedRoles receiverRole
  let type ← checkSupported pyStr "message_type" supportedMessageTypes messageType
  return missing ++ (sender ++ (receiver ++ type))

/-- `isinstance(priority, int)` holds of a boolean, which counts as 0 or 1. -/
def priorityInRange : Json → Bool
  | .int n => 1 ≤ n ∧ n ≤ 5
  | .bool b => b
  | _ => false

def isList : Json → Bool
  | .arr _ => true
  | _ => false

def validateMeta (metaField : Json) : Report := do
  let missing ← checkMissing "meta" metaFields metaField
  let status ← metaField.pyGet "status" .null
  let unsupported ← checkSupported pyStr "status" supportedStatuses status
  let priority ← metaField.pyGet "priority" .null
  let conflictFields ← metaField.pyGet "conflict_fields" (.arr [])
  return missing ++ (unsupported
    ++ (errorIf (!priorityInRange priority) "priority must be integer in range 1..5"
    ++ errorIf (!isList conflictFields) "conflict_fields must be list"))

def validatePayload (payload header : Json) : Report :=
  match payload with
  | .obj payload => do
    let messageType ← header.pyGet "message_type" .null
    return payloadFields.flatMap fun (type, field) =>
      errorIf (isStr messageType type && (getEntry field payload).isNone)
        s!"{type} requires payload.{field}"
  | _ => .ok ["payload must be object"]

/-- `message[key]`. -/
def item (message : List (String × Json)) (key : String) : Except PyError Json :=
  match getEntry key message with
  | some value => .ok value
  | none => .error (.keyError key)

def validateMessage (message : List (String × Json)) :
    Except PyError ProtocolValidationResult := do
  let errors ← validateTopLevel message
  if !errors.isEmpty then return { valid := false, errors }
  let header ← item message "header"
  let metaField ← item message "meta"
  let headerErrors ← validateHeader pyStr header
  let metaErrors ← validateMeta pyStr metaField
  let payload ← item message "payload"
  let payloadErrors ← validatePayload payload header
  let errors := headerErrors ++ (metaErrors ++ payloadErrors)
  return { valid := errors.isEmpty, errors }

end ProtocolValidator

/-! ## The schema -/

def stringSchema : Json := .obj [("type", .str "string")]

def enumSchema (values : List String) : Json :=
  .obj [("type", .str "string"), ("enum", .arr (values.map .str))]

def headerSchema : Json := .obj [
  ("type", .str "object"),
  ("required", .arr [.str "message_id", .str "message_type", .str "sender_role",
    .str "receiver_role", .str "task_id"]),
  ("properties", .obj [
    ("message_id", stringSchema),
    ("message_type", enumSchema ["task_request", "task_result", "audit_review",
      "conflict_notice", "memory_update"]),
    ("sender_role", enumSchema ["planner", "executor", "auditor", "coordinator", "human"]),
    ("receiver_role", enumSchema ["planner", "executor", "auditor", "coordinator", "human"]),
    ("task_id", stringSchema)])]

def metaSchema : Json := .obj [
  ("type", .str "object"),
  ("required", .arr [.str "trace_id", .str "session_id", .str "status", .str "priority"]),
  ("properties", .obj [
    ("trace_id", stringSchema),
    ("session_id", stringSchema),
    ("status", enumSchema ["pending", "running", "completed", "failed", "needs_human"]),
    ("priority", .obj [
      ("type", .str "integer"),
      ("minimum", .int 1),
      ("maximum", .int 5)]),
    ("conflict_fields", .obj [
      ("type", .str "array"),
      ("items", stringSchema)])])]

/-- `contracts/multi-agent-message.schema.json`. -/
def messageSchema : Json := .obj [
  ("$schema", .str "https://json-schema.org/draft/2020-12/schema"),
  ("$id", .str "multi-agent-message.schema.json"),
  ("title", .str "MultiAgentMessage"),
  ("type", .str "object"),
  ("required", .arr [.str "version", .str "header", .str "payload", .str "meta"]),
  ("properties", .obj [
    ("version", .obj [
      ("type", .str "string"),
      ("pattern", .str "^1\\.[0-9]+\\.[0-9]+$")]),
    ("header", headerSchema),
    ("payload", .obj [("type", .str "object")]),
    ("meta", metaSchema)])]

end AgentLearning
