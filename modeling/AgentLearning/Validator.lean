import Mathlib.Algebra.Order.Ring.Unbundled.Rat
import AgentLearning.ToolCenter

/-!
# The pre-invocation validator

`src/gateway/validator.py`: whether a tool may be called, by its status, the schema of its input and
its quota. The tracker keeps what the quota is checked against: the starts of the last second, the
calls in flight and the starts of each day. The clock is read again for every check and for every
record; a calendar says which day a time is on.
-/

namespace AgentLearning.Gateway

inductive ErrorCategory
  | validation
  | quota
  | auth
  | runtime
  | degradation
  deriving DecidableEq, Repr

def ErrorCategory.value : ErrorCategory → String
  | validation => "validation"
  | quota => "quota"
  | auth => "auth"
  | runtime => "runtime"
  | degradation => "degradation"

structure ErrorCode where
  code : ℕ
  category : ErrorCategory
  deriving DecidableEq, Repr

/-- One entry of the errors of a validation. -/
structure ValidationIssue where
  code : ErrorCode
  category : String
  message : String
  deriving DecidableEq, Repr

/-- The entry that `add_error` makes of an error code and its formatted template. -/
def ErrorCode.issue (code : ErrorCode) (message : String) : ValidationIssue :=
  { code, category := code.category.value, message }

def invalidToolName (toolName : String) : ValidationIssue :=
  ErrorCode.issue ⟨1001, .validation⟩ s!"Tool '{toolName}' is not registered."

def toolNotAvailable (toolName status : String) : ValidationIssue :=
  ErrorCode.issue ⟨1002, .validation⟩
    s!"Tool '{toolName}' is not in AVAILABLE state (current: {status})."

def missingRequiredField (fieldName : String) : ValidationIssue :=
  ErrorCode.issue ⟨1004, .validation⟩ s!"Missing required field: {fieldName}"

def invalidFieldType (fieldName expected actual : String) : ValidationIssue :=
  ErrorCode.issue ⟨1005, .validation⟩
    s!"Field '{fieldName}' expected type '{expected}', got '{actual}'."

def qpsExceeded (toolName : String) (limit : ℤ) : ValidationIssue :=
  ErrorCode.issue ⟨2001, .quota⟩ s!"QPS limit exceeded for tool '{toolName}' (limit: {limit}/s)."

def concurrencyExceeded (toolName : String) (limit : ℤ) : ValidationIssue :=
  ErrorCode.issue ⟨2002, .quota⟩
    s!"Concurrency limit exceeded for tool '{toolName}' (limit: {limit})."

def dailyQuotaExceeded (toolName : String) (limit : ℤ) : ValidationIssue :=
  ErrorCode.issue ⟨2003, .quota⟩
    s!"Daily quota exceeded for tool '{toolName}' (limit: {limit}/day)."

structure ValidationResult where
  valid : Bool := true
  errors : List ValidationIssue := []

def ValidationResult.addError (result : ValidationResult) (issue : ValidationIssue) :
    ValidationResult where
  valid := false
  errors := result.errors ++ [issue]

/-! ## Quota -/

/-- The day of a time; a later time is not on an earlier day. -/
structure Calendar where
  day : ℚ → ℤ
  mono : ∀ {s t}, s ≤ t → day s ≤ day t

/-- An entry that is missing counts as empty. -/
structure QuotaTracker where
  callTimestamps : Dict String (List ℚ) := ∅
  concurrent : Dict String ℕ := ∅
  dailyCounts : Dict (String × ℤ) ℕ := ∅

namespace QuotaTracker

variable (tracker : QuotaTracker) (toolName : String)

def timestamps : List ℚ := (tracker.callTimestamps.get? toolName).getD []

def inFlight : ℕ := (tracker.concurrent.get? toolName).getD 0

def dailyCount (day : ℤ) : ℕ := (tracker.dailyCounts.get? (toolName, day)).getD 0

/-- Entries older than a second are removed. -/
def checkQps (limit : ℤ) (now : ℚ) : Bool × QuotaTracker :=
  let timestamps := (tracker.timestamps toolName).filter fun t => now - t < 1
  ((timestamps.length : ℤ) < limit,
    { tracker with callTimestamps := tracker.callTimestamps.set toolName timestamps })

def checkConcurrency (limit : ℤ) : Bool := (tracker.inFlight toolName : ℤ) < limit

def checkDaily (limit : ℤ) (today : ℤ) : Bool := (tracker.dailyCount toolName today : ℤ) < limit

def recordCallStart (now : ℚ) (today : ℤ) : QuotaTracker where
  callTimestamps := tracker.callTimestamps.set toolName (tracker.timestamps toolName ++ [now])
  concurrent := tracker.concurrent.set toolName (tracker.inFlight toolName + 1)
  dailyCounts := tracker.dailyCounts.set (toolName, today) (tracker.dailyCount toolName today + 1)

/-- The subtraction of naturals is the `max` with zero. -/
def recordCallEnd : QuotaTracker :=
  { tracker with concurrent := tracker.concurrent.set toolName (tracker.inFlight toolName - 1) }

end QuotaTracker

/-! ## Schema -/

/-- The name of a value's type, by `_TYPE_MAP`. -/
def typeName : Json → String
  | .null => "null"
  | .bool _ => "boolean"
  | .int _ => "integer"
  | .float _ => "number"
  | .str _ => "string"
  | .arr _ => "array"
  | .obj _ => "object"

/-- The name of a value's Python type, which the errors of the interpreter show. -/
def pythonType : Json → String
  | .null => "NoneType"
  | .bool _ => "bool"
  | .int _ => "int"
  | .float _ => "float"
  | .str _ => "str"
  | .arr _ => "list"
  | .obj _ => "dict"

/-- `for x in value`. -/
def iterate : Json → Except PyError (List Json)
  | .arr items => .ok items
  | .str s => .ok (s.toList.map fun c => .str c.toString)
  | .obj fields => .ok (fields.map fun f => .str f.1)
  | value => .error (.typeError s!"'{pythonType value}' object is not iterable")

/-- `key in params`, for a key of any type. -/
def inParams (params : List (String × Json)) : Json → Except PyError Bool
  | .str s => .ok (getEntry s params).isSome
  | .arr _ => .error (.typeError "unhashable type: 'list'")
  | .obj _ => .error (.typeError "unhashable type: 'dict'")
  | _ => .ok false

/-- The value is this string. -/
def isStr (value : Json) (s : String) : Bool :=
  match value with
  | .str t => t = s
  | _ => false

namespace ToolValidator

-- `str` of a JSON value, for the messages.
variable (pyStr : Json → String)

/-- One step of the loop over the required fields. -/
def checkRequired (params : List (String × Json)) (result : ValidationResult) (fieldName : Json) :
    Except PyError ValidationResult := do
  if ← inParams params fieldName then return result
  return result.addError (missingRequiredField (pyStr fieldName))

/-- One step of the loop over the properties. -/
def checkProperty (params : List (String × Json)) (result : ValidationResult)
    (property : String × Json) : ValidationResult :=
  if property.1 = "required" ∨ property.1 = "properties" then result
  else match getEntry property.1 params with
    | none => result
    | some actualValue =>
      let expectedType := match property.2 with
        | .obj spec => (getEntry "type" spec).getD .null
        | _ => .null
      if !expectedType.truthy then result
      else
        let actualType := typeName actualValue
        if isStr expectedType "number" ∧ actualType = "integer" then result
        else if isStr expectedType actualType then result
        else result.addError (invalidFieldType property.1 (pyStr expectedType) actualType)

def validateSchema (tool : ToolMeta) (params : List (String × Json)) (result : ValidationResult) :
    Except PyError ValidationResult := do
  let schema := tool.inputSchema
  if schema.isEmpty then return result
  let required ← iterate ((getEntry "required" schema).getD (.arr []))
  let result ← required.foldlM (checkRequired pyStr params) result
  let properties ← match (getEntry "properties" schema).getD (.obj schema) with
    | .obj fields => .ok fields
    | value => .error (.attributeError s!"'{pythonType value}' object has no attribute 'items'")
  return properties.foldl (checkProperty pyStr params) result

/-- When a validation reads the clock: for the starts of the last second, and for the day. -/
structure ValidateClock where
  now : ℚ
  datedAt : ℚ

variable (calendar : Calendar) (tracker : QuotaTracker)

def validateQuota (tool : ToolMeta) (result : ValidationResult) (clock : ValidateClock) :
    ValidationResult × QuotaTracker :=
  let quota := tool.quota
  let qps := tracker.checkQps tool.name quota.qps clock.now
  let tracker := qps.2
  let result := if qps.1 then result else result.addError (qpsExceeded tool.name quota.qps)
  let result :=
    if tracker.checkConcurrency tool.name quota.maxConcurrent then result
    else result.addError (concurrencyExceeded tool.name quota.maxConcurrent)
  let result :=
    if tracker.checkDaily tool.name quota.dailyLimit (calendar.day clock.datedAt) then result
    else result.addError (dailyQuotaExceeded tool.name quota.dailyLimit)
  (result, tracker)

def validate (registry : ToolRegistry) (toolName : String) (params : List (String × Json))
    (clock : ValidateClock) : Except PyError ValidationResult × QuotaTracker :=
  match registry.get toolName none with
  | none => (.ok (({} : ValidationResult).addError (invalidToolName toolName)), tracker)
  | some tool =>
    if tool.status ≠ .available then
      (.ok (({} : ValidationResult).addError (toolNotAvailable toolName tool.status.value)),
        tracker)
    else match validateSchema pyStr tool params {} with
      | .error e => (.error e, tracker)
      | .ok result =>
        let checked := validateQuota calendar tracker tool result clock
        (.ok checked.1, checked.2)

end ToolValidator

end AgentLearning.Gateway
