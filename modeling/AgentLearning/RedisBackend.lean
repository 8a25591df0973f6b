import AgentLearning.Lib.RecordHash
import AgentLearning.CircuitBreaker
import AgentLearning.MemoryBackend

/-!
# Backends in Redis

`src/persistence/redis_backend.py`: the records of the shared memory and those of the circuit
breaker, each kind in one hash, a record as the text of a document. A text is the document it was
made from, and a document that is not a record's is not read as one.
-/

namespace AgentLearning

/-! ## Documents as arguments -/

namespace Json

def asText : Json → Option String
  | .str s => some s
  | _ => none

def asInt : Json → Option ℤ
  | .int n => some n
  | _ => none

def asCount : Json → Option ℕ
  | .int (.ofNat n) => some n
  | _ => none

def asFloat : Json → Option ℚ
  | .float q => some q
  | _ => none

def asOptionalFloat : Json → Option (Option ℚ)
  | .null => some none
  | .float q => some (some q)
  | _ => none

/-- The fields of a document that are passed on with `**`; a name that is not a parameter raises. -/
def arguments (parameters : List String) : Json → Option (List (String × Json))
  | .obj fields => if fields.all fun field => field.1 ∈ parameters then some fields else none
  | _ => none

end Json

/-! ## Shared memory -/

namespace MemoryRecord

def document (record : MemoryRecord) : Json := .obj [
  ("key", .str record.key),
  ("value", record.value),
  ("version", .int record.version),
  ("writer_role", .str record.writerRole),
  ("updated_at", .float record.updatedAt),
  ("expires_at", record.expiresAt.elim .null .float)]

/-- `MemoryRecord(**data)`. -/
def ofDocument (data : Json) : Option MemoryRecord := do
  let fields ← data.arguments
    ["key", "value", "version", "writer_role", "updated_at", "expires_at"]
  let key ← (← getEntry "key" fields).asText
  let value ← getEntry "value" fields
  let version ← (← getEntry "version" fields).asInt
  let writerRole ← (← getEntry "writer_role" fields).asText
  let updatedAt ← (← getEntry "updated_at" fields).asFloat
  let expiresAt ← ((getEntry "expires_at" fields).getD .null).asOptionalFloat
  pure { key, value, version, writerRole, updatedAt, expiresAt }

theorem ofDocument_document (record : MemoryRecord) : ofDocument record.document = some record := by
  obtain ⟨key, value, version, writerRole, updatedAt, expiresAt⟩ := record
  rcases expiresAt with _ | t <;> rfl

def codec : RecordCodec String MemoryRecord Json where
  key := MemoryRecord.key
  encode := document
  decode := ofDocument
  decode_encode := ofDocument_document

end MemoryRecord

/-- The hash `agent:shared_memory`. -/
structure RedisSharedMemoryBackend where
  sharedMemory : RecordHash MemoryRecord.codec := {}

namespace RedisSharedMemoryBackend

variable (backend : RedisSharedMemoryBackend)

def get (key : String) : Option MemoryRecord := backend.sharedMemory.get key

def put (record : MemoryRecord) : RedisSharedMemoryBackend :=
  { sharedMemory := backend.sharedMemory.put record }

def delete (key : String) : Bool × RedisSharedMemoryBackend :=
  ((backend.sharedMemory.delete key).1, { sharedMemory := (backend.sharedMemory.delete key).2 })

def listAll : List MemoryRecord := backend.sharedMemory.listAll

instance : SharedMemoryBackend RedisSharedMemoryBackend where
  get := get
  put := put
  delete := delete
  listAll := listAll
  get_put b r k := b.sharedMemory.get_put r k
  get_delete b k k' := b.sharedMemory.get_delete k k'
  mem_listAll b _ := b.sharedMemory.mem_listAll
  nodup_listAll b := b.sharedMemory.nodup_listAll
  key_of_get h := RecordHash.key_of_get _ h

end RedisSharedMemoryBackend

/-! ## Circuits -/

namespace Gateway

namespace CircuitState

/-- The value of the state. -/
def text : CircuitState → String
  | .closed => "closed"
  | .opened => "open"
  | .halfOpen => "half_open"

/-- `CircuitState(value)`. -/
def ofText (value : String) : Option CircuitState :=
  [closed, opened, halfOpen].find? fun state => state.text = value

end CircuitState

namespace CircuitRecord

def document (record : CircuitRecord) : Json := .obj [
  ("tool_name", .str record.toolName),
  ("state", .str record.state.text),
  ("failure_count", .int record.failureCount),
  ("success_count", .int record.successCount),
  ("half_open_successes", .int record.halfOpenSuccesses),
  ("last_failure_time", .float record.lastFailureTime),
  ("last_state_change", .float record.lastStateChange),
  ("total_calls", .int record.totalCalls),
  ("total_failures", .int record.totalFailures),
  ("total_rejections", .int record.totalRejections)]

/-- `CircuitRecord(**data)`, with the state that the breaker makes of its value. -/
def ofDocument (data : Json) : Option CircuitRecord := do
  let fields ← data.arguments
    ["tool_name", "state", "failure_count", "success_count", "half_open_successes",
      "last_failure_time", "last_state_change", "total_calls", "total_failures",
      "total_rejections"]
  let toolName ← (← getEntry "tool_name" fields).asText
  let state ← CircuitState.ofText (← (← getEntry "state" fields).asText)
  let failureCount ← (← getEntry "failure_count" fields).asCount
  let successCount ← (← getEntry "success_count" fields).asCount
  let halfOpenSuccesses ← (← getEntry "half_open_successes" fields).asCount
  let lastFailureTime ← (← getEntry "last_failure_time" fields).asFloat
  let lastStateChange ← (← getEntry "last_state_change" fields).asFloat
  let totalCalls ← (← getEntry "total_calls" fields).asCount
  let totalFailures ← (← getEntry "total_failures" fields).asCount
  let totalRejections ← (← getEntry "total_rejections" fields).asCount
  pure {
    toolName, state, failureCount, successCount, halfOpenSuccesses, lastFailureTime
    lastStateChange, totalCalls, totalFailures, totalRejections }

theorem ofDocument_document (record : CircuitRecord) :
    ofDocument record.document = some record := by
  obtain ⟨toolName, state, _⟩ := record
  cases state <;> rfl

def codec : RecordCodec String CircuitRecord Json where
  key := CircuitRecord.toolName
  encode := document
  decode := ofDocument
  decode_encode := ofDocument_document

end CircuitRecord

/-- The hash `agent:circuit_state`. -/
structure RedisCircuitStateBackend where
  circuitState : RecordHash CircuitRecord.codec := {}

namespace RedisCircuitStateBackend

variable (backend : RedisCircuitStateBackend)

def get (toolName : String) : Option CircuitRecord := backend.circuitState.get toolName

def put (record : CircuitRecord) : RedisCircuitStateBackend :=
  { circuitState := backend.circuitState.put record }

instance : CircuitStateBackend RedisCircuitStateBackend where
  get := get
  put := put
  get_put b r tool := b.circuitState.get_put r tool
  toolName_of_get h := RecordHash.key_of_get _ h

end RedisCircuitStateBackend

end Gateway

end AgentLearning
