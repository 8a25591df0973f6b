import AgentLearning.Lib.Table
import AgentLearning.Value

/-!
# The circuit breaker

`src/gateway/circuit_breaker.py` with the backends of `src/persistence` that keep its records. A
tool's statistics are one mutable object that stays in the dictionary of the breaker: what a call
changes of them is stored at once, and `_persist` writes them to the backend. `get_stats` gives out
the object itself, of which the value at that moment is meant here. Times are rationals.
-/

namespace AgentLearning.Gateway

inductive CircuitState
  | closed
  | opened
  | halfOpen
  deriving DecidableEq, Repr

structure CircuitConfig where
  failureThreshold : ℤ := 5
  recoveryTimeout : ℚ := 30
  successThreshold : ℤ := 2
  windowSize : ℚ := 60

structure CircuitStats where
  state : CircuitState := .closed
  failureCount : ℕ := 0
  successCount : ℕ := 0
  halfOpenSuccesses : ℕ := 0
  lastFailureTime : ℚ := 0
  lastStateChange : ℚ
  totalCalls : ℕ := 0
  totalFailures : ℕ := 0
  totalRejections : ℕ := 0
  deriving DecidableEq

/-- The state itself stands for its value. -/
structure CircuitRecord where
  toolName : String
  state : CircuitState
  failureCount : ℕ
  successCount : ℕ
  halfOpenSuccesses : ℕ
  lastFailureTime : ℚ
  lastStateChange : ℚ
  totalCalls : ℕ
  totalFailures : ℕ
  totalRejections : ℕ
  deriving DecidableEq

/-! ## Backends -/

/-- A backend has at most one record of a tool. The breaker only gets and puts. -/
class CircuitStateBackend (β : Type) where
  get : β → String → Option CircuitRecord
  put : β → CircuitRecord → β
  get_put : ∀ b r tool, get (put b r) tool = if r.toolName = tool then some r else get b tool
  toolName_of_get : ∀ {b tool r}, get b tool = some r → r.toolName = tool

/-- Every record is under the name of its tool. -/
structure InMemoryCircuitStateBackend where
  store : Dict String CircuitRecord := ∅
  keyed : ∀ tool r, store.get? tool = some r → r.toolName = tool := by simp

namespace InMemoryCircuitStateBackend

variable (backend : InMemoryCircuitStateBackend)

def get (toolName : String) : Option CircuitRecord := backend.store.get? toolName

def put (record : CircuitRecord) : InMemoryCircuitStateBackend where
  store := backend.store.set record.toolName record
  keyed := Dict.keyed_set backend.keyed record

instance : CircuitStateBackend InMemoryCircuitStateBackend where
  get := get
  put := put
  get_put b r tool := b.store.get?_set r.toolName tool r
  toolName_of_get h := InMemoryCircuitStateBackend.keyed _ _ _ h

end InMemoryCircuitStateBackend

/-- The table `circuit_state`. -/
structure SQLiteCircuitStateBackend where
  circuitState : Table CircuitRecord.toolName := ∅

namespace SQLiteCircuitStateBackend

variable (backend : SQLiteCircuitStateBackend)

def get (toolName : String) : Option CircuitRecord := backend.circuitState.find? toolName

def put (record : CircuitRecord) : SQLiteCircuitStateBackend :=
  { circuitState := backend.circuitState.insertOrReplace record }

instance : CircuitStateBackend SQLiteCircuitStateBackend where
  get := get
  put := put
  get_put b r tool := b.circuitState.find?_insertOrReplace r tool
  toolName_of_get h := Table.key_of_find? _ h

end SQLiteCircuitStateBackend

/-! ## Statistics -/

/-- The readings of the clock that a call may make, in this order: for statistics it makes itself,
for the time that has passed or the time of a failure, and for a transition. -/
structure CircuitClock where
  created : ℚ
  now : ℚ
  changed : ℚ

namespace CircuitStats

def transition (stats : CircuitStats) (newState : CircuitState) (changed : ℚ) : CircuitStats :=
  match newState with
  | .closed =>
    { stats with
      state := .closed
      lastStateChange := changed
      failureCount := 0
      halfOpenSuccesses := 0 }
  | .halfOpen =>
    { stats with state := .halfOpen, lastStateChange := changed, halfOpenSuccesses := 0 }
  | .opened => { stats with state := .opened, lastStateChange := changed }

/-- The recovery timeout has passed since the circuit opened. -/
def Due (config : CircuitConfig) (stats : CircuitStats) (now : ℚ) : Prop :=
  stats.state = .opened ∧ config.recoveryTimeout ≤ now - stats.lastStateChange

instance (config : CircuitConfig) (stats : CircuitStats) (now : ℚ) :
    Decidable (stats.Due config now) :=
  inferInstanceAs (Decidable (_ ∧ _))

/-- What `record_success` changes. -/
def countSuccess (config : CircuitConfig) (stats : CircuitStats) (clock : CircuitClock) :
    CircuitStats :=
  let stats := { stats with
    totalCalls := stats.totalCalls + 1
    successCount := stats.successCount + 1 }
  match stats.state with
  | .halfOpen =>
    let stats := { stats with halfOpenSuccesses := stats.halfOpenSuccesses + 1 }
    if config.successThreshold ≤ stats.halfOpenSuccesses then
      stats.transition .closed clock.changed
    else stats
  | .closed => { stats with failureCount := 0 }
  | .opened => stats

/-- What `record_failure` changes. -/
def countFailure (config : CircuitConfig) (stats : CircuitStats) (clock : CircuitClock) :
    CircuitStats :=
  let stats := { stats with
    totalCalls := stats.totalCalls + 1
    totalFailures := stats.totalFailures + 1
    failureCount := stats.failureCount + 1
    lastFailureTime := clock.now }
  match stats.state with
  | .halfOpen => stats.transition .opened clock.changed
  | .closed =>
    if config.failureThreshold ≤ stats.failureCount then stats.transition .opened clock.changed
    else stats
  | .opened => stats

def toRecord (stats : CircuitStats) (toolName : String) : CircuitRecord where
  toolName := toolName
  state := stats.state
  failureCount := stats.failureCount
  successCount := stats.successCount
  halfOpenSuccesses := stats.halfOpenSuccesses
  lastFailureTime := stats.lastFailureTime
  lastStateChange := stats.lastStateChange
  totalCalls := stats.totalCalls
  totalFailures := stats.totalFailures
  totalRejections := stats.totalRejections

def ofRecord (rec : CircuitRecord) : CircuitStats where
  state := rec.state
  failureCount := rec.failureCount
  successCount := rec.successCount
  halfOpenSuccesses := rec.halfOpenSuccesses
  lastFailureTime := rec.lastFailureTime
  lastStateChange := rec.lastStateChange
  totalCalls := rec.totalCalls
  totalFailures := rec.totalFailures
  totalRejections := rec.totalRejections

@[simp]
theorem ofRecord_toRecord (stats : CircuitStats) (tool : String) :
    ofRecord (stats.toRecord tool) = stats := rfl

end CircuitStats

/-! ## The breaker -/

structure CircuitBreaker (β : Type) where
  config : CircuitConfig := {}
  backend : Option β := none
  circuits : Dict String CircuitStats := ∅

namespace CircuitBreaker

variable {β : Type} [CircuitStateBackend β] (breaker : CircuitBreaker β) (toolName : String)

/-- The statistics that `_get_stats` finds: those in memory, else those in the backend, else new
ones. -/
def findStats (created : ℚ) : CircuitStats :=
  match breaker.circuits.get? toolName with
  | some stats => stats
  | none =>
    match breaker.backend.bind fun backend => CircuitStateBackend.get backend toolName with
    | some rec => .ofRecord rec
    | none => { lastStateChange := created }

def store (stats : CircuitStats) : CircuitBreaker β :=
  { breaker with circuits := breaker.circuits.set toolName stats }

/-- `_get_stats`, which stores what it finds. -/
def loadStats (created : ℚ) : CircuitStats × CircuitBreaker β :=
  (breaker.findStats toolName created,
    breaker.store toolName (breaker.findStats toolName created))

def persist (stats : CircuitStats) : CircuitBreaker β :=
  { breaker with
    backend := breaker.backend.map fun backend =>
      CircuitStateBackend.put backend (stats.toRecord toolName) }

/-- Changed statistics are stored and then persisted. -/
def update (stats : CircuitStats) : CircuitBreaker β :=
  (breaker.store toolName stats).persist toolName stats

def maybeTransitionToHalfOpen (stats : CircuitStats) (clock : CircuitClock) :
    CircuitStats × CircuitBreaker β :=
  if stats.Due breaker.config clock.now then
    (stats.transition .halfOpen clock.changed,
      breaker.update toolName (stats.transition .halfOpen clock.changed))
  else (stats, breaker)

def getStats (clock : CircuitClock) : CircuitStats × CircuitBreaker β :=
  let (stats, breaker) := breaker.loadStats toolName clock.created
  breaker.maybeTransitionToHalfOpen toolName stats clock

def getState (clock : CircuitClock) : CircuitState × CircuitBreaker β :=
  let (stats, breaker) := breaker.loadStats toolName clock.created
  let (stats, breaker) := breaker.maybeTransitionToHalfOpen toolName stats clock
  (stats.state, breaker)

def allowRequest (clock : CircuitClock) : Bool × CircuitBreaker β :=
  let (stats, breaker) := breaker.loadStats toolName clock.created
  let (stats, breaker) := breaker.maybeTransitionToHalfOpen toolName stats clock
  match stats.state with
  | .closed => (true, breaker)
  | .halfOpen => (true, breaker)
  | .opened =>
    (false, breaker.update toolName { stats with totalRejections := stats.totalRejections + 1 })

def recordSuccess (clock : CircuitClock) : CircuitBreaker β :=
  let (stats, breaker) := breaker.loadStats toolName clock.created
  breaker.update toolName (stats.countSuccess breaker.config clock)

def recordFailure (clock : CircuitClock) : CircuitBreaker β :=
  let (stats, breaker) := breaker.loadStats toolName clock.created
  breaker.update toolName (stats.countFailure breaker.config clock)

/-- Only statistics in memory are reset. -/
def reset (clock : CircuitClock) : CircuitBreaker β :=
  match breaker.circuits.get? toolName with
  | some stats => breaker.update toolName (stats.transition .closed clock.changed)
  | none => breaker

end CircuitBreaker

/-! ## Calls -/

inductive CircuitOp
  | getState
  | getStats
  | allowRequest
  | recordSuccess
  | recordFailure
  | reset
  deriving DecidableEq

structure CircuitCall where
  op : CircuitOp
  toolName : String
  clock : CircuitClock

inductive CircuitOutput
  | state (state : CircuitState)
  | stats (stats : CircuitStats)
  | allowed (allowed : Bool)
  | none
  deriving DecidableEq

def CircuitBreaker.exec {β : Type} [CircuitStateBackend β] (breaker : CircuitBreaker β)
    (call : CircuitCall) : CircuitOutput × CircuitBreaker β :=
  match call.op with
  | .getState =>
    let (state, breaker) := breaker.getState call.toolName call.clock
    (.state state, breaker)
  | .getStats =>
    let (stats, breaker) := breaker.getStats call.toolName call.clock
    (.stats stats, breaker)
  | .allowRequest =>
    let (allowed, breaker) := breaker.allowRequest call.toolName call.clock
    (.allowed allowed, breaker)
  | .recordSuccess => (.none, breaker.recordSuccess call.toolName call.clock)
  | .recordFailure => (.none, breaker.recordFailure call.toolName call.clock)
  | .reset => (.none, breaker.reset call.toolName call.clock)

end AgentLearning.Gateway
