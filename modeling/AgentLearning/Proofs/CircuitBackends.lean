import Mathlib.Logic.Function.Basic
import AgentLearning.RedisBackend

/-!
# The backends of the circuit breaker are interchangeable

A breaker asks its backend for the record of one tool and puts one back, so what it does depends on
the records only (`Alike.exec`). Breakers that share a backend, a restarted one among them, do as
they would over any other with the same records.
-/

namespace AgentLearning.Gateway

namespace CircuitBreaker

variable {β γ : Type} [CircuitStateBackend β] [CircuitStateBackend γ]

/-- The same in memory, and the same records in the backend. -/
structure Alike (breaker : CircuitBreaker β) (breaker' : CircuitBreaker γ) : Prop where
  config : breaker.config = breaker'.config
  circuits : breaker.circuits = breaker'.circuits
  records : ∃ b b', breaker.backend = some b ∧ breaker'.backend = some b'
    ∧ ∀ tool, CircuitStateBackend.get b tool = CircuitStateBackend.get b' tool

namespace Alike

variable {breaker : CircuitBreaker β} {breaker' : CircuitBreaker γ} (h : breaker.Alike breaker')

include h

theorem findStats (tool : String) (created : ℚ) :
    breaker.findStats tool created = breaker'.findStats tool created := by
  obtain ⟨b, b', hb, hb', hget⟩ := h.records
  simp only [CircuitBreaker.findStats, h.circuits, hb, hb', Option.bind_some, hget]

theorem store (tool : String) (stats : CircuitStats) :
    (breaker.store tool stats).Alike (breaker'.store tool stats) where
  config := h.config
  circuits := by simp only [CircuitBreaker.store, h.circuits]
  records := h.records

theorem persist (tool : String) (stats : CircuitStats) :
    (breaker.persist tool stats).Alike (breaker'.persist tool stats) where
  config := h.config
  circuits := h.circuits
  records := by
    obtain ⟨b, b', hb, hb', hget⟩ := h.records
    refine ⟨_, _, congrArg (Option.map _) hb, congrArg (Option.map _) hb', fun tool' => ?_⟩
    rw [CircuitStateBackend.get_put, CircuitStateBackend.get_put, hget]

theorem update (tool : String) (stats : CircuitStats) :
    (breaker.update tool stats).Alike (breaker'.update tool stats) :=
  (h.store tool stats).persist tool stats

theorem loadStats (tool : String) (created : ℚ) :
    (breaker.loadStats tool created).1 = (breaker'.loadStats tool created).1
      ∧ (breaker.loadStats tool created).2.Alike (breaker'.loadStats tool created).2 := by
  simp only [CircuitBreaker.loadStats, h.findStats]
  exact ⟨trivial, h.store tool _⟩

theorem maybeTransitionToHalfOpen (tool : String) (stats : CircuitStats) (clock : CircuitClock) :
    (breaker.maybeTransitionToHalfOpen tool stats clock).1
        = (breaker'.maybeTransitionToHalfOpen tool stats clock).1
      ∧ (breaker.maybeTransitionToHalfOpen tool stats clock).2.Alike
        (breaker'.maybeTransitionToHalfOpen tool stats clock).2 := by
  simp only [CircuitBreaker.maybeTransitionToHalfOpen, h.config]
  split_ifs
  · exact ⟨rfl, h.update tool _⟩
  · exact ⟨rfl, h⟩

theorem getStats (tool : String) (clock : CircuitClock) :
    (breaker.getStats tool clock).1 = (breaker'.getStats tool clock).1
      ∧ (breaker.getStats tool clock).2.Alike (breaker'.getStats tool clock).2 := by
  obtain ⟨hstats, hloaded⟩ := h.loadStats tool clock.created
  simp only [CircuitBreaker.getStats, hstats]
  exact hloaded.maybeTransitionToHalfOpen tool _ clock

omit [CircuitStateBackend γ] h in
theorem getState_eq (breaker : CircuitBreaker β) (tool : String) (clock : CircuitClock) :
    breaker.getState tool clock
      = ((breaker.getStats tool clock).1.state, (breaker.getStats tool clock).2) := rfl

omit [CircuitStateBackend γ] h in
theorem allowRequest_eq (breaker : CircuitBreaker β) (tool : String) (clock : CircuitClock) :
    breaker.allowRequest tool clock = match (breaker.getStats tool clock).1.state with
      | .closed => (true, (breaker.getStats tool clock).2)
      | .halfOpen => (true, (breaker.getStats tool clock).2)
      | .opened => (false, (breaker.getStats tool clock).2.update tool
        { (breaker.getStats tool clock).1 with
          totalRejections := (breaker.getStats tool clock).1.totalRejections + 1 }) := rfl

theorem allowRequest (tool : String) (clock : CircuitClock) :
    (breaker.allowRequest tool clock).1 = (breaker'.allowRequest tool clock).1
      ∧ (breaker.allowRequest tool clock).2.Alike (breaker'.allowRequest tool clock).2 := by
  obtain ⟨hstats, hafter⟩ := h.getStats tool clock
  rw [allowRequest_eq, allowRequest_eq, hstats]
  cases (breaker'.getStats tool clock).1.state with
  | closed => exact ⟨rfl, hafter⟩
  | halfOpen => exact ⟨rfl, hafter⟩
  | opened => exact ⟨rfl, hafter.update tool _⟩

theorem recordSuccess (tool : String) (clock : CircuitClock) :
    (breaker.recordSuccess tool clock).Alike (breaker'.recordSuccess tool clock) := by
  obtain ⟨hstats, hloaded⟩ := h.loadStats tool clock.created
  simp only [CircuitBreaker.recordSuccess, hstats, hloaded.config]
  exact hloaded.update tool _

theorem recordFailure (tool : String) (clock : CircuitClock) :
    (breaker.recordFailure tool clock).Alike (breaker'.recordFailure tool clock) := by
  obtain ⟨hstats, hloaded⟩ := h.loadStats tool clock.created
  simp only [CircuitBreaker.recordFailure, hstats, hloaded.config]
  exact hloaded.update tool _

theorem reset (tool : String) (clock : CircuitClock) :
    (breaker.reset tool clock).Alike (breaker'.reset tool clock) := by
  unfold CircuitBreaker.reset
  rw [h.circuits]
  cases breaker'.circuits.get? tool with
  | none => exact h
  | some stats => exact h.update tool _

/-- One call: the answers are the same, and the breakers stay alike. -/
theorem exec (call : CircuitCall) :
    (breaker.exec call).1 = (breaker'.exec call).1
      ∧ (breaker.exec call).2.Alike (breaker'.exec call).2 := by
  obtain ⟨op, tool, clock⟩ := call
  cases op with
  | getState =>
    obtain ⟨hstats, hafter⟩ := h.getStats tool clock
    simp only [CircuitBreaker.exec, getState_eq, hstats]
    exact ⟨trivial, hafter⟩
  | getStats =>
    obtain ⟨hstats, hafter⟩ := h.getStats tool clock
    simp only [CircuitBreaker.exec, hstats]
    exact ⟨trivial, hafter⟩
  | allowRequest =>
    obtain ⟨hallowed, hafter⟩ := h.allowRequest tool clock
    simp only [CircuitBreaker.exec, hallowed]
    exact ⟨trivial, hafter⟩
  | recordSuccess => exact ⟨rfl, h.recordSuccess tool clock⟩
  | recordFailure => exact ⟨rfl, h.recordFailure tool clock⟩
  | reset => exact ⟨rfl, h.reset tool clock⟩

end Alike

end CircuitBreaker

/-! ## Breakers that share a backend -/

/-- A backend with the breakers over it. A breaker that was restarted is another one. -/
structure CircuitFleet (β : Type) where
  backend : β
  configs : ℕ → CircuitConfig
  circuits : ℕ → Dict String CircuitStats := fun _ => ∅

namespace CircuitFleet

variable {β γ : Type} [CircuitStateBackend β] [CircuitStateBackend γ]

def breaker (fleet : CircuitFleet β) (i : ℕ) : CircuitBreaker β :=
  { config := fleet.configs i, backend := some fleet.backend, circuits := fleet.circuits i }

/-- A call on one of the breakers. -/
def exec (fleet : CircuitFleet β) (i : ℕ) (call : CircuitCall) : CircuitOutput × CircuitFleet β :=
  let (output, breaker) := (fleet.breaker i).exec call
  (output,
    { fleet with
      backend := breaker.backend.getD fleet.backend
      circuits := Function.update fleet.circuits i breaker.circuits })

def outputs : CircuitFleet β → List (ℕ × CircuitCall) → List CircuitOutput
  | _, [] => []
  | fleet, (i, call) :: calls => (fleet.exec i call).1 :: (fleet.exec i call).2.outputs calls

def final (fleet : CircuitFleet β) (calls : List (ℕ × CircuitCall)) : CircuitFleet β :=
  calls.foldl (fun fleet call => (fleet.exec call.1 call.2).2) fleet

structure Alike (fleet : CircuitFleet β) (fleet' : CircuitFleet γ) : Prop where
  records : ∀ tool, CircuitStateBackend.get fleet.backend tool
    = CircuitStateBackend.get fleet'.backend tool
  configs : fleet.configs = fleet'.configs
  circuits : fleet.circuits = fleet'.circuits

namespace Alike

variable {fleet : CircuitFleet β} {fleet' : CircuitFleet γ}

theorem breaker (h : fleet.Alike fleet') (i : ℕ) : (fleet.breaker i).Alike (fleet'.breaker i) where
  config := congrFun h.configs i
  circuits := congrFun h.circuits i
  records := ⟨_, _, rfl, rfl, h.records⟩

theorem exec (h : fleet.Alike fleet') (i : ℕ) (call : CircuitCall) :
    (fleet.exec i call).1 = (fleet'.exec i call).1
      ∧ (fleet.exec i call).2.Alike (fleet'.exec i call).2 := by
  obtain ⟨houtput, hafter⟩ := (h.breaker i).exec call
  obtain ⟨b, b', hb, hb', hget⟩ := hafter.records
  refine ⟨houtput, fun tool => ?_, h.configs, ?_⟩
  · simp only [CircuitFleet.exec, hb, hb', Option.getD_some, hget]
  · simp only [CircuitFleet.exec, h.circuits, hafter.circuits]

theorem outputs : ∀ {fleet : CircuitFleet β} {fleet' : CircuitFleet γ}
    (calls : List (ℕ × CircuitCall)), fleet.Alike fleet' →
      fleet.outputs calls = fleet'.outputs calls
  | _, _, [], _ => rfl
  | _, _, (i, call) :: calls, h => by
    rw [CircuitFleet.outputs, CircuitFleet.outputs, (h.exec i call).1,
      Alike.outputs calls (h.exec i call).2]

theorem final : ∀ {fleet : CircuitFleet β} {fleet' : CircuitFleet γ}
    (calls : List (ℕ × CircuitCall)), fleet.Alike fleet' →
      (fleet.final calls).Alike (fleet'.final calls)
  | _, _, [], h => h
  | _, _, (i, call) :: calls, h => Alike.final calls (h.exec i call).2

end Alike

/-- Breakers over a backend that some records were put into. -/
def loaded (configs : ℕ → CircuitConfig) (b : β) (records : List CircuitRecord) : CircuitFleet β :=
  { backend := records.foldl CircuitStateBackend.put b, configs }

theorem alike_loaded (configs : ℕ → CircuitConfig) {b : β} {b' : γ}
    (h : ∀ tool, CircuitStateBackend.get b tool = CircuitStateBackend.get b' tool) :
    ∀ records : List CircuitRecord,
      (loaded configs b records).Alike (loaded configs b' records)
  | [] => ⟨h, rfl, rfl⟩
  | record :: records => by
    have hput (tool : String) : CircuitStateBackend.get (CircuitStateBackend.put b record) tool
        = CircuitStateBackend.get (CircuitStateBackend.put b' record) tool := by
      rw [CircuitStateBackend.get_put, CircuitStateBackend.get_put, h]
    exact alike_loaded configs hput records

/-- Over the dictionary, the table and the hash with the same records in them, any breakers give
the same answers to any calls, and leave the same records. -/
theorem breakers_interchangeable (configs : ℕ → CircuitConfig) (records : List CircuitRecord)
    (calls : List (ℕ × CircuitCall)) :
    let inMemory := loaded configs ({} : InMemoryCircuitStateBackend) records
    let sqlite := loaded configs ({} : SQLiteCircuitStateBackend) records
    let redis := loaded configs ({} : RedisCircuitStateBackend) records
    inMemory.outputs calls = sqlite.outputs calls
      ∧ inMemory.outputs calls = redis.outputs calls
      ∧ ∀ tool, (inMemory.final calls).backend.get tool = (sqlite.final calls).backend.get tool
        ∧ (inMemory.final calls).backend.get tool = (redis.final calls).backend.get tool := by
  intro inMemory sqlite redis
  have hsqlite : inMemory.Alike sqlite := by
    refine alike_loaded configs (fun tool => ?_) records
    rfl
  have hredis : inMemory.Alike redis := by
    refine alike_loaded configs (fun tool => ?_) records
    rfl
  exact ⟨hsqlite.outputs calls, hredis.outputs calls, fun tool =>
    ⟨(hsqlite.final calls).records tool, (hredis.final calls).records tool⟩⟩

end CircuitFleet

end AgentLearning.Gateway
