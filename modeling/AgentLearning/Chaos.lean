import AgentLearning.ContractValidator
import AgentLearning.ErrorBudget

/-!
# Fault injection

`src/chaos/`: the injector, which runs a function under a fault, and the scorer of what came out.
Scenarios are objects that are compared by value when they are injected and by identity when they
are removed, so the injector holds references, and `deref` has what they refer to. What the clock
and the random numbers give is read from the arguments. Scores and their sums are exact.
-/

namespace AgentLearning

open Gateway (pythonType)

structure ChaosScenario where
  faultType : String
  targetComponent : String
  parameters : List (String × Json) := []
  durationSeconds : ℚ := 10
  description : String := ""

/-- `scenario == other`. -/
def ChaosScenario.pyEq (scenario other : ChaosScenario) : Bool :=
  scenario.faultType = other.faultType && scenario.targetComponent = other.targetComponent
    && (Json.obj scenario.parameters).pyEq (.obj other.parameters)
    && scenario.durationSeconds = other.durationSeconds
    && scenario.description = other.description

/-- What an execution under a fault came to; the values that functions return are of type `β`. -/
structure ChaosResult (β : Type) where
  scenario : ChaosScenario
  success : Bool
  recoveryTimeMs : ℚ := 0
  errorIsolated : Bool := true
  cascadingFailure : Bool := false
  metrics : List (String × β) := []
  error : Option String := none

/-! ## The injector -/

/-- What a run reads: the clock before and after it, and a random number. -/
structure ChaosReadings where
  start : ℚ
  finish : ℚ
  draw : ℚ

structure InMemoryChaosInjector (Ref β : Type) where
  active : List Ref := []
  results : List (ChaosResult β) := []

namespace InMemoryChaosInjector

/-- `scenario.parameters.get(key, default)` where a number is needed. -/
def numericParameter (scenario : ChaosScenario) (key : String) (default : ℚ)
    (message : Json → String) : Except PyError ℚ :=
  match getEntry key scenario.parameters with
  | none => .ok default
  | some value =>
    match value.number with
    | some number => .ok number
    | none => .error (.typeError (message value))

/-- `milliseconds / 1000.0`, of a parameter. -/
def secondsParameter (scenario : ChaosScenario) (key : String) (default : ℚ) :
    Except PyError ℚ := do
  let milliseconds ← numericParameter scenario key default fun value =>
    s!"unsupported operand type(s) for /: '{pythonType value}' and 'float'"
  pure (milliseconds / 1000)

/-- `time.sleep(seconds)`. -/
def sleep (seconds : ℚ) : Except PyError Unit :=
  raiseIf (seconds < 0) (.valueError "sleep length must be non-negative")

/-- What happens before the function is called: it is called unless this raises. -/
def applyFault (scenario : ChaosScenario) (draw : ℚ) : Except PyError Unit := do
  let fault := scenario.faultType
  if fault = "latency" then
    let delay ← secondsParameter scenario "delay_ms" 100
    sleep delay
  else if fault = "error" then
    let errorRate ← numericParameter scenario "error_rate" 1 fun value =>
      s!"'<' not supported between instances of 'float' and '{pythonType value}'"
    raiseIf (draw < errorRate)
      (.exception s!"Chaos injected error on {scenario.targetComponent}")
  else if fault = "timeout" then
    let timeout ← secondsParameter scenario "timeout_ms" 50
    sleep timeout
    throw (.exception s!"Chaos injected timeout on {scenario.targetComponent}")
  else if fault = "resource_exhaustion" then
    throw (.exception s!"Chaos injected resource exhaustion on {scenario.targetComponent}")
  else pure ()

variable {Ref β : Type} [DecidableEq Ref] (deref : Ref → ChaosScenario)
  (injector : InMemoryChaosInjector Ref β)

/-- `scenario in self._active`. -/
def isActive (scenario : Ref) : Bool :=
  injector.active.any fun other => other = scenario || (deref other).pyEq (deref scenario)

def inject (scenario : Ref) : InMemoryChaosInjector Ref β :=
  if !injector.isActive deref scenario then
    { injector with active := injector.active ++ [scenario] }
  else injector

def remove (scenario : Ref) : InMemoryChaosInjector Ref β :=
  { injector with active := injector.active.filter (· ≠ scenario) }

/-- The result of a run that returned or raised. -/
def chaosResult (scenario : ChaosScenario) (readings : ChaosReadings) :
    Except PyError β → ChaosResult β
  | .ok result =>
    { scenario
      success := true
      recoveryTimeMs := (readings.finish - readings.start) * 1000
      errorIsolated := true
      cascadingFailure := false
      metrics := [("raw_result", result)] }
  | .error exc =>
    { scenario
      success := false
      recoveryTimeMs := (readings.finish - readings.start) * 1000
      errorIsolated := false
      cascadingFailure := true
      error := some exc.str }

/-- `fn` works on the injector, as it may run something under a fault itself. -/
def wrapExecution (scenario : Ref) (readings : ChaosReadings)
    (fn : InMemoryChaosInjector Ref β → Except PyError β × InMemoryChaosInjector Ref β) :
    ChaosResult β × InMemoryChaosInjector Ref β :=
  let injected := injector.inject deref scenario
  let (outcome, ran) :=
    match applyFault (deref scenario) readings.draw with
    | .ok () => fn injected
    | .error exc => (.error exc, injected)
  let result := chaosResult (deref scenario) readings outcome
  let removed := ran.remove scenario
  (result, { removed with results := removed.results ++ [result] })

/-- A copy of the list. -/
def collectResults : List (ChaosResult β) := injector.results

/-- A copy of the list. -/
def activeScenarios : List Ref := injector.active

end InMemoryChaosInjector

/-- A function that is run under a fault: it returns, or raises, or runs another one under a fault
and goes on with the result. -/
inductive ChaosFunction (Ref β : Type)
  | returns (value : β)
  | raises (exc : PyError)
  | wrapExecution (scenario : Ref) (readings : ChaosReadings) (fn : ChaosFunction Ref β)
    (next : ChaosResult β → ChaosFunction Ref β)

/-- What the function does to the injector. -/
def ChaosFunction.call {Ref β : Type} [DecidableEq Ref] (deref : Ref → ChaosScenario) :
    ChaosFunction Ref β → InMemoryChaosInjector Ref β →
      Except PyError β × InMemoryChaosInjector Ref β
  | .returns value => fun injector => (.ok value, injector)
  | .raises exc => fun injector => (.error exc, injector)
  | .wrapExecution scenario readings fn next => fun injector =>
    let (result, injector') := injector.wrapExecution deref scenario readings (fn.call deref)
    (next result).call deref injector'

/-! ## The scorer -/

structure ResilienceReport (β : Type) where
  overallScore : ℚ
  scenarioScores : Dict String ℚ := ∅
  weaknesses : List String := []
  details : List (ChaosResult β) := []

structure ResilienceScorer where
  maxRecoveryMs : ℚ := 5000

namespace ResilienceScorer

variable {β : Type} (scorer : ResilienceScorer)

def scoreSingle (result : ChaosResult β) : Except PyError ℚ := do
  raiseIf (scorer.maxRecoveryMs = 0) (.exception "float division by zero")
  let recoveryScore := max 0 (1 - result.recoveryTimeMs / scorer.maxRecoveryMs)
  let isolationScore := if result.errorIsolated then 1 else 0
  let cascadeScore := if result.cascadingFailure then 0 else 1
  pure ((recoveryScore + isolationScore + cascadeScore) / 3)

/-- `f"{result.scenario.fault_type}:{result.scenario.target_component}"`. -/
def label (result : ChaosResult β) : String :=
  s!"{result.scenario.faultType}:{result.scenario.targetComponent}"

/-- The body of the loop. -/
def addScore (collected : Dict String ℚ × List String) (result : ChaosResult β) :
    Except PyError (Dict String ℚ × List String) := do
  let s ← scorer.scoreSingle result
  pure (collected.1.set (label result) (roundTenThousandths s),
    if s < 7 / 10 then collected.2 ++ [label result] else collected.2)

def score (results : List (ChaosResult β)) : Except PyError (ResilienceReport β) :=
  if results.isEmpty then .ok { overallScore := 1 }
  else do
    let (scenarioScores, weaknesses) ← results.foldlM scorer.addScore (∅, [])
    let overall := scenarioScores.values.sum / scenarioScores.entries.length
    pure
      { overallScore := roundTenThousandths overall
        scenarioScores
        weaknesses
        details := results }

end ResilienceScorer

end AgentLearning
