import Mathlib.Algebra.Order.Field.Rat
import Mathlib.Data.Rat.Floor
import Mathlib.Order.WithBot
import AgentLearning.RateLimiter

/-!
# The error budget and the gate

`src/evaluation/error_budget_tracker.py` and `src/automation/gate_function.py`: how much of the
failures that a target allows have been used up, and whether a release passes. Rates are rationals
or infinite, scores are rationals, and how Python writes a float is a parameter.
-/

namespace AgentLearning

open Gateway (roundHalfEven)

/-- `round(q, 4)`. -/
def roundTenThousandths (q : ℚ) : ℚ := roundHalfEven (q * 10000) / 10000

/-- `f"{q:.3f}"`. -/
def formatThousandths (q : ℚ) : String :=
  let n := (roundHalfEven (|q| * 1000)).toNat
  (if q < 0 then "-" else "") ++ s!"{n / 1000}.{n % 1000 / 100}{n % 100 / 10}{n % 10}"

structure ErrorBudgetSnapshot where
  sloTarget : ℚ
  totalObservations : ℤ
  badObservations : ℤ
  burnRate : WithTop ℚ
  remaining : ℚ
  deriving DecidableEq

structure ErrorBudgetTracker where
  sloTarget : ℚ
  total : ℤ := 0
  bad : ℤ := 0
  sloTarget_pos : 0 < sloTarget
  sloTarget_le : sloTarget ≤ 1

/-- What is recorded: one observation, or a batch of them at once. -/
inductive Recording where
  | record (success : Bool)
  | recordBatch (total bad : ℤ)
  deriving DecidableEq

namespace ErrorBudgetTracker

def create (floatRepr : ℚ → String) (sloTarget : ℚ) : Except PyError ErrorBudgetTracker :=
  if h : 0 < sloTarget ∧ sloTarget ≤ 1 then
    .ok { sloTarget, sloTarget_pos := h.1, sloTarget_le := h.2 }
  else .error (.valueError s!"slo_target must be in (0, 1], got {floatRepr sloTarget}")

variable (tracker : ErrorBudgetTracker)

def record (success : Bool) : ErrorBudgetTracker :=
  { tracker with
    total := tracker.total + 1
    bad := if !success then tracker.bad + 1 else tracker.bad }

def recordBatch (total bad : ℤ) : ErrorBudgetTracker :=
  { tracker with
    total := tracker.total + total
    bad := tracker.bad + bad }

def exec : Recording → ErrorBudgetTracker
  | .record success => tracker.record success
  | .recordBatch total bad => tracker.recordBatch total bad

def run (recordings : List Recording) : ErrorBudgetTracker := recordings.foldl exec tracker

/-- `max(0.0, 1.0 - burn_rate)`. -/
def unburnt : WithTop ℚ → ℚ
  | ⊤ => 0
  | WithTop.some burnRate => max 0 (1 - burnRate)

def snapshot : ErrorBudgetSnapshot :=
  if tracker.total = 0 then
    { sloTarget := tracker.sloTarget
      totalObservations := 0
      badObservations := 0
      burnRate := WithTop.some 0
      remaining := 1 }
  else
    let allowedBad : ℚ := tracker.total * (1 - tracker.sloTarget)
    let burnRate : WithTop ℚ :=
      if 0 < allowedBad then WithTop.some (tracker.bad / allowedBad) else ⊤
    let remaining := unburnt burnRate
    { sloTarget := tracker.sloTarget
      totalObservations := tracker.total
      badObservations := tracker.bad
      burnRate := burnRate.map roundTenThousandths
      remaining := roundTenThousandths remaining }

def isBudgetExhausted : Bool :=
  let snap := tracker.snapshot
  snap.remaining ≤ 0

end ErrorBudgetTracker

/-! ## The gate -/

structure AlertEvent where
  severity : String
  status : String

structure CompositeScore where
  overallScore : ℚ

structure GateDecision where
  passed : Bool
  reasons : List String := []
  blockingAlerts : ℕ := 0
  budgetOk : Bool := true
  scoreOk : Bool := true
  deriving DecidableEq

structure GateFunction where
  scoreThreshold : ℚ := 7 / 10
  maxP1Alerts : ℤ := 0

namespace GateFunction

variable (floatRepr : ℚ → String) (gate : GateFunction)

def decide (alerts : List AlertEvent) (compositeScore : Option CompositeScore)
    (budgetSnapshot : Option ErrorBudgetSnapshot) : GateDecision :=
  let p1Firing := alerts.countP fun a => a.severity = "P1" ∧ a.status = "firing"
  let alertReasons :=
    if gate.maxP1Alerts < p1Firing then [s!"{p1Firing} P1 alert(s) firing"] else []
  let (scoreOk, scoreReasons) :=
    match compositeScore with
    | some compositeScore =>
      if compositeScore.overallScore < gate.scoreThreshold then
        (false, [s!"score {formatThousandths compositeScore.overallScore} "
          ++ s!"< threshold {floatRepr gate.scoreThreshold}"])
      else (true, [])
    | none => (true, [])
  let (budgetOk, budgetReasons) :=
    match budgetSnapshot with
    | some budgetSnapshot =>
      if budgetSnapshot.remaining ≤ 0 then (false, ["error budget exhausted"]) else (true, [])
    | none => (true, [])
  let reasons := alertReasons ++ scoreReasons ++ budgetReasons
  { passed := reasons.length = 0
    reasons
    blockingAlerts := p1Firing
    budgetOk
    scoreOk }

end GateFunction

end AgentLearning
