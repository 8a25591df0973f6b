import Mathlib.Algebra.Order.Ring.Unbundled.Rat
import Mathlib.Data.List.Sort
import Mathlib.Data.Prod.Lex
import Mathlib.Data.String.Basic
import AgentLearning.RateLimiter

/-!
# The arbitrator

`src/multi_agent/arbitrator.py`: of several results that agents have come to, the one of the highest
priority and confidence is selected, unless the one that comes next contests it. Confidences are
rationals, results are of any type.
-/

namespace AgentLearning

open Gateway (roundHalfEven)

structure ArbitrationCandidate (ρ : Type*) where
  role : String
  result : ρ
  confidence : ℚ
  priority : ℤ
  evidence : List String := []
  deriving DecidableEq

structure ArbitrationDecision (ρ : Type*) where
  status : String
  selectedRole : String
  result : ρ
  rationale : String
  evidenceChain : List String
  deriving DecidableEq

/-- `f"{q:.2f}"`. -/
def formatHundredths (q : ℚ) : String :=
  let n := (roundHalfEven (|q| * 100)).toNat
  (if q < 0 then "-" else "") ++ s!"{n / 100}.{n % 100 / 10}{n % 10}"

namespace ArbitrationCandidate

variable {ρ : Type*} (candidate : ArbitrationCandidate ρ)

/-- What the candidates are sorted by. -/
def key : ℤ ×ₗ ℚ ×ₗ String :=
  toLex (candidate.priority, toLex (-candidate.confidence, candidate.role))

/-- The entry of the evidence chain. -/
def entry : String :=
  let evidenceSummary :=
    if candidate.evidence ≠ [] then "; ".intercalate candidate.evidence else "no evidence"
  s!"role={candidate.role}, priority={candidate.priority}, "
    ++ s!"confidence={formatHundredths candidate.confidence}, evidence={evidenceSummary}"

end ArbitrationCandidate

namespace Arbitrator

variable {ρ : Type*} [DecidableEq ρ]

def needsHuman (best second : ArbitrationCandidate ρ) : Bool :=
  let samePriority := best.priority = second.priority
  let confidenceGap := |best.confidence - second.confidence|
  let conflictingResult := best.result ≠ second.result
  samePriority ∧ conflictingResult ∧ confidenceGap < 1 / 10

def buildEvidenceChain (ranked : List (ArbitrationCandidate ρ)) : List String :=
  ranked.map ArbitrationCandidate.entry

/-- `sorted` by the key. -/
def ranked (candidates : List (ArbitrationCandidate ρ)) : List (ArbitrationCandidate ρ) :=
  candidates.insertionSort fun a b => a.key ≤ b.key

def resolve (candidates : List (ArbitrationCandidate ρ)) :
    Except PyError (ArbitrationDecision ρ) :=
  match ranked candidates with
  | [] => .error (.valueError "candidates must not be empty")
  | best :: rest =>
    if rest.head?.any (needsHuman best) then .ok {
      status := "needs_human"
      selectedRole := best.role
      result := best.result
      rationale := "top candidates are too close; human fallback required"
      evidenceChain := buildEvidenceChain (best :: rest) }
    else .ok {
      status := "resolved"
      selectedRole := best.role
      result := best.result
      rationale := "selected by priority first, then confidence"
      evidenceChain := buildEvidenceChain (best :: rest) }

end Arbitrator

end AgentLearning
