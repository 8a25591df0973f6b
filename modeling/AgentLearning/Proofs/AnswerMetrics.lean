import Mathlib.Tactic.FieldSimp
import Mathlib.Tactic.Linarith
import AgentLearning.Scorer

/-!
# The scores of an answer

What the scores say of an answer and of the sources that were retrieved for it. The score of the
tokens is twice the share that the common tokens have in those of both texts. Recall counts what is
among the first sources, and the reciprocal rank tells where the first of it is, so each of them
bounds the other.
-/

namespace AgentLearning.Evaluation

/-! ## Tokens -/

section Shares

variable {common m n : ℕ}

end Shares

section Tokens

variable (f : TextFunctions) (predicted expected : String)

def tokenSet (text : String) : Finset String := (tokenizeText f text).toFinset

end Tokens

/-! ## Sources -/

section Sources

variable {retrieved relevant : List String}

/-- What the scores of a sample say. -/
structure ScoresMean (f : TextFunctions) (predicted expected : String)
    (retrieved relevant : List String) : Prop where
  f1 : computeF1 f predicted expected
    = 2 * (tokenSet f predicted ∩ tokenSet f expected).card
      / ((tokenSet f predicted).card + (tokenSet f expected).card)
  f1_one : computeF1 f predicted expected = 1
    ↔ tokenSet f predicted = tokenSet f expected ∧ tokenSet f predicted ≠ ∅
  f1_zero : computeF1 f predicted expected = 0
    ↔ tokenSet f predicted ∩ tokenSet f expected = ∅
  recall_mono : Monotone (computeRecallAtK retrieved relevant)
  recall_one (k : ℕ) : computeRecallAtK retrieved relevant k = 1
    ↔ ∀ source ∈ relevant, source ∈ retrieved.take k
  mrr (k : ℕ) (hk : 0 < k) : (1 : ℚ) / k ≤ computeMrr retrieved relevant
    ↔ 0 < computeRecallAtK retrieved relevant k
  bounds : (0 ≤ computeF1 f predicted expected ∧ computeF1 f predicted expected ≤ 1)
    ∧ (∀ k, 0 ≤ computeRecallAtK retrieved relevant k ∧ computeRecallAtK retrieved relevant k ≤ 1)
    ∧ 0 ≤ computeMrr retrieved relevant ∧ computeMrr retrieved relevant ≤ 1

end Sources

end AgentLearning.Evaluation
