import AgentLearning.Scorer

/-!
# Other percentiles of latencies

`src/observability/latency_analyzer.py` and the summary of `eval/scripts/eval_rag.py`: both have a
rank of their own for the 95th percentile. Floats are rationals, `0.95` and `0.999999` included.
-/

namespace AgentLearning.Evaluation

namespace LatencyAnalyzer

/-- `_percentile`. -/
def percentile (values : List ℚ) (percentile : ℚ) : Except PyError ℚ :=
  if values.isEmpty then .ok 0
  else
    let sortedValues := values.insertionSort (· ≤ ·)
    let index := max 0 (intOfFloat (sortedValues.length * percentile + 999999 / 1000000) - 1)
    itemAt sortedValues index

end LatencyAnalyzer

namespace EvalRag

/-- `p95_lat` of `run_evaluation`. -/
def p95Latency (latencies : List ℚ) : Except PyError ℚ :=
  let n := latencies.length
  if n ≠ 0 then itemAt (latencies.insertionSort (· ≤ ·)) (intOfFloat (n * (19 / 20))) else .ok 0

end EvalRag

end AgentLearning.Evaluation
