import AgentLearning.Lib.ComparisonSort
import AgentLearning.Scorer

/-!
# Error buckets

`src/observability/error_bucket.py`: the failed samples by error code, in the order of their
priority. The code is a part of the sort key, and a name and a number cannot be compared. Which
comparisons `sorted` makes is not known, so any comparison sort may stand for it.
-/

namespace AgentLearning.Evaluation

structure ErrorBucketEntry where
  category : String
  errorCode : CaseError
  priority : ℕ
  count : ℕ
  sampleIds : List String
  deriving DecidableEq

/-- `error_code < other`. -/
def CaseError.lt : CaseError → CaseError → Except PyError Bool
  | .name s, .name t => .ok (s < t)
  | .number n, .number m => .ok (n < m)
  | .name _, .number _ =>
    .error (.typeError "'<' not supported between instances of 'str' and 'int'")
  | .number _, .name _ =>
    .error (.typeError "'<' not supported between instances of 'int' and 'str'")

namespace ErrorBucketAnalyzer

def classifyCategory : CaseError → String
  | .name "missing_required_field" => "data"
  | .name "invalid_tool_name" => "tool"
  | .name "tool_execution_failed" => "tool"
  | .name "circuit_open" => "system"
  | .name "rate_limited" => "system"
  | .name "unauthorized" => "strategy"
  | .name "quality_regression" => "model"
  | _ => "system"

def priorityOf : CaseError → ℕ
  | .name "circuit_open" => 1
  | .name "tool_execution_failed" => 1
  | .name "rate_limited" => 2
  | .name "unauthorized" => 3
  | .name "missing_required_field" => 3
  | .name "invalid_tool_name" => 2
  | .name "quality_regression" => 2
  | _ => 3

/-- `(category, error_code)`. -/
def groupKey (caseResult : EvalCaseResult) : String × CaseError :=
  let errorCode := bucketName caseResult
  (classifyCategory errorCode, errorCode)

/-- `ErrorBucketEntry(category, error_code, priority, 0, [])`. -/
def newEntry (key : String × CaseError) : ErrorBucketEntry :=
  { category := key.1
    errorCode := key.2
    priority := priorityOf key.2
    count := 0
    sampleIds := [] }

def addSample (entry : ErrorBucketEntry) (caseResult : EvalCaseResult) : ErrorBucketEntry :=
  { entry with
    count := entry.count + 1
    sampleIds := entry.sampleIds ++ [caseResult.sampleId] }

def grouped (caseResults : List EvalCaseResult) : Dict (String × CaseError) ErrorBucketEntry :=
  Dict.foldBy groupKey newEntry addSample (caseResults.filter fun result => !result.success)

/-- `key(item) < key(other)`, where the key is `(priority, -count, error_code)`. -/
def keyLt (item other : ErrorBucketEntry) : Except PyError Bool :=
  if item.priority ≠ other.priority then .ok (item.priority < other.priority)
  else if item.count ≠ other.count then .ok (other.count < item.count)
  else if item.errorCode = other.errorCode then .ok false
  else item.errorCode.lt other.errorCode

/-- `entries[:limit]`, which counts from the end if the limit is negative. -/
def firstEntries (entries : List ErrorBucketEntry) (limit : ℤ) : List ErrorBucketEntry :=
  entries.take (if limit < 0 then limit + entries.length else limit).toNat

variable (sorted : ComparisonSort)

def buildTopn (caseResults : List EvalCaseResult) (limit : ℤ := 5) :
    Except PyError (List ErrorBucketEntry) := do
  let entries ← sorted.sortBy keyLt (grouped caseResults).values
  pure (firstEntries entries limit)

end ErrorBucketAnalyzer

end AgentLearning.Evaluation
