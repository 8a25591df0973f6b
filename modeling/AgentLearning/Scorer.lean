import Mathlib.Algebra.Order.Field.Rat
import Mathlib.Data.Prod.Lex
import Mathlib.Data.Rat.Floor
import Mathlib.Data.String.Basic
import AgentLearning.Compressor
import AgentLearning.Lib.FoldBy

/-!
# The evaluation scorer

`eval/scorer.py`: what one sample scores, and the summary of a run, which has its figures once over
all samples and once for every category and every difficulty. Scores and latencies are rationals.
What `statistics.pstdev` gives is a parameter.
-/

namespace AgentLearning.Evaluation

structure EvalSample where
  id : String
  category : String
  query : String
  expectedAnswer : String
  relevantSourceIds : List String := []
  difficulty : String := "medium"
  tags : List String := []
  expectError : Option String := none
  toolName : Option String := none
  toolParams : List (String × Json) := []
  callerRole : String := "public"
  tenant : String := "default"

/-- What stands in a result as an error code: a name, or the number of an error of the validator. -/
inductive CaseError
  | name (s : String)
  | number (n : ℕ)
  deriving DecidableEq, Repr

def CaseError.truthy : CaseError → Bool
  | .name s => s ≠ ""
  | .number n => n ≠ 0

structure EvalCaseResult where
  sampleId : String
  category : String
  difficulty : String
  success : Bool
  answer : String
  expectedAnswer : String
  answerF1 : ℚ
  latencyMs : ℚ
  traceId : Option String := none
  sessionId : Option String := none
  retrievedSourceIds : List String := []
  recallAt5 : ℚ := 0
  recallAt10 : ℚ := 0
  mrr : ℚ := 0
  errorCode : Option CaseError := none
  stepOutcomes : Dict String Bool := ∅
  validationRejected : Bool := false
  authDenied : Bool := false
  circuitOpened : Bool := false
  auditEntries : ℕ := 0
  retrievalCalls : ℕ := 0
  toolCalls : ℕ := 0
  inputTokens : ℕ := 0
  outputTokens : ℕ := 0

/-! ## One sample -/

section Sample

def inRun (c : Char) : Bool :=
  ('a' ≤ c && c ≤ 'z') || ('0' ≤ c && c ≤ '9') || c = '_'

/-- The run of letters that ends here, if there is one. -/
def closeRun (run : List Char) : List String :=
  if run.isEmpty then [] else [String.ofList run]

/-- `re.findall(r"[a-z0-9_]+|[\u4e00-\u9fff]", text)`, after the letters of `run`. -/
def findTokens (run : List Char) : List Char → List String
  | [] => closeRun run
  | c :: text =>
    if inRun c then findTokens (run ++ [c]) text
    else if isChinese c then closeRun run ++ c.toString :: findTokens [] text
    else closeRun run ++ findTokens [] text

variable (f : TextFunctions)

def tokenizeText (text : String) : List String :=
  let normalizedText := f.strip (f.lower text)
  (findTokens [] normalizedText.toList).filter fun token => token ≠ ""

def estimateTokens (text : String) : ℕ := (tokenizeText f text).length

def computeF1 (predicted expected : String) : ℚ :=
  let predictedTokens := tokenizeText f predicted
  let expectedTokens := tokenizeText f expected
  if predictedTokens.isEmpty || expectedTokens.isEmpty then 0
  else
    let predictedSet := predictedTokens.toFinset
    let expectedSet := expectedTokens.toFinset
    let commonTokens := predictedSet ∩ expectedSet
    if commonTokens = ∅ then 0
    else
      let precision : ℚ := commonTokens.card / predictedSet.card
      let «recall» : ℚ := commonTokens.card / expectedSet.card
      2 * precision * «recall» / (precision + «recall»)

end Sample

def computeRecallAtK (retrievedSourceIds relevantSourceIds : List String) (topK : ℕ) : ℚ :=
  if relevantSourceIds.isEmpty then 1
  else
    let relevantSet := relevantSourceIds.toFinset
    let retrievedSet := (retrievedSourceIds.take topK).toFinset
    (retrievedSet ∩ relevantSet).card / relevantSet.card

/-- The loop over the ranks from this one on. -/
def reciprocalRank (relevantSourceIds : List String) (rank : ℕ) : List String → ℚ
  | [] => 0
  | sourceId :: sourceIds =>
    if sourceId ∈ relevantSourceIds then 1 / rank
    else reciprocalRank relevantSourceIds (rank + 1) sourceIds

def computeMrr (retrievedSourceIds relevantSourceIds : List String) : ℚ :=
  if relevantSourceIds.isEmpty then 1 else reciprocalRank relevantSourceIds 1 retrievedSourceIds

/-! ## The summary -/

/-- `items[index]`, which counts from the end if the index is negative. -/
def itemAt {α : Type*} (items : List α) (index : ℤ) : Except PyError α :=
  let place := if index < 0 then index + items.length else index
  if place < 0 then .error (.exception "list index out of range")
  else match items[place.toNat]? with
    | some item => .ok item
    | none => .error (.exception "list index out of range")

def computePercentile (values : List ℚ) (percentile : ℚ) : Except PyError ℚ :=
  if values.isEmpty then .ok 0
  else
    let sortedValues := values.insertionSort (· ≤ ·)
    let index := max 0 (⌈(sortedValues.length : ℚ) * percentile⌉ - 1)
    itemAt sortedValues index

def safeDivide (numerator denominator : ℕ) (defaultValue : ℚ) : ℚ :=
  if denominator = 0 then defaultValue else numerator / denominator

structure GroupMetrics where
  count : ℚ
  e2eSuccessRate : ℚ
  avgAnswerF1 : ℚ
  avgRecallAt5 : ℚ
  avgMrr : ℚ
  avgLatencyMs : ℚ
  deriving DecidableEq

structure EvalCost where
  totalTokens : ℕ
  toolCalls : ℕ
  retrievalCalls : ℕ
  deriving DecidableEq

structure EvalSummary where
  datasetName : String
  totalSamples : ℕ
  e2eSuccessRate : ℚ
  stepSuccessRates : Dict String ℚ
  p95LatencyMs : ℚ
  avgLatencyMs : ℚ
  avgRecallAt5 : ℚ
  avgRecallAt10 : ℚ
  avgMrr : ℚ
  avgAnswerF1 : ℚ
  accuracy : ℚ
  consistencyStd : ℚ
  stability : ℚ
  validationRejectionRate : ℚ
  authDenialRate : ℚ
  circuitOpenFrequency : ℚ
  auditCompleteness : ℚ
  cost : EvalCost
  failureBuckets : Dict CaseError ℕ
  byCategory : Dict String GroupMetrics
  byDifficulty : Dict String GroupMetrics
  details : List EvalCaseResult

section Summary

variable (caseResults : List EvalCaseResult)

/-- The steps attempted, with their outcomes, sample after sample. -/
def attempts : List (String × Bool) := caseResults.flatMap fun result => result.stepOutcomes.entries

def aggregateStepSuccess : Dict String ℚ :=
  let attemptCounts := Dict.countBy Prod.fst (attempts caseResults)
  let successCounts := Dict.countBy Prod.fst ((attempts caseResults).filter Prod.snd)
  (attemptCounts.entries.insertionSort fun a b => toLex a ≤ toLex b).foldl
    (fun rates entry =>
      rates.set entry.1 (safeDivide ((successCounts.get? entry.1).getD 0) entry.2 0)) ∅

/-- `sum(f(item) for item in results) / len(results)`. -/
def meanOf (f : EvalCaseResult → ℚ) : ℚ := (caseResults.map f).sum / caseResults.length

/-- `sum(1 for item in results if p(item)) / len(results)`. -/
def shareOf (p : EvalCaseResult → Bool) : ℚ := caseResults.countP p / caseResults.length

/-- The metrics of a group, which has at least one result. -/
def groupMetricsOf (groupResults : List EvalCaseResult) : GroupMetrics where
  count := groupResults.length
  e2eSuccessRate := shareOf groupResults (·.success)
  avgAnswerF1 := meanOf groupResults (·.answerF1)
  avgRecallAt5 := meanOf groupResults (·.recallAt5)
  avgMrr := meanOf groupResults (·.mrr)
  avgLatencyMs := meanOf groupResults (·.latencyMs)

def groupMetrics (field : EvalCaseResult → String) : Dict String GroupMetrics :=
  (Dict.groupBy field caseResults).mapValues groupMetricsOf

/-- `error_code or "quality_regression"`. -/
def bucketName (result : EvalCaseResult) : CaseError :=
  match result.errorCode with
  | some code => if code.truthy then code else .name "quality_regression"
  | none => .name "quality_regression"

def buildFailureBuckets : Dict CaseError ℕ :=
  Dict.countBy bucketName (caseResults.filter fun result => !result.success)

def isAccurate (result : EvalCaseResult) : Bool :=
  if result.success && result.errorCode.isSome && result.expectedAnswer.isEmpty then true
  else if 0 < result.toolCalls && result.errorCode.isNone then true
  else 4 / 5 ≤ result.answerF1

/-- `pstdev` is that of the module `statistics`. -/
def aggregateResults (pstdev : List ℚ → ℚ) (datasetName : String) : Except PyError EvalSummary := do
  let totalSamples := caseResults.length
  if totalSamples = 0 then throw (.valueError "case_results must not be empty")
  let latencies := caseResults.map (·.latencyMs)
  let toolSampleCount := caseResults.countP fun result =>
    (result.stepOutcomes.get? "validation").isSome
  let auditedToolSamples := caseResults.countP fun result => 0 < result.auditEntries
  let answerF1Values := caseResults.map (·.answerF1)
  let p95LatencyMs ← computePercentile latencies (19 / 20)
  pure
    { datasetName
      totalSamples
      e2eSuccessRate := shareOf caseResults (·.success)
      stepSuccessRates := aggregateStepSuccess caseResults
      p95LatencyMs
      avgLatencyMs := meanOf caseResults (·.latencyMs)
      avgRecallAt5 := meanOf caseResults (·.recallAt5)
      avgRecallAt10 := meanOf caseResults (·.recallAt10)
      avgMrr := meanOf caseResults (·.mrr)
      avgAnswerF1 := meanOf caseResults (·.answerF1)
      accuracy := shareOf caseResults isAccurate
      consistencyStd := if 1 < totalSamples then pstdev answerF1Values else 0
      stability := 1
      validationRejectionRate :=
        safeDivide (caseResults.countP (·.validationRejected)) toolSampleCount 0
      authDenialRate := safeDivide (caseResults.countP (·.authDenied)) toolSampleCount 0
      circuitOpenFrequency := safeDivide (caseResults.countP (·.circuitOpened)) toolSampleCount 0
      auditCompleteness := safeDivide auditedToolSamples toolSampleCount 1
      cost :=
        { totalTokens :=
            (caseResults.map fun result => result.inputTokens + result.outputTokens).sum
          toolCalls := (caseResults.map (·.toolCalls)).sum
          retrievalCalls := (caseResults.map (·.retrievalCalls)).sum }
      failureBuckets := buildFailureBuckets caseResults
      byCategory := groupMetrics caseResults (·.category)
      byDifficulty := groupMetrics caseResults (·.difficulty)
      details := caseResults }

end Summary

end AgentLearning.Evaluation
