import AgentLearning.Compressor
import AgentLearning.ContractValidator

/-!
# The reranker

`src/rag/reranker.py`: the chunks that were retrieved are scored anew, by their relevance, by how
fresh they are and by the authority of their source, and the best ones are kept. The exponential
function and the texts of floats are parameters; the clock is read once for each chunk. Arithmetic
is exact, but for the numbers that are too large for a float, at which the code raises.
-/

namespace AgentLearning

/-- What the code has from the language. Where `exp` has no value, `math.exp` overflows, as it may
only for a positive argument. -/
structure RerankFunctions where
  exp : ℚ → Option ℚ
  exp_isSome : ∀ x ≤ 0, (exp x).isSome = true
  floatRepr : ℚ → String
  format3f : ℚ → String
  format4f : ℚ → String

structure RerankConfig where
  relevanceWeight : ℚ := 1 / 2
  freshnessWeight : ℚ := 3 / 10
  authorityWeight : ℚ := 1 / 5
  freshnessDecayDays : ℤ := 90
  topN : ℤ := 10
  sourceAuthority : Dict String ℚ :=
    ⟨[("doc", 9 / 10), ("db", 4 / 5), ("api", 7 / 10), ("user_generated", 1 / 2),
      ("unknown", 3 / 10)], by decide⟩

namespace RerankConfig

variable (config : RerankConfig)

def total : ℚ := config.relevanceWeight + config.freshnessWeight + config.authorityWeight

/-- The weights add up to 1, or nearly. -/
def Balanced : Prop := ¬ 1 / 1000000 < |config.total - 1|

instance : Decidable config.Balanced := inferInstanceAs (Decidable (¬ _))

end RerankConfig

structure RerankOutput where
  results : List RerankResult
  latencyMs : ℚ
  config : List (String × Json)

/-- Only a configuration that was validated has a reranker. -/
structure Reranker where
  config : RerankConfig := {}
  balanced : config.Balanced := by decide +kernel

/-- What the clock shows at both ends of a call, and for each of the chunks. -/
structure RerankReadings where
  start : ℚ
  stop : ℚ
  now : ℕ → ℚ

namespace Reranker

def create (f : RerankFunctions) (config : RerankConfig) : Except PyError Reranker :=
  if h : config.Balanced then .ok { config, balanced := h }
  else .error (.valueError s!"权重之和必须为 1.0，当前为 {f.format4f config.total}")

variable (f : RerankFunctions) (reranker : Reranker)

/-- What an integer has to be below, to be converted to a float: halfway from the largest float to
`2 ^ 1024` it is rounded up. -/
def floatBound : ℚ := 2 ^ 1024 - 2 ^ 970

/-- A number as a float. -/
def toFloat (q : ℚ) : Except PyError ℚ :=
  if floatBound ≤ |q| then .error (.exception "int too large to convert to float") else .ok q

/-- `-max(age_days, 0) / freshness_decay_days`. An age below zero becomes the integer 0, which is
divided without a conversion of the divisor. -/
def decayExponent (ageDays : ℚ) : Except PyError ℚ :=
  let decayDays := reranker.config.freshnessDecayDays
  if ageDays < 0 then
    if decayDays = 0 then .error (.exception "division by zero") else .ok 0
  else do
    let divisor ← toFloat decayDays
    if divisor = 0 then .error (.exception "float division by zero") else .ok (-ageDays / divisor)

/-- The `updated_at` of the metadata, if it is a number and not 0. -/
def updatedAt (metadata : List (String × Json)) : Option ℚ :=
  let value := (getEntry "updated_at" metadata).getD .null
  if value.truthy then value.number else none

def calcFreshness (chunk : RetrievalChunk) (now : ℚ) : Except PyError ℚ :=
  match updatedAt chunk.metadata with
  | none => .ok (1 / 2)
  | some updated => do
    let updated ← toFloat updated
    let exponent ← reranker.decayExponent ((now - updated) / 86400)
    match f.exp exponent with
    | none => .error (.exception "math range error")
    | some score => .ok score

def calcAuthority (chunk : RetrievalChunk) : ℚ :=
  (reranker.config.sourceAuthority.get? chunk.sourceType).getD
    ((reranker.config.sourceAuthority.get? "unknown").getD (3 / 10))

def finalScore (relevance freshness authority : ℚ) : ℚ :=
  reranker.config.relevanceWeight * relevance + reranker.config.freshnessWeight * freshness
    + reranker.config.authorityWeight * authority

/-- `f"{name}={score:.3f}(w={weight})"`. -/
def explain (name : String) (score weight : ℚ) : String :=
  s!"{name}={f.format3f score}(w={f.floatRepr weight})"

/-- One round of the loop; the new rank is filled in after the sort. -/
def scoreChunk (maxScore : ℚ) (now : ℕ → ℚ) (chunk : RetrievalChunk) (index : ℕ) :
    Except PyError RerankResult := do
  let relevanceScore := chunk.score / maxScore
  let freshnessScore ← reranker.calcFreshness f chunk (now index)
  let authorityScore := reranker.calcAuthority chunk
  pure
    { chunk
      rerankScore :=
        { relevanceScore
          freshnessScore
          authorityScore
          finalScore := reranker.finalScore relevanceScore freshnessScore authorityScore
          explanation :=
            explain f "relevance" relevanceScore reranker.config.relevanceWeight ++ ", "
              ++ explain f "freshness" freshnessScore reranker.config.freshnessWeight ++ ", "
              ++ explain f "authority" authorityScore reranker.config.authorityWeight }
      originalRank := index + 1
      newRank := 0 }

/-- `max(c.score for c in chunks) or 1.0`. -/
def maxScore (chunks : List RetrievalChunk) : ℚ :=
  let best := ((chunks.map (·.score)).max?).getD 0
  if best = 0 then 1 else best

def configDict : List (String × Json) :=
  [("relevance_weight", .float reranker.config.relevanceWeight),
    ("freshness_weight", .float reranker.config.freshnessWeight),
    ("authority_weight", .float reranker.config.authorityWeight),
    ("freshness_decay_days", .int reranker.config.freshnessDecayDays),
    ("top_n", .int reranker.config.topN)]

/-- The new ranks, in the order of the sort. -/
def assignRanks (results : List RerankResult) : List RerankResult :=
  results.zipIdx.map fun (result, index) => { result with newRank := index + 1 }

/-- `top_n or self.config.top_n`. -/
def limit (topN : Option ℤ) : ℤ := (topN.filter (· ≠ 0)).getD reranker.config.topN

def rerank (chunks : List RetrievalChunk) (topN : Option ℤ) (readings : RerankReadings) :
    Except PyError RerankOutput := do
  if chunks.isEmpty then
    return { results := [], latencyMs := 0, config := reranker.configDict }
  let scored ← chunks.zipIdx.mapM fun (chunk, index) =>
    reranker.scoreChunk f (maxScore chunks) readings.now chunk index
  let ranked := assignRanks (ranking (fun result => result.rerankScore.finalScore) scored)
  pure
    { results := sliceTo ranked (reranker.limit topN)
      latencyMs := (readings.stop - readings.start) * 1000
      config := reranker.configDict }

end Reranker

end AgentLearning
