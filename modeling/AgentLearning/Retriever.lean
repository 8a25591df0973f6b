import Mathlib.Algebra.BigOperators.Group.List.Basic
import Mathlib.Algebra.Order.Field.Rat
import Mathlib.Data.Finset.Card
import AgentLearning.Lib.Ranking
import AgentLearning.Value

/-!
# The two retrievers and their fusion

`src/rag/retriever.py` and `src/rag/keyword_retriever.py`: a query is answered from a vector index
and from a keyword index, each of which gives its best chunks only. The answers of the two are
fused, by their ranks or by their scores, then what the role may not see is left out, and then the
first chunks are kept. Numbers of chunks are natural numbers.
-/

namespace AgentLearning

structure RetrievalChunk where
  chunkId : String
  content : String
  score : ℚ
  sourceId : String
  sourceType : String
  accessLevel : String := "public"
  metadata : List (String × Json) := []
  retrievalSource : String := ""

structure RetrievalResult where
  query : String
  chunks : List RetrievalChunk
  totalCandidates : ℕ
  latencyMs : ℚ
  retrievalSources : Dict String ℕ

/-- `value or default` for a number that may be missing. -/
def orDefault (value : Option ℕ) (default : ℕ) : ℕ := (value.filter (· ≠ 0)).getD default

/-! ## Vectors -/

structure VectorRetriever where
  topK : ℕ := 20
  index : List RetrievalChunk := []

/-- The share of the characters of both texts that are in both. -/
def similarity (query content : String) : ℚ :=
  let queryChars := query.toList.toFinset
  let contentChars := content.toList.toFinset
  let overlap := (queryChars ∩ contentChars).card
  let union := (queryChars ∪ contentChars).card
  if 0 < union then overlap / union else 0

namespace VectorRetriever

variable (vector : VectorRetriever)

def addDocuments (chunks : List RetrievalChunk) : VectorRetriever :=
  { vector with index := vector.index ++ chunks }

def search (query : String) (topK : Option ℕ) : List RetrievalChunk :=
  let k := orDefault topK vector.topK
  ((ranking (fun chunk => similarity query chunk.content) vector.index).take k).map fun chunk =>
    { chunk with score := similarity query chunk.content, retrievalSource := "vector" }

end VectorRetriever

/-! ## Keywords -/

/-- What the code has from the language: the tables of Unicode, and the logarithm. -/
structure Builtins where
  lower : String → String
  isWord : Char → Bool
  log : ℚ → ℚ
  log_pos : ∀ x, 1 < x → 0 < log x

/-- `re.findall` of the longest runs of `[\w\u4e00-\u9fff]`, in lower case. -/
def tokenize (builtins : Builtins) (text : String) : List String :=
  let inToken (c : Char) := builtins.isWord c || (0x4e00 ≤ c.toNat && c.toNat ≤ 0x9fff)
  let runs := (builtins.lower text).toList.splitOnP fun c => !inToken c
  (runs.filter fun run => !run.isEmpty).map String.ofList

structure IndexedChunk where
  chunkId : String
  content : String
  sourceId : String
  sourceType : String
  accessLevel : String := "public"
  metadata : List (String × Json) := []
  tokens : List String := []

def IndexedChunk.withTokens (builtins : Builtins) (doc : IndexedChunk) : IndexedChunk :=
  if doc.tokens.isEmpty then { doc with tokens := tokenize builtins doc.content } else doc

def IndexedChunk.toResult (doc : IndexedChunk) (score : ℚ) : RetrievalChunk where
  chunkId := doc.chunkId
  content := doc.content
  score := score
  sourceId := doc.sourceId
  sourceType := doc.sourceType
  accessLevel := doc.accessLevel
  metadata := doc.metadata
  retrievalSource := "keyword"

/-- In how many documents each token is. -/
def countDocuments (documents : List IndexedChunk) : Dict String ℕ :=
  documents.foldl (fun df doc =>
    doc.tokens.dedup.foldl (fun df token => df.set token ((df.get? token).getD 0 + 1)) df) ∅

theorem getD_get?_countToken (t : String) : ∀ (tokens : List String) (df : Dict String ℕ),
    ((tokens.foldl (fun df token => df.set token ((df.get? token).getD 0 + 1)) df).get? t).getD 0
      = (df.get? t).getD 0 + tokens.count t
  | [], df => rfl
  | token :: tokens, df => by
    rw [List.foldl_cons, getD_get?_countToken t tokens, Dict.get?_set, List.count_cons]
    by_cases h : token = t
    · subst h
      simp
      omega
    · simp [h]

theorem getD_get?_countDocuments (documents : List IndexedChunk) (t : String) :
    ((countDocuments documents).get? t).getD 0 = documents.countP fun doc => t ∈ doc.tokens := by
  suffices h : ∀ (documents : List IndexedChunk) (df : Dict String ℕ),
      ((documents.foldl (fun df doc => doc.tokens.dedup.foldl
        (fun df token => df.set token ((df.get? token).getD 0 + 1)) df) df).get? t).getD 0
        = (df.get? t).getD 0 + documents.countP fun doc => t ∈ doc.tokens by
    simpa [countDocuments] using h documents ∅
  intro documents
  induction documents with
  | nil => exact fun df => rfl
  | cons doc documents ih =>
    intro df
    rw [List.foldl_cons, ih, getD_get?_countToken, List.count_dedup, List.countP_cons]
    simp only [decide_eq_true_eq]
    omega

theorem getD_get?_countDocuments_le (documents : List IndexedChunk) (t : String) :
    ((countDocuments documents).get? t).getD 0 ≤ documents.length := by
  rw [getD_get?_countDocuments]
  exact List.countP_le_length

/-- The parameters are in the range that BM25 gives them. -/
structure KeywordRetriever where
  topK : ℕ := 20
  k1 : ℚ := 3 / 2
  b : ℚ := 3 / 4
  documents : List IndexedChunk := []
  docCount : ℕ := 0
  avgDocLen : ℚ := 0
  df : Dict String ℕ := ∅
  k1_nonneg : 0 ≤ k1 := by decide +kernel
  b_nonneg : 0 ≤ b := by decide +kernel
  b_le_one : b ≤ 1 := by decide +kernel
  avgDocLen_nonneg : 0 ≤ avgDocLen := by decide +kernel
  df_le : ∀ t, (df.get? t).getD 0 ≤ docCount := by exact fun _ => Nat.le_refl 0

namespace KeywordRetriever

variable (builtins : Builtins) (keyword : KeywordRetriever)

def addDocuments (documents : List IndexedChunk) : KeywordRetriever :=
  let documents := keyword.documents ++ documents.map (·.withTokens builtins)
  let docCount := documents.length
  let totalLen : ℕ := (documents.map (·.tokens.length)).sum
  { keyword with
    documents
    docCount
    avgDocLen := if 0 < docCount then totalLen / docCount else 0
    df := countDocuments documents
    avgDocLen_nonneg := by
      split_ifs
      · exact div_nonneg (Nat.cast_nonneg _) (Nat.cast_nonneg _)
      · exact le_rfl
    df_le := getD_get?_countDocuments_le documents }

/-- What one token of the query adds to the score of a document that has it. -/
def tokenScore (doc : IndexedChunk) (token : String) : ℚ :=
  let tf : ℚ := doc.tokens.count token
  let df : ℚ := (keyword.df.get? token).getD 0
  let idf := builtins.log ((keyword.docCount - df + 1 / 2) / (df + 1 / 2) + 1)
  let numerator := tf * (keyword.k1 + 1)
  let docLen : ℚ := doc.tokens.length
  let denominator :=
    tf + keyword.k1 * (1 - keyword.b + keyword.b * docLen / keyword.avgDocLen)
  idf * numerator / denominator

def bm25Score (queryTokens : List String) (doc : IndexedChunk) : ℚ :=
  queryTokens.foldl (fun score token =>
    if token ∈ doc.tokens then score + keyword.tokenScore builtins doc token else score) 0

def search (query : String) (topK : Option ℕ) : List RetrievalChunk :=
  let k := orDefault topK keyword.topK
  let queryTokens := tokenize builtins query
  if queryTokens.isEmpty || keyword.docCount == 0 then []
  else
    let score := keyword.bm25Score builtins queryTokens
    let scored := keyword.documents.filter fun doc => 0 < score doc
    ((ranking score scored).take k).map fun doc => doc.toResult (score doc)

end KeywordRetriever

/-! ## Fusion -/

inductive MergeStrategy
  | rrf
  | weightedScore
  deriving DecidableEq

structure HybridRetriever where
  vectorRetriever : VectorRetriever := {}
  keywordRetriever : KeywordRetriever := {}
  mergeStrategy : MergeStrategy := .rrf
  vectorWeight : ℚ := 3 / 5
  keywordWeight : ℚ := 2 / 5
  finalTopK : ℕ := 10
  rrfK : ℕ := 60
  accessChecker : Option (String → String → Bool) := none

/-- What the merge keeps of one chunk; its three dictionaries have the same keys. -/
structure Fused where
  score : ℚ
  chunk : RetrievalChunk
  sources : List String

def Fused.toChunk (fused : Fused) : RetrievalChunk :=
  { fused.chunk with
    score := fused.score
    retrievalSource := if 1 < fused.sources.length then "both" else fused.sources.headD "" }

/-- One more result of a route, which adds `amount` to the score of its chunk. -/
def fuse (source : String) (fused : Dict String Fused) (chunk : RetrievalChunk) (amount : ℚ) :
    Dict String Fused :=
  let old := fused.get? chunk.chunkId
  fused.set chunk.chunkId
    { score := (old.map Fused.score).getD 0 + amount
      chunk
      sources := ((old.map Fused.sources).getD []).insert source }

def fuseRoute (source : String) (amount : ℕ → RetrievalChunk → ℚ) (fused : Dict String Fused)
    (results : List RetrievalChunk) : Dict String Fused :=
  results.zipIdx.foldl
    (fun fused (chunk, rank) => fuse source fused chunk (amount rank chunk)) fused

/-- Both merges: the amount that a result adds is a function of its rank and its score. -/
def merge (vectorAmount keywordAmount : ℕ → RetrievalChunk → ℚ)
    (vectorResults keywordResults : List RetrievalChunk) : List RetrievalChunk :=
  let fused := fuseRoute "vector" vectorAmount ∅ vectorResults
  let fused := fuseRoute "keyword" keywordAmount fused keywordResults
  (ranking Fused.score fused.values).map Fused.toChunk

def accessHierarchy : List (String × List String) :=
  [("public", ["public"]),
    ("internal", ["public", "internal"]),
    ("admin", ["public", "internal", "restricted"])]

def allowedLevels (userRole : String) : List String :=
  (getEntry userRole accessHierarchy).getD ["public"]

namespace HybridRetriever

variable (builtins : Builtins) (hybrid : HybridRetriever)

def mergeRrf : List RetrievalChunk → List RetrievalChunk → List RetrievalChunk :=
  merge (fun rank _ => 1 / (hybrid.rrfK + rank + 1)) (fun rank _ => 1 / (hybrid.rrfK + rank + 1))

def mergeWeighted : List RetrievalChunk → List RetrievalChunk → List RetrievalChunk :=
  merge (fun _ chunk => chunk.score * hybrid.vectorWeight)
    (fun _ chunk => chunk.score * hybrid.keywordWeight)

def mergeResults (vectorResults keywordResults : List RetrievalChunk) : List RetrievalChunk :=
  match hybrid.mergeStrategy with
  | .rrf => hybrid.mergeRrf vectorResults keywordResults
  | .weightedScore => hybrid.mergeWeighted vectorResults keywordResults

def mayAccess (userRole accessLevel : String) : Bool :=
  match hybrid.accessChecker with
  | some checker => checker userRole accessLevel
  | none => (allowedLevels userRole).contains accessLevel

def filterByAccess (chunks : List RetrievalChunk) (userRole : String) : List RetrievalChunk :=
  chunks.filter fun chunk => hybrid.mayAccess userRole chunk.accessLevel

/-- `start` and `stop` are what the clock shows at the two ends of the call. -/
def retrieve (query userRole : String) (topK : Option ℕ) (start stop : ℚ) : RetrievalResult :=
  let k := orDefault topK hybrid.finalTopK
  let vectorResults := hybrid.vectorRetriever.search query none
  let keywordResults := hybrid.keywordRetriever.search builtins query none
  let merged := hybrid.mergeResults vectorResults keywordResults
  let filtered := hybrid.filterByAccess merged userRole
  let final := filtered.take k
  let sources := (((∅ : Dict String ℕ).set "vector" 0).set "keyword" 0).set "both" 0
  { query
    chunks := final
    totalCandidates := merged.length
    latencyMs := (stop - start) * 1000
    retrievalSources := final.foldl (fun sources chunk =>
      match sources.get? chunk.retrievalSource with
      | some n => sources.set chunk.retrievalSource (n + 1)
      | none => sources) sources }

end HybridRetriever

end AgentLearning
