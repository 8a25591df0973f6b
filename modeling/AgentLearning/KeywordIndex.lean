import Mathlib.Algebra.Order.Field.Basic
import AgentLearning.Retriever

/-!
# The keyword retriever with any numbers

`src/rag/keyword_retriever.py` once more, over the numbers of any ordered field and with any
logarithm on them, so that the scores can be real numbers. Here a division by zero and a logarithm
of a number that is not positive raise, as they do in the code.
-/

namespace AgentLearning

/-- The parameters are in the range that BM25 gives them. -/
structure Bm25Params (K : Type*) [Field K] [LinearOrder K] where
  k1 : K
  b : K
  k1_nonneg : 0 ≤ k1
  b_nonneg : 0 ≤ b
  b_le_one : b ≤ 1

inductive ArithmeticError
  | zeroDivisionError
  | mathDomainError
  deriving DecidableEq, Repr

structure KeywordIndex (K : Type*) [Field K] [LinearOrder K] where
  topK : ℕ := 20
  params : Bm25Params K
  documents : List IndexedChunk := []
  docCount : ℕ := 0
  avgDocLen : K := 0
  df : Dict String ℕ := ∅

section Arithmetic

variable {K : Type*} [Field K] [LinearOrder K]

/-- `x / y`. -/
def divide (x y : K) : Except ArithmeticError K :=
  if y = 0 then .error .zeroDivisionError else .ok (x / y)

/-- `math.log(x)`. -/
def mathLog (log : K → K) (x : K) : Except ArithmeticError K :=
  if 0 < x then .ok (log x) else .error .mathDomainError

end Arithmetic

namespace KeywordIndex

variable {K : Type*} [Field K] [LinearOrder K] (builtins : Builtins) (log : K → K)
  (index : KeywordIndex K)

def addDocuments (documents : List IndexedChunk) : KeywordIndex K :=
  let documents := index.documents ++ documents.map (·.withTokens builtins)
  let docCount := documents.length
  let totalLen : ℕ := (documents.map (·.tokens.length)).sum
  { index with
    documents
    docCount
    avgDocLen := if 0 < docCount then totalLen / docCount else 0
    df := countDocuments documents }

/-- In how many documents a token is, as a number. -/
def dfOf (token : String) : K := ((index.df.get? token).getD 0 : ℕ)

/-- What the logarithm of a token is taken of. -/
def idfArgument (token : String) : Except ArithmeticError K := do
  let ratio ← divide (index.docCount - index.dfOf token + 1 / 2) (index.dfOf token + 1 / 2)
  return ratio + 1

/-- The same with a division that does not raise. -/
def argumentOf (token : String) : K :=
  (index.docCount - index.dfOf token + 1 / 2) / (index.dfOf token + 1 / 2) + 1

def tokenScore (doc : IndexedChunk) (token : String) : Except ArithmeticError K := do
  let tf : K := doc.tokens.count token
  let argument ← index.idfArgument token
  let idf ← mathLog log argument
  let numerator := tf * (index.params.k1 + 1)
  let docLen : K := doc.tokens.length
  let length ← divide (index.params.b * docLen) index.avgDocLen
  divide (idf * numerator) (tf + index.params.k1 * (1 - index.params.b + length))

def bm25Score (queryTokens : List String) (doc : IndexedChunk) : Except ArithmeticError K :=
  queryTokens.foldlM (fun score token =>
    if token ∈ doc.tokens then do
      let added ← index.tokenScore log doc token
      return score + added
    else return score) 0

/-- The documents found, each with its score. -/
def search (query : String) (topK : Option ℕ) :
    Except ArithmeticError (List (IndexedChunk × K)) := do
  let k := orDefault topK index.topK
  let queryTokens := tokenize builtins query
  if queryTokens.isEmpty || index.docCount == 0 then return []
  let scores ← index.documents.mapM fun doc => do
    let score ← index.bm25Score log queryTokens doc
    return (doc, score)
  return (ranking Prod.snd (scores.filter fun (_, score) => 0 < score)).take k

end KeywordIndex

end AgentLearning
