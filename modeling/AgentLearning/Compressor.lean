import Mathlib.Algebra.Order.Field.Rat
import Mathlib.Data.Finset.Card
import Mathlib.Data.Rat.Floor
import AgentLearning.Retriever

/-!
# The compressor

`src/rag/compressor.py`, with `src/rag/context_budget.py` and the results of `src/rag/reranker.py`:
results that repeat others, then those that say little, are left out, and of the rest those are
kept, in their order, that fit into the budget. The usage of a category that the manager does not
have is not recorded.
-/

namespace AgentLearning

/-! ## The budget -/

structure BudgetAllocation where
  systemPrompt : ℤ := 500
  conversationHistory : ℤ := 1000
  retrievalContext : ℤ := 2000
  userInput : ℤ := 500
  safetyMargin : ℤ := 200

def usageCategories : List String :=
  ["system_prompt", "conversation_history", "retrieval_context", "user_input"]

structure ContextBudgetManager where
  maxTotalTokens : ℤ := 4096
  allocation : BudgetAllocation := {}
  usage : Dict String ℤ := ⟨usageCategories.map (·, 0), by decide⟩
  keys_usage : usage.keys = usageCategories := by rfl

namespace ContextBudgetManager

variable (manager : ContextBudgetManager)

/-- `self._usage[category]`, of a category that is there. -/
def used (category : String) : ℤ := (manager.usage.get? category).getD 0

def usedByOthers : ℤ :=
  manager.used "system_prompt" + manager.used "conversation_history" + manager.used "user_input"

def getRetrievalBudget : ℤ :=
  let available :=
    manager.maxTotalTokens - manager.usedByOthers - manager.allocation.safetyMargin
  min available manager.allocation.retrievalContext

def recordUsage (category : String) (tokens : ℤ) : ContextBudgetManager :=
  if h : category ∈ manager.usage.keys then
    { manager with
      usage := manager.usage.set category tokens
      keys_usage := by rw [Dict.keys_set, if_pos h, manager.keys_usage] }
  else manager

end ContextBudgetManager

/-! ## Results -/

structure RerankScore where
  relevanceScore : ℚ
  freshnessScore : ℚ
  authorityScore : ℚ
  finalScore : ℚ
  explanation : String

structure RerankResult where
  chunk : RetrievalChunk
  rerankScore : RerankScore
  originalRank : ℕ
  newRank : ℕ

structure CompressedChunk where
  chunkId : String
  content : String
  tokenCount : ℤ
  sourceId : String
  finalScore : ℚ
  keptReason : String
  metadata : List (String × Json) := []

structure CompressionResult where
  chunks : List CompressedChunk
  totalTokens : ℤ
  budgetLimit : ℤ
  droppedCount : ℤ
  droppedReasons : Dict String ℕ
  latencyMs : ℚ

/-- What the code has from the language: the tables of Unicode, the digest, and the format `.3f`. -/
structure TextFunctions where
  isSpace : Char → Bool
  isAlnum : Char → Bool
  lower : String → String
  md5 : String → String
  format3f : ℚ → String

namespace TextFunctions

variable (f : TextFunctions)

def strip (text : String) : String :=
  String.ofList (((text.toList.dropWhile f.isSpace).reverse.dropWhile f.isSpace).reverse)

/-- `str.split()`: the longest runs without space. -/
def split (text : String) : List String :=
  ((text.toList.splitOnP f.isSpace).filter fun run => !run.isEmpty).map String.ofList

/-- The words of a content, in lower case and each once. -/
def tokenSet (content : String) : Finset String := (f.split (f.lower content)).toFinset

end TextFunctions

def isChinese (c : Char) : Bool := 0x4e00 ≤ c.toNat && c.toNat ≤ 0x9fff

/-! ## The compressor -/

structure Compressor where
  budgetManager : ContextBudgetManager := {}
  dedupThreshold : ℚ := 17 / 20
  minContentLength : ℤ := 20
  minInfoDensity : ℚ := 3 / 10

/-- What the loop of the deduplication has. -/
structure Deduplication where
  seenHashes : List String := []
  seenTokenSets : List (Finset String) := []
  deduped : List RerankResult := []
  dupCount : ℕ := 0

/-- What the loop over the budget has. -/
structure Selection where
  selected : List CompressedChunk := []
  usedTokens : ℤ := 0
  droppedReasons : Dict String ℕ

/-- `reasons[reason] = reasons.get(reason, 0) + 1`. -/
def countReason (reasons : Dict String ℕ) (reason : String) : Dict String ℕ :=
  reasons.set reason ((reasons.get? reason).getD 0 + 1)

namespace Compressor

variable (f : TextFunctions) (compressor : Compressor)

def isNearDup (tokenSet existing : Finset String) : Bool :=
  0 < (tokenSet ∪ existing).card
    ∧ compressor.dedupThreshold ≤ (tokenSet ∩ existing).card / (tokenSet ∪ existing).card

def deduplicateStep (state : Deduplication) (result : RerankResult) : Deduplication :=
  let content := f.strip result.chunk.content
  let contentHash := f.md5 content
  if contentHash ∈ state.seenHashes then { state with dupCount := state.dupCount + 1 }
  else
    let tokenSet := f.tokenSet content
    if state.seenTokenSets.any (compressor.isNearDup tokenSet) then
      { state with dupCount := state.dupCount + 1 }
    else
      { state with
        seenHashes := state.seenHashes ++ [contentHash]
        seenTokenSets := state.seenTokenSets ++ [tokenSet]
        deduped := state.deduped ++ [result] }

def deduplicate (results : List RerankResult) : List RerankResult × ℕ :=
  let state := results.foldl (compressor.deduplicateStep f) {}
  (state.deduped, state.dupCount)

def checkLowValue (content : String) : Option String :=
  let content := f.strip content
  if (content.length : ℤ) < compressor.minContentLength then some "too_short"
  else
    let alnumCount := content.toList.countP fun c => f.isAlnum c || isChinese c
    let total := content.length
    if 0 < total ∧ (alnumCount / total : ℚ) < compressor.minInfoDensity then
      some "low_info_density"
    else none

def estimateTokens (text : String) : ℤ :=
  let chineseChars := text.toList.countP isChinese
  let words := (f.split text).length
  ⌊(chineseChars * (3 / 2) + words * (13 / 10) : ℚ)⌋

/-- The loop over the results that are no duplicates. -/
def filterStep (state : List RerankResult × Dict String ℕ) (result : RerankResult) :
    List RerankResult × Dict String ℕ :=
  match compressor.checkLowValue f result.chunk.content with
  | some reason => (state.1, countReason state.2 reason)
  | none => (state.1 ++ [result], state.2)

def compressed (result : RerankResult) : CompressedChunk where
  chunkId := result.chunk.chunkId
  content := result.chunk.content
  tokenCount := estimateTokens f result.chunk.content
  sourceId := result.chunk.sourceId
  finalScore := result.rerankScore.finalScore
  keptReason := s!"rank={result.newRank}, score={f.format3f result.rerankScore.finalScore}"
  metadata := result.chunk.metadata

def selectStep (budget : ℤ) (state : Selection) (result : RerankResult) : Selection :=
  let tokenCount := estimateTokens f result.chunk.content
  if budget < state.usedTokens + tokenCount then
    { state with droppedReasons := countReason state.droppedReasons "over_budget" }
  else
    { state with
      selected := state.selected ++ [compressed f result]
      usedTokens := state.usedTokens + tokenCount }

/-- `budget_override or self.budget_manager.get_retrieval_budget()`. -/
def budget (budgetOverride : Option ℤ) : ℤ :=
  match budgetOverride with
  | some n => if n = 0 then compressor.budgetManager.getRetrievalBudget else n
  | none => compressor.budgetManager.getRetrievalBudget

/-- `start` and `stop` are what the clock shows at the two ends of the call. -/
def compress (results : List RerankResult) (budgetOverride : Option ℤ) (start stop : ℚ) :
    CompressionResult × Compressor :=
  let budget := compressor.budget budgetOverride
  let (deduped, dupCount) := compressor.deduplicate f results
  let droppedReasons : Dict String ℕ :=
    if 0 < dupCount then (∅ : Dict String ℕ).set "duplicate" dupCount else ∅
  let (filtered, droppedReasons) := deduped.foldl (compressor.filterStep f) ([], droppedReasons)
  let selection := filtered.foldl (selectStep f budget) { droppedReasons }
  ({ chunks := selection.selected
     totalTokens := selection.usedTokens
     budgetLimit := budget
     droppedCount := results.length - selection.selected.length
     droppedReasons := selection.droppedReasons
     latencyMs := (stop - start) * 1000 },
    { compressor with
      budgetManager :=
        compressor.budgetManager.recordUsage "retrieval_context" selection.usedTokens })

end Compressor

end AgentLearning
