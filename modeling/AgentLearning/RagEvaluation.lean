import AgentLearning.EvaluationRunner
import AgentLearning.Lib.WorkerPool
import AgentLearning.Reranker

/-!
# The evaluation of a dataset

`eval/runner.py`: how a sample that names no tool is run, and how the samples of a dataset are, one
after the other or by the workers of a pool. Retrieving, reranking and compressing only read what
the runner has, but for the budget manager of the compressor: it is shared by the workers, each of
which reads the budget from it and later records what it used. What the clock shows is read from the
arguments, and so is which of the waits for a worker is too long. The reports that a run writes are
not part of this.
-/

namespace AgentLearning.Evaluation

structure EvaluationFunctions extends RunnerFunctions where
  builtins : Builtins
  rerank : RerankFunctions

/-- What the run of a sample reads if it names no tool. -/
structure RagReadings where
  start : ℚ
  finish : ℚ
  retrieval : ℚ × ℚ
  rerank : RerankReadings
  compression : ℚ × ℚ

/-- A sample, with what its run reads. -/
structure Job where
  sample : EvalSample
  gateway : GatewayReadings
  rag : RagReadings

/-- The compressor's own budget manager is the one that the workers find at the start. -/
structure EvaluationRunner where
  maxWorkers : ℤ := 1
  retriever : HybridRetriever
  reranker : Reranker
  compressor : Compressor

/-- A program on the budget manager that the workers share. -/
abbrev SampleProg := Prog Unit ContextBudgetManager PyError

/-! ## The runner's knowledge -/

/-- The source of each document, with its text. -/
def mockDocuments : List (String × String) :=
  [("doc_refund_policy", "退款政策规定退款有效期为30天，超过30天不予退款。用户需在购买后30天内提出退款申请。"),
    ("doc_merchant_onboard",
      "商户入驻需要提供以下资质：营业执照、食品经营许可证、法人身份证。所有证件需在有效期内。"),
    ("doc_coupon_rules", "优惠券规则：单张优惠券最大面额为500元。每日领券上限为10张。默认不允许叠加使用。"),
    ("doc_verification", "核销流程说明：核销超时时间为30分钟，超过30分钟未完成核销将自动取消。"),
    ("doc_settlement",
      "商户结算提现流程：进入商户端，点击财务管理，选择提现申请，填写金额，提交审核，1到3个工作日到账。")]

def mockChunk (now : String → ℚ) (document : String × String) : RetrievalChunk where
  chunkId := s!"{document.1}_chunk_0"
  content := document.2
  score := 0
  sourceId := document.1
  sourceType := "doc"
  accessLevel := "public"
  metadata := [("updated_at", .float (now document.1))]

def mockIndexed (now : String → ℚ) (document : String × String) : IndexedChunk where
  chunkId := s!"{document.1}_chunk_0"
  content := document.2
  sourceId := document.1
  sourceType := "doc"
  accessLevel := "public"
  metadata := [("updated_at", .float (now document.1))]

/-- `now` is what the clock shows when a document is loaded. -/
def seedMockKnowledge (builtins : Builtins) (now : String → ℚ) (retriever : HybridRetriever) :
    HybridRetriever :=
  { retriever with
    vectorRetriever := retriever.vectorRetriever.addDocuments (mockDocuments.map (mockChunk now))
    keywordRetriever :=
      retriever.keywordRetriever.addDocuments builtins (mockDocuments.map (mockIndexed now)) }

namespace EvaluationRunner

def create (fs : EvaluationFunctions) (maxWorkers : ℤ) (now : String → ℚ) :
    Except PyError EvaluationRunner := do
  let reranker ← Reranker.create fs.rerank { topN := 10 }
  pure
    { maxWorkers
      retriever := seedMockKnowledge fs.builtins now { finalTopK := 10 }
      reranker
      compressor := { budgetManager := { maxTotalTokens := 4096 } } }

variable (fs : EvaluationFunctions) (runner : EvaluationRunner)

/-! ## A sample that names no tool -/

def buildAnswer (sample : EvalSample) (chunks : List CompressedChunk) : String :=
  if sample.expectedAnswer.startsWith "[REFUSE]" then sample.expectedAnswer
  else match chunks with
    | [] => "未找到相关信息"
    | chunk :: _ => chunk.content

def buildRagCaseResult (job : Job) (reranked : List RerankResult)
    (chunks : List CompressedChunk) : EvalCaseResult :=
  let sample := job.sample
  let generatedAnswer := buildAnswer sample chunks
  let retrievedSourceIds := reranked.map (·.chunk.sourceId)
  let answerF1 := computeF1 fs.text generatedAnswer sample.expectedAnswer
  { sampleId := sample.id
    category := sample.category
    difficulty := sample.difficulty
    success := if sample.expectError.isNone then 1 / 2 ≤ answerF1 else false
    answer := generatedAnswer
    expectedAnswer := sample.expectedAnswer
    answerF1
    latencyMs := (job.rag.finish - job.rag.start) * 1000
    traceId := some s!"trace-{sample.id}"
    sessionId := some s!"sess-{sample.id}"
    retrievedSourceIds
    recallAt5 := computeRecallAtK retrievedSourceIds sample.relevantSourceIds 5
    recallAt10 := computeRecallAtK retrievedSourceIds sample.relevantSourceIds 10
    mrr := computeMrr retrievedSourceIds sample.relevantSourceIds
    stepOutcomes := (((∅ : Dict String Bool).set "retrieval" true).set "rerank"
      (!reranked.isEmpty)).set "compression" (!chunks.isEmpty)
    retrievalCalls := 1
    inputTokens := estimateTokens fs.text sample.query
    outputTokens := estimateTokens fs.text generatedAnswer }

/-- What is retrieved and reranked, which does not depend on the budget. -/
def rerankedFor (job : Job) : Except PyError RerankOutput :=
  let retrieved := runner.retriever.retrieve fs.builtins job.sample.query job.sample.callerRole
    none job.rag.retrieval.1 job.rag.retrieval.2
  runner.reranker.rerank fs.rerank retrieved.chunks none job.rag.rerank

/-- What the compressor does with the budget manager that it finds. -/
def compressWith (manager : ContextBudgetManager) (job : Job) (reranked : List RerankResult) :
    CompressionResult :=
  (({ runner.compressor with budgetManager := manager } : Compressor).compress fs.text reranked none
    job.rag.compression.1 job.rag.compression.2).1

def runRagSample (job : Job) : SampleProg EvalCaseResult := do
  let reranked ← .ofExcept (runner.rerankedFor fs job)
  -- the compressor reads its budget, and records the usage when it has chosen the chunks
  let manager ← .atomic fun manager => .ok (manager, manager)
  let compressed := runner.compressWith fs manager job reranked.results
  .atomic fun manager =>
    .ok ((), manager.recordUsage "retrieval_context" compressed.totalTokens)
  pure (buildRagCaseResult fs job reranked.results compressed.chunks)

/-! ## A dataset -/

def runSingleSample (job : Job) : SampleProg EvalCaseResult :=
  if job.sample.toolName.getD "" ≠ "" then
    .ofExcept (runGatewaySample fs.toRunnerFunctions job.gateway job.sample)
  else runner.runRagSample fs job

/-- The samples one after the other, as they are run without workers. -/
def runInOrder (jobs : List Job) : Except PyError (List EvalCaseResult) :=
  ((Prog.inOrder (jobs.map (runner.runSingleSample fs))).run ()
    runner.compressor.budgetManager).1

/-- The workers before their first turns. -/
def submit (jobs : List Job) : WorkerPool Unit ContextBudgetManager PyError EvalCaseResult where
  workers := jobs.map (runner.runSingleSample fs)
  state := runner.compressor.budgetManager

/-- The `TimeoutError` of `future.result`, which has no text. -/
def timeoutError : PyError := .exception ""

/-- `None` as long as one of the workers has not ended. `late k` is that the `k`-th future was not
done in time when it was waited for; without workers nothing is waited for. -/
def runSamples (schedule : List ℕ) (late : ℕ → Bool) (jobs : List Job) :
    Option (Except PyError (List EvalCaseResult)) :=
  if runner.maxWorkers ≤ 1 then some (runner.runInOrder fs jobs)
  else ((runner.submit fs jobs).run (schedule.map fun k => (k, ()))).collect timeoutError late

/-- `run` up to its summary, before it writes the reports. -/
def evaluate (pstdev : List ℚ → ℚ) (datasetName : String) (schedule : List ℕ) (late : ℕ → Bool)
    (jobs : List Job) : Option (Except PyError EvalSummary) :=
  if jobs.isEmpty then some (.error (.valueError "dataset must contain at least one sample"))
  else (runner.runSamples fs schedule late jobs).map fun caseResults =>
    caseResults.bind fun caseResults => aggregateResults caseResults pstdev datasetName

end EvaluationRunner

end AgentLearning.Evaluation
