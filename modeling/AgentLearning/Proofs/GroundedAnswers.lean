import AgentLearning.Proofs.AnswerMetrics
import AgentLearning.Proofs.Compression
import AgentLearning.Proofs.Reranking
import AgentLearning.Proofs.RetrievalLeak
import AgentLearning.RagEvaluation

/-!
# Where an answer comes from

The document of a chunk, which is what the caller gets to see of it, goes unchanged through the
retrievers, their fusion, the reranker and the compressor. So a sample that names no tool answers
with a document that its caller may see, or with a text that is none.
-/

namespace AgentLearning

/-- What a caller gets to see of a chunk, and the level that is needed for it. -/
structure Document where
  content : String
  sourceId : String
  accessLevel : String
  metadata : List (String × Json)

def RetrievalChunk.document (chunk : RetrievalChunk) : Document where
  content := chunk.content
  sourceId := chunk.sourceId
  accessLevel := chunk.accessLevel
  metadata := chunk.metadata

def IndexedChunk.document (doc : IndexedChunk) : Document where
  content := doc.content
  sourceId := doc.sourceId
  accessLevel := doc.accessLevel
  metadata := doc.metadata

section Retrievers

variable {builtins : Builtins} {query : String} {topK : Option ℕ} {chunk : RetrievalChunk}

theorem VectorRetriever.document_of_mem_search {vector : VectorRetriever}
    (h : chunk ∈ vector.search query topK) :
    chunk.document ∈ vector.index.map RetrievalChunk.document := by
  obtain ⟨indexed, hindexed, rfl⟩ := List.mem_map.mp h
  exact List.mem_map.mpr ⟨indexed, (mem_ranking _).mp (List.mem_of_mem_take hindexed), rfl⟩

theorem KeywordRetriever.document_of_mem_search {keyword : KeywordRetriever}
    (h : chunk ∈ keyword.search builtins query topK) :
    chunk.document ∈ keyword.documents.map IndexedChunk.document := by
  unfold KeywordRetriever.search at h
  simp only at h
  split_ifs at h
  · simp at h
  · obtain ⟨doc, hdoc, rfl⟩ := List.mem_map.mp h
    have hscored := (mem_ranking _).mp (List.mem_of_mem_take hdoc)
    exact List.mem_map.mpr ⟨doc, (List.mem_filter.mp hscored).1, rfl⟩

/-- A chunk that was fused has the document of one that was given. -/
theorem document_of_mem_merge {documents : List Document}
    {vectorAmount keywordAmount : ℕ → RetrievalChunk → ℚ}
    {vectorResults keywordResults : List RetrievalChunk}
    (hvector : ∀ result ∈ vectorResults, result.document ∈ documents)
    (hkeyword : ∀ result ∈ keywordResults, result.document ∈ documents)
    (h : chunk ∈ merge vectorAmount keywordAmount vectorResults keywordResults) :
    chunk.document ∈ documents := by
  obtain ⟨f, hf, rfl⟩ := List.mem_map.mp h
  obtain ⟨⟨id, f⟩, hentry, rfl⟩ := List.mem_map.mp ((mem_ranking _).mp hf)
  have hempty (id : String) (f : Fused) (hf : (∅ : Dict String Fused).get? id = some f) :
      f.chunk.document ∈ documents := by simp at hf
  have hfirst := of_get?_fuseRoute (P := fun _ chunk => chunk.document ∈ documents) "vector"
    vectorAmount hempty hvector
  exact of_get?_fuseRoute (P := fun _ chunk => chunk.document ∈ documents) "keyword"
    keywordAmount hfirst hkeyword id f ((Dict.get?_eq_some_iff _).mpr hentry)

end Retrievers

namespace HybridRetriever

variable (hybrid : HybridRetriever) (userRole : String)

/-- The documents of both indexes. -/
def documents : List Document :=
  hybrid.vectorRetriever.index.map RetrievalChunk.document
    ++ hybrid.keywordRetriever.documents.map IndexedChunk.document

/-- The documents that the role may see. -/
def visible : List Document :=
  hybrid.documents.filter fun document => hybrid.mayAccess userRole document.accessLevel

variable {hybrid userRole} {builtins : Builtins} {query : String} {topK : Option ℕ} {start stop : ℚ}
  {chunk : RetrievalChunk}

theorem document_of_mem_retrieve
    (h : chunk ∈ (hybrid.retrieve builtins query userRole topK start stop).chunks) :
    chunk.document ∈ hybrid.visible userRole := by
  refine List.mem_filter.mpr ⟨?_, mayAccess_of_mem_retrieve h⟩
  rw [chunks_retrieve] at h
  have hmerged := (List.mem_filter.mp (List.mem_of_mem_take h)).1
  have hvector (result) (hresult : result ∈ hybrid.vectorRetriever.search query none) :
      result.document ∈ hybrid.documents :=
    List.mem_append_left _ (VectorRetriever.document_of_mem_search hresult)
  have hkeyword (result) (hresult : result ∈ hybrid.keywordRetriever.search builtins query none) :
      result.document ∈ hybrid.documents :=
    List.mem_append_right _ (KeywordRetriever.document_of_mem_search hresult)
  unfold mergeResults at hmerged
  split at hmerged
  · exact document_of_mem_merge hvector hkeyword hmerged
  · exact document_of_mem_merge hvector hkeyword hmerged

theorem length_retrieve :
    (hybrid.retrieve builtins query userRole topK start stop).chunks.length
      ≤ orDefault topK hybrid.finalTopK := by
  rw [chunks_retrieve]
  exact List.length_take_le _ _

end HybridRetriever

/-- What the compressor keeps has the content of a result. -/
theorem Compressor.exists_of_mem_compress {f : TextFunctions} {compressor : Compressor}
    {results : List RerankResult} {budgetOverride : Option ℤ} {start stop : ℚ}
    {chunk : CompressedChunk}
    (h : chunk ∈ (compressor.compress f results budgetOverride start stop).1.chunks) :
    ∃ result ∈ results, chunk.content = result.chunk.content
      ∧ chunk.sourceId = result.chunk.sourceId := by
  obtain ⟨kept, hstage, hselected, -⟩ := exists_kept f compressor results budgetOverride
  rw [compress_eq] at h
  simp only [hselected] at h
  obtain ⟨result, hresult, rfl⟩ := List.mem_map.mp h
  exact ⟨result, hstage.1.subset hresult, rfl, rfl⟩

namespace Evaluation

variable {fs : EvaluationFunctions} {runner : EvaluationRunner} {job : Job}

/-- What the run of a sample that names no tool has to show for it. -/
structure Grounded (runner : EvaluationRunner) (job : Job) (r : EvalCaseResult) : Prop where
  answer : job.sample.expectedAnswer.startsWith "[REFUSE]" = true
      ∧ r.answer = job.sample.expectedAnswer
    ∨ r.answer = "未找到相关信息"
    ∨ ∃ document ∈ runner.retriever.visible job.sample.callerRole,
      r.answer = document.content ∧ document.sourceId ∈ r.retrievedSourceIds
  sources : ∀ sourceId ∈ r.retrievedSourceIds,
    ∃ document ∈ runner.retriever.visible job.sample.callerRole, document.sourceId = sourceId
  fewSources : r.retrievedSourceIds.length
    ≤ Reranker.sliceLength runner.reranker.config.topN runner.retriever.finalTopK
  steps : ∃ compressed, (compressed = true → r.retrievedSourceIds ≠ [])
    ∧ r.stepOutcomes.entries = [("retrieval", true), ("rerank", !r.retrievedSourceIds.isEmpty),
      ("compression", compressed)]
  success : r.success = true ↔ job.sample.expectError = none ∧ 1 / 2 ≤ r.answerF1
  calls : r.retrievalCalls = 1 ∧ r.toolCalls = 0 ∧ r.auditEntries = 0
  gateway : r.validationRejected = false ∧ r.authDenied = false ∧ r.circuitOpened = false

namespace EvaluationRunner

/-- The chunks that the reranker gives are among those that were retrieved. -/
theorem rerankedFor_ok {output : RerankOutput} (h : runner.rerankedFor fs job = .ok output) :
    (∀ result ∈ output.results,
        result.chunk.document ∈ runner.retriever.visible job.sample.callerRole)
      ∧ output.results.length
        ≤ Reranker.sliceLength runner.reranker.config.topN runner.retriever.finalTopK := by
  unfold rerankedFor at h
  rcases Reranker.rerank_cases fs.rerank runner.reranker (runner.retriever.retrieve fs.builtins
      job.sample.query job.sample.callerRole none job.rag.retrieval.1
      job.rag.retrieval.2).chunks none job.rag.rerank with
    ⟨-, results, hok, hbest⟩ | ⟨-, error, -, herror⟩
  · simp only [hok, Except.ok.injEq] at h
    subst h
    refine ⟨fun result hresult => ?_, ?_⟩
    · obtain ⟨index, -, hget, -⟩ := (hbest.scored result hresult).chunk
      exact HybridRetriever.document_of_mem_retrieve (List.mem_of_getElem? hget)
    · rw [hbest.length]
      exact Reranker.sliceLength_mono _ HybridRetriever.length_retrieve
  · simp [herror] at h

/-- An answer that was built from the results of the reranker is grounded. -/
theorem grounded_build {output : RerankOutput} (h : runner.rerankedFor fs job = .ok output)
    (manager : ContextBudgetManager) :
    Grounded runner job (buildRagCaseResult fs job output.results
      (runner.compressWith fs manager job output.results).chunks) := by
  obtain ⟨hvisible, hlength⟩ := rerankedFor_ok h
  have hkept (chunk) (hchunk : chunk ∈ (runner.compressWith fs manager job output.results).chunks) :
      ∃ result ∈ output.results, chunk.content = result.chunk.content
        ∧ chunk.sourceId = result.chunk.sourceId :=
    Compressor.exists_of_mem_compress hchunk
  refine ⟨?_, ?_, ?_, ⟨!(runner.compressWith fs manager job output.results).chunks.isEmpty, ?_, ?_⟩,
    ?_, ⟨rfl, rfl, rfl⟩, ⟨rfl, rfl, rfl⟩⟩
  · show _ ∧ buildAnswer job.sample _ = _ ∨ buildAnswer job.sample _ = _ ∨ ∃ document ∈ _,
      buildAnswer job.sample _ = _ ∧ _
    unfold buildAnswer
    split_ifs with hrefuse
    · exact .inl ⟨hrefuse, rfl⟩
    · rcases hchunks : (runner.compressWith fs manager job output.results).chunks
        with _ | ⟨chunk, rest⟩
      · exact .inr (.inl rfl)
      · obtain ⟨result, hresult, hcontent, -⟩ := hkept chunk (by simp [hchunks])
        exact .inr (.inr ⟨result.chunk.document, hvisible result hresult, hcontent,
          List.mem_map.mpr ⟨result, hresult, rfl⟩⟩)
  · intro sourceId hsource
    obtain ⟨result, hresult, rfl⟩ := List.mem_map.mp hsource
    exact ⟨result.chunk.document, hvisible result hresult, rfl⟩
  · show (output.results.map _).length ≤ _
    rwa [List.length_map]
  · rcases hchunks : (runner.compressWith fs manager job output.results).chunks
      with _ | ⟨chunk, rest⟩
    · simp
    · intro _
      obtain ⟨result, hresult, -⟩ := hkept chunk (by simp [hchunks])
      exact List.ne_nil_of_mem (List.mem_map_of_mem hresult)
  · show _ = [("retrieval", true), ("rerank", !(output.results.map _).isEmpty), _]
    rw [List.isEmpty_map]
    rfl
  · show (if job.sample.expectError.isNone then _ else _) = true ↔ _
    rcases job.sample.expectError with _ | expected <;> simp [buildRagCaseResult]

end EvaluationRunner

end Evaluation

end AgentLearning
