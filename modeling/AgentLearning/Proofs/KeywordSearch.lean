import Mathlib.Analysis.SpecialFunctions.Log.Basic
import Mathlib.Tactic.Linarith
import AgentLearning.KeywordIndex
import AgentLearning.Proofs.RetrievalLeak

/-!
# What a keyword search finds

The statistics are rebuilt from all documents with every batch, so the batches do not matter. No
token is in more documents than there are, which keeps the logarithm positive, and a document that
has a token is not empty, so the average length is not zero where it is divided by. The score is a
sum of positive amounts, one for each token of the query that the document has.
-/

namespace AgentLearning

/-- The document has a token of the query. -/
def SharesToken (builtins : Builtins) (query : String) (doc : IndexedChunk) : Prop :=
  ∃ token ∈ tokenize builtins query, token ∈ doc.tokens

instance (builtins : Builtins) (query : String) (doc : IndexedChunk) :
    Decidable (SharesToken builtins query doc) :=
  inferInstanceAs (Decidable (∃ token ∈ tokenize builtins query, token ∈ doc.tokens))

namespace KeywordIndex

/-! ## The statistics -/

section Statistics

variable {K : Type*} [Field K] [LinearOrder K] {builtins : Builtins} {index : KeywordIndex K}

/-- A retriever without documents. -/
def fresh (topK : ℕ) (params : Bm25Params K) : KeywordIndex K := { topK, params }

theorem addDocuments_addDocuments (documents documents' : List IndexedChunk) :
    (index.addDocuments builtins documents).addDocuments builtins documents'
      = index.addDocuments builtins (documents ++ documents') := by
  simp only [addDocuments, List.map_append, List.append_assoc]

/-- Batch after batch is one batch. -/
theorem foldl_addDocuments (topK : ℕ) (params : Bm25Params K)
    (batches : List (List IndexedChunk)) :
    batches.foldl (fun index batch => index.addDocuments builtins batch) (fresh topK params)
      = (fresh topK params).addDocuments builtins batches.flatten := by
  induction batches using List.reverseRecOn with
  | nil => simp [fresh, addDocuments, countDocuments]
  | append_singleton batches batch ih =>
    rw [List.foldl_append, List.foldl_cons, List.foldl_nil, ih, addDocuments_addDocuments,
      List.flatten_append, List.flatten_singleton]

/-- The statistics are those of the documents. -/
structure Loaded (index : KeywordIndex K) : Prop where
  docCount : index.docCount = index.documents.length
  avgDocLen : index.avgDocLen = ((index.documents.map (·.tokens.length)).sum : ℕ)
    / (index.documents.length : ℕ)
  df : ∀ t, (index.df.get? t).getD 0 = index.documents.countP fun doc => t ∈ doc.tokens

theorem loaded_addDocuments (documents : List IndexedChunk) :
    (index.addDocuments builtins documents).Loaded := by
  refine ⟨rfl, ?_, getD_get?_countDocuments _⟩
  unfold addDocuments
  dsimp only
  split_ifs with h
  · rfl
  · have hzero : (index.documents ++ documents.map (·.withTokens builtins)).length = 0 := by omega
    rw [hzero, Nat.cast_zero, div_zero]

end Statistics

/-! ## The score -/

section Score

variable {K : Type*} [Field K] [LinearOrder K] [IsStrictOrderedRing K] {log : K → K}
  {index : KeywordIndex K} {doc : IndexedChunk} {token : String}

theorem dfOf_nonneg : 0 ≤ index.dfOf token := Nat.cast_nonneg _

theorem Loaded.dfOf_le (h : index.Loaded) : index.dfOf token ≤ index.docCount := by
  rw [dfOf, h.df, h.docCount]
  exact_mod_cast List.countP_le_length

theorem Loaded.avgDocLen_pos (h : index.Loaded) (hdoc : doc ∈ index.documents)
    (htoken : token ∈ doc.tokens) : 0 < index.avgDocLen := by
  have hlength : 0 < doc.tokens.length := List.length_pos_of_mem htoken
  have hsum : doc.tokens.length ≤ (index.documents.map (·.tokens.length)).sum :=
    List.single_le_sum (fun _ _ => Nat.zero_le _) _ (List.mem_map.mpr ⟨doc, hdoc, rfl⟩)
  rw [h.avgDocLen]
  refine div_pos ?_ ?_
  · exact_mod_cast hlength.trans_le hsum
  · exact_mod_cast List.length_pos_of_mem hdoc

theorem idfArgument_eq : index.idfArgument token = .ok (index.argumentOf token) := by
  have hne : index.dfOf token + 1 / 2 ≠ 0 := by
    have hnonneg : 0 ≤ index.dfOf token := dfOf_nonneg
    positivity
  rw [idfArgument, divide, if_neg hne]
  rfl

theorem Loaded.one_lt_argumentOf (h : index.Loaded) : 1 < index.argumentOf token := by
  have hnonneg : 0 ≤ index.dfOf token := dfOf_nonneg
  have hle : index.dfOf token ≤ index.docCount := h.dfOf_le
  refine lt_add_of_pos_left 1 (div_pos ?_ ?_)
  · linarith
  · linarith

/-- What one token adds to the score of a document that has it. -/
def amount (log : K → K) (index : KeywordIndex K) (doc : IndexedChunk) (token : String) : K :=
  log (index.argumentOf token) * (doc.tokens.count token * (index.params.k1 + 1))
    / (doc.tokens.count token + index.params.k1 * (1 - index.params.b
      + index.params.b * doc.tokens.length / index.avgDocLen))

theorem Loaded.denominator_pos (h : index.Loaded) (hdoc : doc ∈ index.documents)
    (htoken : token ∈ doc.tokens) :
    0 < (doc.tokens.count token + index.params.k1 * (1 - index.params.b
      + index.params.b * doc.tokens.length / index.avgDocLen) : K) := by
  have htf : (0 : K) < doc.tokens.count token := by
    exact_mod_cast List.count_pos_iff.mpr htoken
  have hlength : 0 ≤ index.params.b * doc.tokens.length / index.avgDocLen :=
    div_nonneg (mul_nonneg index.params.b_nonneg (Nat.cast_nonneg _))
      (h.avgDocLen_pos hdoc htoken).le
  have hnorm : 0 ≤ 1 - index.params.b + index.params.b * doc.tokens.length / index.avgDocLen := by
    linarith [index.params.b_le_one]
  exact add_pos_of_pos_of_nonneg htf (mul_nonneg index.params.k1_nonneg hnorm)

theorem Loaded.tokenScore_eq (h : index.Loaded) (hdoc : doc ∈ index.documents)
    (htoken : token ∈ doc.tokens) :
    index.tokenScore log doc token = .ok (amount log index doc token) := by
  have hargument : mathLog log (index.argumentOf token) = .ok (log (index.argumentOf token)) :=
    if_pos (one_pos.trans h.one_lt_argumentOf)
  have hlength : divide (index.params.b * doc.tokens.length) index.avgDocLen
      = .ok (index.params.b * doc.tokens.length / index.avgDocLen) :=
    if_neg (h.avgDocLen_pos hdoc htoken).ne'
  simp only [tokenScore, idfArgument_eq, hargument, hlength, bind, Except.bind]
  exact if_neg (h.denominator_pos hdoc htoken).ne'

theorem Loaded.amount_pos (h : index.Loaded) (hlog : ∀ x, 1 < x → 0 < log x)
    (hdoc : doc ∈ index.documents) (htoken : token ∈ doc.tokens) :
    0 < amount log index doc token := by
  have htf : (0 : K) < doc.tokens.count token := by
    exact_mod_cast List.count_pos_iff.mpr htoken
  have hk1 := index.params.k1_nonneg
  refine div_pos (mul_pos (hlog _ h.one_lt_argumentOf) (mul_pos htf ?_))
    (h.denominator_pos hdoc htoken)
  linarith

/-- The sum over the tokens of the query that the document has. -/
def total (log : K → K) (index : KeywordIndex K) (queryTokens : List String) (doc : IndexedChunk) :
    K :=
  ((queryTokens.filter (· ∈ doc.tokens)).map (amount log index doc)).sum

theorem Loaded.bm25Score_eq (h : index.Loaded) (hdoc : doc ∈ index.documents)
    (queryTokens : List String) :
    index.bm25Score log queryTokens doc = .ok (total log index queryTokens doc) := by
  suffices hfold : ∀ score, queryTokens.foldlM (fun score token =>
      if token ∈ doc.tokens then do
        let added ← index.tokenScore log doc token
        return score + added
      else return score) score = .ok (score + total log index queryTokens doc) by
    rw [bm25Score, hfold, zero_add]
  induction queryTokens with
  | nil => simp [total, pure, Except.pure]
  | cons token queryTokens ih =>
    intro score
    rw [List.foldlM_cons]
    by_cases htoken : token ∈ doc.tokens
    · rw [if_pos htoken, h.tokenScore_eq hdoc htoken]
      refine (ih _).trans ?_
      simp [total, htoken, add_assoc]
    · rw [if_neg htoken]
      refine (ih _).trans ?_
      simp [total, htoken]

theorem Loaded.total_pos_iff (h : index.Loaded) (hlog : ∀ x, 1 < x → 0 < log x)
    (hdoc : doc ∈ index.documents) (queryTokens : List String) :
    0 < total log index queryTokens doc ↔ ∃ token ∈ queryTokens, token ∈ doc.tokens :=
  sum_filter_pos_iff fun _ _ htoken => h.amount_pos hlog hdoc htoken

end Score

/-! ## The search -/

section Search

variable {K : Type*} [Field K] [LinearOrder K] [IsStrictOrderedRing K] {log : K → K}
  {index : KeywordIndex K} {builtins : Builtins} {query : String}

/-- What a search finds if it may give everything. -/
def found (builtins : Builtins) (log : K → K) (index : KeywordIndex K) (query : String) :
    List (IndexedChunk × K) :=
  ranking Prod.snd ((index.documents.filter (SharesToken builtins query)).map fun doc =>
    (doc, total log index (tokenize builtins query) doc))

theorem Loaded.scores_eq (h : index.Loaded) (queryTokens : List String) :
    (index.documents.mapM fun doc => do
        let score ← index.bm25Score log queryTokens doc
        return (doc, score))
      = .ok (index.documents.map fun doc => (doc, total log index queryTokens doc)) := by
  have hsub : ∀ docs : List IndexedChunk, (∀ doc ∈ docs, doc ∈ index.documents) →
      (docs.mapM fun doc => do
          let score ← index.bm25Score log queryTokens doc
          return (doc, score))
        = .ok (docs.map fun doc => (doc, total log index queryTokens doc)) := by
    intro docs hdocs
    induction docs with
    | nil => rfl
    | cons doc docs ih =>
      rw [List.forall_mem_cons] at hdocs
      rw [List.mapM_cons, h.bm25Score_eq hdocs.1, ih hdocs.2]
      rfl
  exact hsub index.documents fun _ hdoc => hdoc

omit [IsStrictOrderedRing K] in
/-- Where the search gives up early no document has a token of the query. -/
theorem Loaded.filter_eq_nil (h : index.Loaded) (builtins : Builtins) (query : String)
    (hempty : ((tokenize builtins query).isEmpty || index.docCount == 0) = true) :
    index.documents.filter (SharesToken builtins query) = [] := by
  refine List.filter_eq_nil_iff.mpr fun doc hdoc => ?_
  rw [decide_eq_true_eq]
  rintro ⟨token, htoken, -⟩
  simp [List.ne_nil_of_mem htoken, h.docCount, List.ne_nil_of_mem hdoc] at hempty

theorem Loaded.search_eq (h : index.Loaded) (hlog : ∀ x, 1 < x → 0 < log x) (topK : Option ℕ) :
    index.search builtins log query topK
      = .ok ((found builtins log index query).take (orDefault topK index.topK)) := by
  have hfilter : (index.documents.map fun doc =>
      (doc, total log index (tokenize builtins query) doc)).filter (fun scored => 0 < scored.2)
      = (index.documents.filter (SharesToken builtins query)).map fun doc =>
        (doc, total log index (tokenize builtins query) doc) := by
    rw [List.filter_map]
    congr 1
    refine List.filter_congr fun doc hdoc => ?_
    exact decide_eq_decide.mpr (h.total_pos_iff hlog hdoc _)
  by_cases hempty : ((tokenize builtins query).isEmpty || index.docCount == 0) = true
  · rw [search, if_pos hempty, found, h.filter_eq_nil builtins query hempty, List.map_nil, ranking,
      List.insertionSort_nil, List.take_nil]
    rfl
  · rw [search, if_neg hempty, h.scores_eq]
    exact congrArg (fun scored => Except.ok ((ranking Prod.snd scored).take _)) hfilter

omit [IsStrictOrderedRing K] in
theorem length_found_le :
    (found builtins log index query).length ≤ index.documents.length := by
  rw [found, length_ranking, List.length_map]
  exact List.length_filter_le _ _

end Search

/-! ## Every sequence of batches -/

/-- What a retriever owes that was given these batches, for a query. -/
structure Complete {K : Type*} [Field K] [LinearOrder K] (builtins : Builtins) (log : K → K)
    (batches : List (List IndexedChunk)) (query : String) (new index : KeywordIndex K) : Prop where
  oneBatch : index = new.addDocuments builtins batches.flatten
  documents : index.documents = batches.flatten.map (·.withTokens builtins)
  docCount : index.docCount = index.documents.length
  avgDocLen : index.avgDocLen
    = ((index.documents.map (·.tokens.length)).sum : ℕ) / (index.documents.length : ℕ)
  df : ∀ t, (index.df.get? t).getD 0 = index.documents.countP fun doc => t ∈ doc.tokens
  argument : ∀ token, ∃ x, index.idfArgument token = .ok x ∧ 1 < x
  score : ∀ doc ∈ index.documents, ∃ score,
    index.bm25Score log (tokenize builtins query) doc = .ok score
      ∧ (0 < score ↔ SharesToken builtins query doc)
  returns : ∀ topK, ∃ results, index.search builtins log query topK = .ok results
  complete : ∀ topK, index.documents.length ≤ topK → ∃ results,
    index.search builtins log query (some topK) = .ok results
      ∧ (results.map Prod.fst).Perm (index.documents.filter (SharesToken builtins query))
      ∧ (∀ result ∈ results,
        index.bm25Score log (tokenize builtins query) result.1 = .ok result.2)
      ∧ results.Pairwise fun a b => b.2 ≤ a.2

/-- A number of results that is large enough stays so, as zero is only for no documents. -/
theorem le_orDefault {n k default : ℕ} (h : n ≤ k) : n ≤ orDefault (some k) default := by
  rcases k with _ | k
  · rw [Nat.le_zero.mp h]
    exact Nat.zero_le _
  · simpa [orDefault, Option.filter] using h

theorem complete_of_log {K : Type*} [Field K] [LinearOrder K] [IsStrictOrderedRing K]
    (builtins : Builtins) {log : K → K} (hlog : ∀ x, 1 < x → 0 < log x) (topK : ℕ)
    (params : Bm25Params K) (batches : List (List IndexedChunk)) (query : String) :
    Complete builtins log batches query (fresh topK params)
      (batches.foldl (fun index batch => index.addDocuments builtins batch)
        (fresh topK params)) := by
  rw [foldl_addDocuments]
  have h : ((fresh topK params).addDocuments builtins batches.flatten).Loaded :=
    loaded_addDocuments _
  refine ⟨rfl, by simp [addDocuments, fresh], h.docCount, h.avgDocLen, h.df,
    fun token => ⟨_, idfArgument_eq, h.one_lt_argumentOf⟩,
    fun doc hdoc => ⟨_, h.bm25Score_eq hdoc _, h.total_pos_iff hlog hdoc _⟩,
    fun topK => ⟨_, h.search_eq hlog topK⟩, fun k hk => ⟨_, h.search_eq hlog _, ?_⟩⟩
  generalize (fresh topK params).addDocuments builtins batches.flatten = index at h hk ⊢
  rw [List.take_of_length_le (length_found_le.trans (le_orDefault hk))]
  refine ⟨?_, fun result hresult => ?_, pairwise_ranking _ _⟩
  · refine ((ranking_perm _ _).map Prod.fst).trans ?_
    rw [List.map_map]
    exact (List.map_id _).symm ▸ List.Perm.refl _
  · rw [found, mem_ranking, List.mem_map] at hresult
    obtain ⟨doc, hdoc, rfl⟩ := hresult
    exact h.bm25Score_eq (List.mem_of_mem_filter hdoc) _

/-- The scores are real numbers. -/
theorem search_complete (builtins : Builtins) (topK : ℕ) (params : Bm25Params ℝ)
    (batches : List (List IndexedChunk)) (query : String) :
    Complete builtins Real.log batches query (fresh topK params)
      (batches.foldl (fun index batch => index.addDocuments builtins batch)
        (fresh topK params)) :=
  complete_of_log builtins (fun _ => Real.log_pos) topK params batches query

end KeywordIndex

/-! ## The retriever with rational numbers -/

namespace KeywordRetriever

variable {builtins : Builtins} {keyword : KeywordRetriever} {query : String} {topK : Option ℕ}

def toIndex (keyword : KeywordRetriever) : KeywordIndex ℚ where
  topK := keyword.topK
  params := ⟨keyword.k1, keyword.b, keyword.k1_nonneg, keyword.b_nonneg, keyword.b_le_one⟩
  documents := keyword.documents
  docCount := keyword.docCount
  avgDocLen := keyword.avgDocLen
  df := keyword.df

theorem toIndex_addDocuments (documents : List IndexedChunk) :
    (keyword.addDocuments builtins documents).toIndex
      = keyword.toIndex.addDocuments builtins documents := rfl

theorem total_toIndex (queryTokens : List String) (doc : IndexedChunk) :
    KeywordIndex.total builtins.log keyword.toIndex queryTokens doc
      = keyword.bm25Score builtins queryTokens doc :=
  bm25Score_eq_sum.symm

/-- It finds the same and raises nothing. -/
theorem search_toIndex (h : keyword.toIndex.Loaded) :
    (keyword.toIndex.search builtins builtins.log query topK).map
        (fun results => results.map fun (doc, score) => doc.toResult score)
      = .ok (keyword.search builtins query topK) := by
  have hdocs : keyword.toIndex.documents.filter (SharesToken builtins query)
      = keyword.documents.filter fun doc =>
        0 < keyword.bm25Score builtins (tokenize builtins query) doc :=
    List.filter_congr fun doc _ => decide_eq_decide.mpr bm25Score_pos_iff.symm
  rw [h.search_eq builtins.log_pos, KeywordIndex.found, map_ranking]
  simp only [total_toIndex]
  rw [hdocs, ← List.map_take]
  by_cases hempty : ((tokenize builtins query).isEmpty || keyword.docCount == 0) = true
  · have hnone := h.filter_eq_nil builtins query hempty
    rw [hdocs] at hnone
    rw [search, if_pos hempty, hnone, ranking, List.insertionSort_nil, List.take_nil]
    rfl
  · rw [search, if_neg hempty]
    simp only [Except.map, List.map_map]
    rfl

end KeywordRetriever

end AgentLearning
