import Mathlib.Algebra.Order.BigOperators.Group.List
import Mathlib.Tactic.Linarith
import AgentLearning.Retriever

/-!
# What a ranking reveals of the chunks a role may not see

What the role may not see is left out only after both routes have cut their rankings off and the
fusion has ranked what they gave. Copies of the visible chunks that the role may not see, put in
front of them, take all the places of both routes, and the role gets nothing.
-/

namespace AgentLearning

def RetrievalChunk.withLevel (level : String) (chunk : RetrievalChunk) : RetrievalChunk :=
  { chunk with accessLevel := level }

def IndexedChunk.withLevel (level : String) (doc : IndexedChunk) : IndexedChunk :=
  { doc with accessLevel := level }

theorem IndexedChunk.withTokens_withLevel (builtins : Builtins) (level : String)
    (doc : IndexedChunk) :
    (doc.withLevel level).withTokens builtins = (doc.withTokens builtins).withLevel level := by
  unfold withTokens withLevel
  split_ifs <;> rfl

theorem IndexedChunk.accessLevel_withTokens (builtins : Builtins) (doc : IndexedChunk) :
    (doc.withTokens builtins).accessLevel = doc.accessLevel := by
  unfold withTokens
  split_ifs <;> rfl

/-! ## The vector route -/

namespace VectorRetriever

variable {vector : VectorRetriever} {query level : String}

theorem mem_search {result : RetrievalChunk} (h : result ∈ vector.search query none) :
    ∃ chunk ∈ (ranking (fun chunk => similarity query chunk.content) vector.index).take vector.topK,
      result.accessLevel = chunk.accessLevel := by
  obtain ⟨chunk, hchunk, rfl⟩ := List.mem_map.mp h
  exact ⟨chunk, hchunk, rfl⟩

theorem accessLevel_of_mem_search {result : RetrievalChunk}
    (h : result ∈ vector.search query none) :
    ∃ chunk ∈ vector.index, result.accessLevel = chunk.accessLevel := by
  obtain ⟨chunk, hchunk, haccess⟩ := mem_search h
  exact ⟨chunk, (mem_ranking _).mp (List.mem_of_mem_take hchunk), haccess⟩

theorem search_eq_nil_iff :
    vector.search query none = [] ↔ vector.topK = 0 ∨ vector.index = [] := by
  simp [search, orDefault, ← List.length_eq_zero_iff]

/-- With enough copies in front, the route finds copies only. -/
theorem accessLevel_of_crowded {chunks : List RetrievalChunk} {result : RetrievalChunk}
    (hindex : vector.index = crowd vector.topK (RetrievalChunk.withLevel level) chunks)
    (h : result ∈ vector.search query none) : result.accessLevel = level := by
  obtain ⟨chunk, hchunk, haccess⟩ := mem_search h
  have hscore (chunk : RetrievalChunk) : similarity query (chunk.withLevel level).content
      = similarity query chunk.content := rfl
  rw [hindex] at hchunk
  obtain ⟨copied, -, rfl⟩ := mem_take_ranking_crowd hscore hchunk
  exact haccess

end VectorRetriever

/-! ## The keyword route -/

namespace KeywordRetriever

variable {builtins : Builtins} {keyword : KeywordRetriever} {queryTokens : List String}
  {doc : IndexedChunk} {query token level : String}

theorem tokenScore_pos (h : token ∈ doc.tokens) : 0 < keyword.tokenScore builtins doc token := by
  have htf : (0 : ℚ) < doc.tokens.count token := by
    exact_mod_cast List.count_pos_iff.mpr h
  have hdf : (((keyword.df.get? token).getD 0 : ℕ) : ℚ) ≤ keyword.docCount := by
    exact_mod_cast keyword.df_le token
  have hidf : 0 < builtins.log ((keyword.docCount - ((keyword.df.get? token).getD 0 : ℕ) + 1 / 2) /
      (((keyword.df.get? token).getD 0 : ℕ) + 1 / 2) + 1) := by
    refine builtins.log_pos _ (lt_add_of_pos_left 1 (div_pos ?_ ?_))
    · linarith
    · positivity
  have hlen : 0 ≤ keyword.b * doc.tokens.length / keyword.avgDocLen :=
    div_nonneg (mul_nonneg keyword.b_nonneg (Nat.cast_nonneg _)) keyword.avgDocLen_nonneg
  have hnorm : 0 ≤ 1 - keyword.b + keyword.b * doc.tokens.length / keyword.avgDocLen := by
    linarith [keyword.b_le_one]
  have hk1 := keyword.k1_nonneg
  rw [tokenScore]
  exact div_pos (mul_pos hidf (by positivity)) (by positivity)

theorem bm25Score_eq_sum :
    keyword.bm25Score builtins queryTokens doc
      = ((queryTokens.filter (· ∈ doc.tokens)).map (keyword.tokenScore builtins doc)).sum := by
  rw [bm25Score, List.sum_eq_foldl, List.foldl_map, List.foldl_filter]
  simp only [decide_eq_true_eq]

theorem bm25Score_pos_iff :
    0 < keyword.bm25Score builtins queryTokens doc ↔ ∃ token ∈ queryTokens, token ∈ doc.tokens := by
  rw [bm25Score_eq_sum]
  exact sum_filter_pos_iff fun token _ htoken => tokenScore_pos htoken

variable (builtins keyword query) in
def matching : List IndexedChunk :=
  keyword.documents.filter fun doc =>
    0 < keyword.bm25Score builtins (tokenize builtins query) doc

theorem mem_matching :
    doc ∈ keyword.matching builtins query ↔
      doc ∈ keyword.documents ∧ ∃ token ∈ tokenize builtins query, token ∈ doc.tokens := by
  rw [matching, List.mem_filter, decide_eq_true_eq, bm25Score_pos_iff]

theorem matching_eq_nil_iff :
    keyword.matching builtins query = [] ↔
      ∀ doc ∈ keyword.documents, ∀ token ∈ tokenize builtins query, token ∉ doc.tokens := by
  simp only [List.eq_nil_iff_forall_not_mem, mem_matching, not_and, not_exists]

/-- The search gives up early only where no document matches. -/
theorem search_eq (hcount : keyword.docCount = keyword.documents.length) :
    keyword.search builtins query none
      = ((ranking (keyword.bm25Score builtins (tokenize builtins query))
          (keyword.matching builtins query)).take keyword.topK).map fun doc =>
        doc.toResult (keyword.bm25Score builtins (tokenize builtins query) doc) := by
  by_cases h : ((tokenize builtins query).isEmpty || keyword.docCount == 0) = true
  · have hnone : keyword.matching builtins query = [] := by
      refine List.eq_nil_iff_forall_not_mem.mpr fun doc hdoc => ?_
      obtain ⟨hmem, token, htoken, -⟩ := mem_matching.mp hdoc
      simp [List.ne_nil_of_mem htoken, hcount, List.ne_nil_of_mem hmem] at h
    rw [search, if_pos h, hnone]
    simp [ranking]
  · rw [search, if_neg h]
    rfl

variable (hcount : keyword.docCount = keyword.documents.length)
include hcount

theorem mem_search {result : RetrievalChunk} (h : result ∈ keyword.search builtins query none) :
    ∃ doc ∈ (ranking (keyword.bm25Score builtins (tokenize builtins query))
        (keyword.matching builtins query)).take keyword.topK,
      result.accessLevel = doc.accessLevel := by
  rw [search_eq hcount] at h
  obtain ⟨doc, hdoc, rfl⟩ := List.mem_map.mp h
  exact ⟨doc, hdoc, rfl⟩

theorem accessLevel_of_mem_search {result : RetrievalChunk}
    (h : result ∈ keyword.search builtins query none) :
    ∃ doc ∈ keyword.matching builtins query, result.accessLevel = doc.accessLevel := by
  obtain ⟨doc, hdoc, haccess⟩ := mem_search hcount h
  exact ⟨doc, (mem_ranking _).mp (List.mem_of_mem_take hdoc), haccess⟩

theorem search_eq_nil_iff :
    keyword.search builtins query none = [] ↔
      keyword.topK = 0 ∨ keyword.matching builtins query = [] := by
  simp [search_eq hcount, ← List.length_eq_zero_iff]

theorem accessLevel_of_crowded {documents : List IndexedChunk} {result : RetrievalChunk}
    (hdocuments : keyword.documents
      = crowd keyword.topK (IndexedChunk.withLevel level) documents)
    (h : result ∈ keyword.search builtins query none) : result.accessLevel = level := by
  obtain ⟨doc, hdoc, haccess⟩ := mem_search hcount h
  have hscore (doc : IndexedChunk) :
      keyword.bm25Score builtins (tokenize builtins query) (doc.withLevel level)
        = keyword.bm25Score builtins (tokenize builtins query) doc := rfl
  rw [matching, hdocuments, filter_crowd fun doc => by rw [hscore]] at hdoc
  obtain ⟨copied, -, rfl⟩ := mem_take_ranking_crowd hscore hdoc
  exact haccess

end KeywordRetriever

/-! ## The fusion -/

section Fusion

variable {source : String} {amount vectorAmount keywordAmount : ℕ → RetrievalChunk → ℚ}
  {fused : Dict String Fused} {results vectorResults keywordResults : List RetrievalChunk}

/-- Each fused chunk is one of those that were given. -/
def FusedFrom (results : List RetrievalChunk) (fused : Dict String Fused) : Prop :=
  ∀ id f, fused.get? id = some f → f.chunk ∈ results

theorem isSome_get?_fuse (chunk : RetrievalChunk) (a : ℚ) (id : String) :
    ((fuse source fused chunk a).get? id).isSome
      ↔ chunk.chunkId = id ∨ (fused.get? id).isSome := by
  rw [fuse, Dict.get?_set]
  split_ifs with h
  · simp [h]
  · simp [h]

variable (source amount) in
theorem isSome_get?_fuseRoute (id : String) :
    ((fuseRoute source amount fused results).get? id).isSome
      ↔ (∃ chunk ∈ results, chunk.chunkId = id) ∨ (fused.get? id).isSome := by
  unfold fuseRoute
  generalize 0 = start
  induction results generalizing start fused with
  | nil => simp
  | cons chunk results ih =>
    rw [List.zipIdx_cons, List.foldl_cons, ih, isSome_get?_fuse]
    simp [or_assoc, or_left_comm]

variable (source amount) in
/-- What holds of the chunks that were kept and of those that are fused holds of all. -/
theorem of_get?_fuseRoute {P : String → RetrievalChunk → Prop}
    (h : ∀ id f, fused.get? id = some f → P id f.chunk)
    (hresults : ∀ chunk ∈ results, P chunk.chunkId chunk) :
    ∀ id f, (fuseRoute source amount fused results).get? id = some f → P id f.chunk := by
  unfold fuseRoute
  generalize 0 = start
  induction results generalizing start fused with
  | nil => exact h
  | cons chunk results ih =>
    rw [List.forall_mem_cons] at hresults
    rw [List.zipIdx_cons, List.foldl_cons]
    refine ih (fun id f hf => ?_) hresults.2 _
    unfold fuse at hf
    rw [Dict.get?_set] at hf
    split_ifs at hf with hid
    · obtain rfl := Option.some.inj hf
      exact hid ▸ hresults.1
    · exact h id f hf

variable (source amount) in
theorem FusedFrom.fuseRoute {all : List RetrievalChunk} (h : FusedFrom all fused)
    (hresults : ∀ chunk ∈ results, chunk ∈ all) :
    FusedFrom all (fuseRoute source amount fused results) :=
  of_get?_fuseRoute source amount h hresults

theorem mem_merge {chunk : RetrievalChunk}
    (h : chunk ∈ merge vectorAmount keywordAmount vectorResults keywordResults) :
    ∃ result ∈ vectorResults ++ keywordResults, chunk.accessLevel = result.accessLevel := by
  obtain ⟨f, hf, rfl⟩ := List.mem_map.mp h
  obtain ⟨⟨id, f⟩, hentry, rfl⟩ := List.mem_map.mp ((mem_ranking _).mp hf)
  have hempty : FusedFrom (vectorResults ++ keywordResults) (∅ : Dict String Fused) := by
    intro id f hf
    simp at hf
  have hvector := hempty.fuseRoute "vector" vectorAmount
    fun chunk hchunk => List.mem_append_left keywordResults hchunk
  have hkeyword := hvector.fuseRoute "keyword" keywordAmount
    fun chunk hchunk => List.mem_append_right vectorResults hchunk
  exact ⟨f.chunk, hkeyword id f ((Dict.get?_eq_some_iff _).mpr hentry), rfl⟩

theorem merge_eq_nil_iff :
    merge vectorAmount keywordAmount vectorResults keywordResults = []
      ↔ vectorResults = [] ∧ keywordResults = [] := by
  constructor
  · intro hnil
    rw [merge, List.map_eq_nil_iff, ← List.length_eq_zero_iff, length_ranking,
      List.length_eq_zero_iff] at hnil
    have hnone (id : String) : ¬ ((∃ chunk ∈ keywordResults, chunk.chunkId = id) ∨
        ((fuseRoute "vector" vectorAmount ∅ vectorResults).get? id).isSome) := by
      rw [← isSome_get?_fuseRoute "keyword" keywordAmount, Option.isSome_iff_exists]
      rintro ⟨f, hf⟩
      exact List.ne_nil_of_mem
        (List.mem_map.mpr ⟨_, (Dict.get?_eq_some_iff _).mp hf, rfl⟩) hnil
    refine ⟨List.eq_nil_iff_forall_not_mem.mpr fun chunk hchunk => ?_,
      List.eq_nil_iff_forall_not_mem.mpr fun chunk hchunk => ?_⟩
    · exact hnone chunk.chunkId
        (.inr ((isSome_get?_fuseRoute _ _ _).mpr (.inl ⟨chunk, hchunk, rfl⟩)))
    · exact hnone chunk.chunkId (.inl ⟨chunk, hchunk, rfl⟩)
  · rintro ⟨rfl, rfl⟩
    rfl

end Fusion

/-! ## The answer -/

namespace HybridRetriever

variable {builtins : Builtins} {hybrid : HybridRetriever} {query userRole : String}
  {topK : Option ℕ} {start stop : ℚ}

theorem mem_mergeResults {vectorResults keywordResults : List RetrievalChunk}
    {chunk : RetrievalChunk} (h : chunk ∈ hybrid.mergeResults vectorResults keywordResults) :
    ∃ result ∈ vectorResults ++ keywordResults, chunk.accessLevel = result.accessLevel := by
  unfold mergeResults at h
  split at h
  · exact mem_merge h
  · exact mem_merge h

theorem mergeResults_eq_nil_iff {vectorResults keywordResults : List RetrievalChunk} :
    hybrid.mergeResults vectorResults keywordResults = []
      ↔ vectorResults = [] ∧ keywordResults = [] := by
  unfold mergeResults
  split
  · exact merge_eq_nil_iff
  · exact merge_eq_nil_iff

theorem chunks_retrieve :
    (hybrid.retrieve builtins query userRole topK start stop).chunks
      = (hybrid.filterByAccess (hybrid.mergeResults
          (hybrid.vectorRetriever.search query none)
          (hybrid.keywordRetriever.search builtins query none)) userRole).take
        (orDefault topK hybrid.finalTopK) := rfl

/-- No chunk is returned that the role may not see. -/
theorem mayAccess_of_mem_retrieve {chunk : RetrievalChunk}
    (h : chunk ∈ (hybrid.retrieve builtins query userRole topK start stop).chunks) :
    hybrid.mayAccess userRole chunk.accessLevel = true := by
  rw [chunks_retrieve] at h
  have hfiltered := List.mem_of_mem_take h
  exact (List.mem_filter.mp hfiltered).2

theorem chunks_eq_nil_of_hidden
    (h : ∀ result ∈ hybrid.vectorRetriever.search query none
        ++ hybrid.keywordRetriever.search builtins query none,
      hybrid.mayAccess userRole result.accessLevel = false) :
    (hybrid.retrieve builtins query userRole topK start stop).chunks = [] := by
  rw [chunks_retrieve, filterByAccess, List.filter_eq_nil_iff.mpr, List.take_nil]
  intro chunk hchunk
  obtain ⟨result, hresult, haccess⟩ := mem_mergeResults hchunk
  rw [haccess, h result hresult]
  exact Bool.false_ne_true

theorem chunks_ne_nil_of_visible (hk : orDefault topK hybrid.finalTopK ≠ 0)
    (h : ∀ result ∈ hybrid.vectorRetriever.search query none
        ++ hybrid.keywordRetriever.search builtins query none,
      hybrid.mayAccess userRole result.accessLevel = true)
    (hsome : hybrid.vectorRetriever.search query none ≠ []
      ∨ hybrid.keywordRetriever.search builtins query none ≠ []) :
    (hybrid.retrieve builtins query userRole topK start stop).chunks ≠ [] := by
  have hall : hybrid.filterByAccess (hybrid.mergeResults
        (hybrid.vectorRetriever.search query none)
        (hybrid.keywordRetriever.search builtins query none)) userRole
      = hybrid.mergeResults (hybrid.vectorRetriever.search query none)
        (hybrid.keywordRetriever.search builtins query none) := by
    refine List.filter_eq_self.mpr fun chunk hchunk => ?_
    obtain ⟨result, hresult, haccess⟩ := mem_mergeResults hchunk
    rw [haccess, h result hresult]
  rw [chunks_retrieve, hall, Ne, List.take_eq_nil_iff, mergeResults_eq_nil_iff]
  rintro (hzero | ⟨hvector, hkeyword⟩)
  · exact hk hzero
  · exact hsome.elim (absurd hvector) (absurd hkeyword)

end HybridRetriever

/-! ## What the two indexes hold -/

/-- What is added to the vector index and to the keyword index. -/
structure Contents where
  chunks : List RetrievalChunk
  documents : List IndexedChunk

namespace Contents

/-- What a role may see of the contents, by the default hierarchy. -/
def visible (contents : Contents) (userRole : String) : Contents where
  chunks := contents.chunks.filter fun chunk =>
    (allowedLevels userRole).contains chunk.accessLevel
  documents := contents.documents.filter fun doc =>
    (allowedLevels userRole).contains doc.accessLevel

/-- No other access levels are in use. -/
structure Within (contents : Contents) (levels : Set String) : Prop where
  chunks : ∀ chunk ∈ contents.chunks, chunk.accessLevel ∈ levels
  documents : ∀ doc ∈ contents.documents, doc.accessLevel ∈ levels

/-- The contents, behind `m` and `n` copies of each that have another access level. -/
def crowded (contents : Contents) (m n : ℕ) (level : String) : Contents where
  chunks := crowd m (RetrievalChunk.withLevel level) contents.chunks
  documents := crowd n (IndexedChunk.withLevel level) contents.documents

variable {contents : Contents} {userRole level : String} {levels : Set String} {m n : ℕ}

theorem Within.visible (h : contents.Within levels) :
    (contents.visible userRole).Within levels where
  chunks chunk hchunk := h.chunks chunk (List.mem_of_mem_filter hchunk)
  documents doc hdoc := h.documents doc (List.mem_of_mem_filter hdoc)

theorem Within.crowded (h : contents.Within levels) (hlevel : level ∈ levels) :
    (contents.crowded m n level).Within levels where
  chunks chunk hchunk := by
    obtain hchunk | ⟨chunk, -, rfl⟩ := mem_crowd hchunk
    · exact h.chunks chunk hchunk
    · exact hlevel
  documents doc hdoc := by
    obtain hdoc | ⟨doc, -, rfl⟩ := mem_crowd hdoc
    · exact h.documents doc hdoc
    · exact hlevel

/-- Where all levels are allowed, nothing is hidden. -/
theorem visible_eq_self (h : contents.Within levels)
    (hlevels : ∀ level ∈ levels, level ∈ allowedLevels userRole) :
    contents.visible userRole = contents := by
  have hchunks : (contents.visible userRole).chunks = contents.chunks :=
    List.filter_eq_self.mpr fun chunk hchunk =>
      List.contains_iff_mem.mpr (hlevels _ (h.chunks chunk hchunk))
  have hdocuments : (contents.visible userRole).documents = contents.documents :=
    List.filter_eq_self.mpr fun doc hdoc =>
      List.contains_iff_mem.mpr (hlevels _ (h.documents doc hdoc))
  exact congrArg₂ Contents.mk hchunks hdocuments

theorem visible_visible :
    (contents.visible userRole).visible userRole = contents.visible userRole := by
  simp [visible, List.filter_filter]

theorem visible_crowded (hlevel : level ∉ allowedLevels userRole) :
    ((contents.visible userRole).crowded m n level).visible userRole
      = contents.visible userRole := by
  have hhidden : (allowedLevels userRole).contains level = false := by simpa using hlevel
  refine congrArg₂ Contents.mk ?_ ?_
  · exact filter_crowd_of_hidden (fun _ => hhidden) fun _ => List.of_mem_filter
  · exact filter_crowd_of_hidden (fun _ => hhidden) fun _ => List.of_mem_filter

end Contents

namespace HybridRetriever

/-- The retriever, with these contents added to empty indexes. -/
def load (builtins : Builtins) (hybrid : HybridRetriever) (contents : Contents) :
    HybridRetriever :=
  let vector : VectorRetriever := { hybrid.vectorRetriever with index := [] }
  let keyword : KeywordRetriever := { hybrid.keywordRetriever with documents := [] }
  { hybrid with
    vectorRetriever := vector.addDocuments contents.chunks
    keywordRetriever := keyword.addDocuments builtins contents.documents }

/-- Neither route finds a chunk of these contents. -/
def Misses (builtins : Builtins) (hybrid : HybridRetriever) (query : String) (contents : Contents) :
    Prop :=
  (hybrid.vectorRetriever.topK = 0 ∨ contents.chunks = []) ∧
    (hybrid.keywordRetriever.topK = 0 ∨ ∀ doc ∈ contents.documents,
      ∀ token ∈ tokenize builtins query, token ∉ (doc.withTokens builtins).tokens)

variable {builtins : Builtins} {hybrid : HybridRetriever} {query userRole level : String}
  {contents : Contents}

theorem docCount_load : (hybrid.load builtins contents).keywordRetriever.docCount
    = (hybrid.load builtins contents).keywordRetriever.documents.length := rfl

theorem documents_load : (hybrid.load builtins contents).keywordRetriever.documents
    = contents.documents.map (·.withTokens builtins) := rfl

theorem documents_load_crowded {m n : ℕ} :
    (hybrid.load builtins (contents.crowded m n level)).keywordRetriever.documents
      = crowd n (IndexedChunk.withLevel level)
        (contents.documents.map (·.withTokens builtins)) :=
  map_crowd (IndexedChunk.withTokens_withLevel builtins level)

theorem index_load :
    (hybrid.load builtins contents).vectorRetriever.index = contents.chunks := rfl

theorem mayAccess_load (hchecker : hybrid.accessChecker = none) (level : String) :
    (hybrid.load builtins contents).mayAccess userRole level
      = (allowedLevels userRole).contains level := by
  simp [mayAccess, load, hchecker]

theorem misses_iff :
    hybrid.Misses builtins query contents ↔
      (hybrid.load builtins contents).vectorRetriever.search query none = [] ∧
      (hybrid.load builtins contents).keywordRetriever.search builtins query none = [] := by
  rw [VectorRetriever.search_eq_nil_iff, KeywordRetriever.search_eq_nil_iff docCount_load,
    KeywordRetriever.matching_eq_nil_iff, index_load, documents_load, List.forall_mem_map]
  exact Iff.rfl

/-- A result is of a chunk that the contents have. -/
theorem accessLevel_mem_of_mem_search {levels : Set String} (h : contents.Within levels)
    {result : RetrievalChunk}
    (hresult : result ∈ (hybrid.load builtins contents).vectorRetriever.search query none
      ++ (hybrid.load builtins contents).keywordRetriever.search builtins query none) :
    result.accessLevel ∈ levels := by
  obtain hresult | hresult := List.mem_append.mp hresult
  · obtain ⟨chunk, hchunk, haccess⟩ := VectorRetriever.accessLevel_of_mem_search hresult
    exact haccess ▸ h.chunks chunk hchunk
  · obtain ⟨_, hmatching, haccess⟩ :=
      KeywordRetriever.accessLevel_of_mem_search docCount_load hresult
    obtain ⟨doc, hdoc, rfl⟩ := List.mem_map.mp (KeywordRetriever.mem_matching.mp hmatching).1
    rw [haccess, IndexedChunk.accessLevel_withTokens]
    exact h.documents doc hdoc

/-- Where the routes miss all that is visible, what they find is hidden. -/
theorem hidden_of_misses (h : hybrid.Misses builtins query (contents.visible userRole))
    {result : RetrievalChunk}
    (hresult : result ∈ (hybrid.load builtins contents).vectorRetriever.search query none
      ++ (hybrid.load builtins contents).keywordRetriever.search builtins query none) :
    result.accessLevel ∉ allowedLevels userRole := by
  intro hallowed
  obtain ⟨hvector, hkeyword⟩ := h
  obtain hresult | hresult := List.mem_append.mp hresult
  · obtain ⟨chunk, hchunk, haccess⟩ := VectorRetriever.accessLevel_of_mem_search hresult
    obtain hzero | hnone := hvector
    · have hnil : (hybrid.load builtins contents).vectorRetriever.search query none = [] :=
        VectorRetriever.search_eq_nil_iff.mpr (.inl hzero)
      exact List.not_mem_nil (hnil ▸ hresult)
    · have hseen : chunk ∈ (contents.visible userRole).chunks :=
        List.mem_filter.mpr ⟨hchunk, List.contains_iff_mem.mpr (haccess ▸ hallowed)⟩
      rw [hnone] at hseen
      exact List.not_mem_nil hseen
  · obtain ⟨_, hmatching, haccess⟩ :=
      KeywordRetriever.accessLevel_of_mem_search docCount_load hresult
    obtain hzero | hnone := hkeyword
    · have hnil :
          (hybrid.load builtins contents).keywordRetriever.search builtins query none = [] :=
        (KeywordRetriever.search_eq_nil_iff docCount_load).mpr (.inl hzero)
      exact List.not_mem_nil (hnil ▸ hresult)
    · obtain ⟨hmem, token, htoken, hmatch⟩ := KeywordRetriever.mem_matching.mp hmatching
      obtain ⟨doc, hdoc, rfl⟩ := List.mem_map.mp hmem
      rw [haccess, IndexedChunk.accessLevel_withTokens] at hallowed
      have hseen : doc ∈ (contents.visible userRole).documents :=
        List.mem_filter.mpr ⟨hdoc, List.contains_iff_mem.mpr hallowed⟩
      exact hnone doc hseen token htoken hmatch

variable {topK : Option ℕ} {start stop : ℚ}

theorem retrieve_eq_nil_of_misses (hchecker : hybrid.accessChecker = none)
    (h : hybrid.Misses builtins query (contents.visible userRole)) :
    ((hybrid.load builtins contents).retrieve builtins query userRole topK start stop).chunks
      = [] := by
  refine chunks_eq_nil_of_hidden fun result hresult => ?_
  rw [mayAccess_load hchecker]
  simpa using hidden_of_misses h hresult

/-- Only what is visible, and it is found. -/
theorem retrieve_visible_ne_nil (hchecker : hybrid.accessChecker = none)
    (hk : orDefault topK hybrid.finalTopK ≠ 0)
    (h : ¬ hybrid.Misses builtins query (contents.visible userRole)) :
    ((hybrid.load builtins (contents.visible userRole)).retrieve builtins query userRole topK
      start stop).chunks ≠ [] := by
  refine chunks_ne_nil_of_visible hk (fun result hresult => ?_) ?_
  · have hwithin : (contents.visible userRole).Within {level | level ∈ allowedLevels userRole} :=
      ⟨fun _ hchunk => List.contains_iff_mem.mp (List.mem_filter.mp hchunk).2,
        fun _ hdoc => List.contains_iff_mem.mp (List.mem_filter.mp hdoc).2⟩
    rw [mayAccess_load hchecker]
    exact List.contains_iff_mem.mpr (accessLevel_mem_of_mem_search hwithin hresult)
  · rw [misses_iff] at h
    exact not_and_or.mp h

theorem retrieve_crowded_eq_nil (hchecker : hybrid.accessChecker = none)
    (hlevel : level ∉ allowedLevels userRole) :
    ((hybrid.load builtins (contents.crowded hybrid.vectorRetriever.topK
      hybrid.keywordRetriever.topK level)).retrieve builtins query userRole topK start stop).chunks
      = [] := by
  refine chunks_eq_nil_of_hidden fun result hresult => ?_
  have haccess : result.accessLevel = level := by
    obtain hresult | hresult := List.mem_append.mp hresult
    · exact VectorRetriever.accessLevel_of_crowded rfl hresult
    · exact KeywordRetriever.accessLevel_of_crowded docCount_load documents_load_crowded hresult
  rw [mayAccess_load hchecker, haccess]
  simpa using hlevel

/-! ## What is revealed -/

/-- The ids that a query gets with these contents in the indexes. -/
def retrievedIds (builtins : Builtins) (hybrid : HybridRetriever) (query userRole : String)
    (topK : Option ℕ) (contents : Contents) (start stop : ℚ) : List String :=
  ((hybrid.load builtins contents).retrieve builtins query userRole topK
    start stop).chunks.map RetrievalChunk.chunkId

/-- Exactly when the ids do not depend on what the role may not see: all contents of these levels
that show the role the same get the same answer. -/
theorem same_ids_iff (builtins : Builtins) (hybrid : HybridRetriever)
    (hchecker : hybrid.accessChecker = none) (query userRole : String) (topK : Option ℕ)
    (levels : Set String) (contents : Contents) (hcontents : contents.Within levels) :
    (∀ other : Contents, other.Within levels →
      other.visible userRole = contents.visible userRole → ∀ start stop start' stop' : ℚ,
        hybrid.retrievedIds builtins query userRole topK other start stop
          = hybrid.retrievedIds builtins query userRole topK contents start' stop')
    ↔ (∀ level ∈ levels, level ∈ allowedLevels userRole)
      ∨ orDefault topK hybrid.finalTopK = 0
      ∨ hybrid.Misses builtins query (contents.visible userRole) := by
  unfold retrievedIds
  constructor
  · intro hsame
    by_contra hcond
    push Not at hcond
    obtain ⟨⟨level, hlevel, hhidden⟩, hk, hmisses⟩ := hcond
    -- the visible chunks alone, and the same behind enough copies that are hidden
    have hvisible := hsame (contents.visible userRole) hcontents.visible
      Contents.visible_visible 0 0 0 0
    have hcrowded := hsame ((contents.visible userRole).crowded hybrid.vectorRetriever.topK
      hybrid.keywordRetriever.topK level) (hcontents.visible.crowded hlevel)
      (Contents.visible_crowded hhidden) 0 0 0 0
    rw [retrieve_crowded_eq_nil hchecker hhidden, ← hvisible] at hcrowded
    exact retrieve_visible_ne_nil hchecker hk hmisses (List.map_eq_nil_iff.mp hcrowded.symm)
  · rintro (hall | hk | hmisses) other hother hvisible start stop start' stop'
    · rw [Contents.visible_eq_self hother hall, Contents.visible_eq_self hcontents hall] at hvisible
      rw [hvisible]
      rfl
    · have hnil (contents : Contents) (start stop : ℚ) :
          ((hybrid.load builtins contents).retrieve builtins query userRole topK start stop).chunks
            = [] := by
        rw [chunks_retrieve]
        exact hk ▸ List.take_zero
      rw [hnil, hnil]
    · rw [retrieve_eq_nil_of_misses hchecker hmisses,
        retrieve_eq_nil_of_misses hchecker (hvisible ▸ hmisses)]

/-- The tables for ASCII; without documents no logarithm is taken. -/
def asciiBuiltins : Builtins where
  lower := String.toLower
  isWord c := c.isAlphanum || c == '_'
  log x := x - 1
  log_pos _ hx := sub_pos.mpr hx

def publicOnly : Contents where
  chunks :=
    [{ chunkId := "handbook", content := "refund rules", score := 0, sourceId := "handbook",
       sourceType := "doc" }]
  documents := []

/-- The same chunk, and twenty restricted ones that are closer to the query. -/
def withRestricted : Contents where
  chunks := (List.range 20).map (fun i =>
    { chunkId := s!"ledger-{i}", content := "refund", score := 0, sourceId := s!"ledger-{i}",
      sourceType := "db", accessLevel := "restricted" }) ++ publicOnly.chunks
  documents := []

/-- The administrator may see all three levels. -/
theorem same_ids_admin :
    publicOnly.Within {"public", "internal", "restricted"} ∧
    ∀ other : Contents, other.Within {"public", "internal", "restricted"} →
      other.visible "admin" = publicOnly.visible "admin" → ∀ start stop start' stop' : ℚ,
        ({} : HybridRetriever).retrievedIds asciiBuiltins "refund" "admin" none other start stop
          = ({} : HybridRetriever).retrievedIds asciiBuiltins "refund" "admin" none publicOnly
            start' stop' := by
  have hwithin : publicOnly.Within {"public", "internal", "restricted"} :=
    ⟨by simp [publicOnly], by simp [publicOnly]⟩
  refine ⟨hwithin, (same_ids_iff asciiBuiltins {} rfl "refund" "admin" none _ _ hwithin).mpr
    (.inl ?_)⟩
  simp [allowedLevels, accessHierarchy, getEntry]

theorem restricted_takes_all_places :
    withRestricted.visible "public" = publicOnly.visible "public" ∧
    ({} : HybridRetriever).retrievedIds asciiBuiltins "refund" "public" none publicOnly 0 0
      = ["handbook"] ∧
    ({} : HybridRetriever).retrievedIds asciiBuiltins "refund" "public" none withRestricted 0 0
      = [] := by
  refine ⟨?_, by decide +kernel, by decide +kernel⟩
  simp [Contents.visible, withRestricted, publicOnly, allowedLevels, accessHierarchy, getEntry]

end HybridRetriever

end AgentLearning
