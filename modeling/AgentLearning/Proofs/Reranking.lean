import AgentLearning.Lib.Elementwise
import AgentLearning.Reranker

/-!
# What the reranker gives

Every chunk is scored, once, and the best ones are given: in the order of falling final scores, and
where these are equal in the order in which they came. The new ranks count from 1.
-/

namespace AgentLearning

namespace Reranker

variable {f : RerankFunctions} {reranker : Reranker} {chunks : List RetrievalChunk}
  {readings : RerankReadings}

/-- The score of a chunk at its place among the chunks that were retrieved. -/
structure Scored (f : RerankFunctions) (reranker : Reranker) (chunks : List RetrievalChunk)
    (now : ℕ → ℚ) (result : RerankResult) : Prop where
  chunk : ∃ index, result.originalRank = index + 1 ∧ chunks[index]? = some result.chunk
    ∧ reranker.calcFreshness f result.chunk (now index) = .ok result.rerankScore.freshnessScore
  relevance : result.rerankScore.relevanceScore = result.chunk.score / maxScore chunks
  authority : result.rerankScore.authorityScore = reranker.calcAuthority result.chunk
  final : result.rerankScore.finalScore = reranker.finalScore result.rerankScore.relevanceScore
    result.rerankScore.freshnessScore result.rerankScore.authorityScore

/-- The results, of which the first `n` are given. -/
structure Ranked (f : RerankFunctions) (reranker : Reranker) (chunks : List RetrievalChunk)
    (now : ℕ → ℚ) (ranked : List RerankResult) : Prop where
  scored : ∀ result ∈ ranked, Scored f reranker chunks now result
  originalRanks : (ranked.map (·.originalRank)).Perm (List.range' 1 chunks.length)
  newRanks : ranked.map (·.newRank) = List.range' 1 chunks.length
  sorted : ranked.Pairwise fun a b => b.rerankScore.finalScore < a.rerankScore.finalScore
    ∨ b.rerankScore.finalScore = a.rerankScore.finalScore ∧ a.originalRank < b.originalRank

/-! ## Which chunks can be scored -/

/-- The age of the chunk, if it has one, can be scored: its date is a float, the days of the decay
are not 0 and a float if they divide one, and the exponential function has a value. -/
structure AgeScorable (f : RerankFunctions) (reranker : Reranker) (now updated : ℚ) : Prop where
  date : |updated| < floatBound
  decayDays : reranker.config.freshnessDecayDays ≠ 0
  decayFloat : updated ≤ now → |(reranker.config.freshnessDecayDays : ℚ)| < floatBound
  exp : (f.exp (-max ((now - updated) / 86400) 0 / reranker.config.freshnessDecayDays)).isSome
    = true

def Scorable (f : RerankFunctions) (reranker : Reranker) (chunk : RetrievalChunk) (now : ℚ) :
    Prop :=
  ∀ updated ∈ updatedAt chunk.metadata, AgeScorable f reranker now updated

/-- What the score of an age may raise. -/
def scoreErrors : List PyError :=
  [.exception "int too large to convert to float", .exception "division by zero",
    .exception "float division by zero", .exception "math range error"]

/-- Numbers that are no larger than a float is exact for are converted. -/
theorem lt_floatBound {q : ℚ} (h : q < 2 ^ 53) : q < floatBound := by
  have hbound : floatBound = 2 ^ 970 * (2 ^ 54 - 1) := by
    unfold floatBound
    rw [mul_sub, ← pow_add, mul_one]
  have hone : (1 : ℚ) ≤ 2 ^ 970 := one_le_pow₀ (by norm_num)
  calc q < 2 ^ 53 := h
    _ ≤ 1 * (2 ^ 54 - 1) := by norm_num
    _ ≤ floatBound := by
      rw [hbound]
      exact mul_le_mul_of_nonneg_right hone (by norm_num)

theorem toFloat_cases (q : ℚ) : |q| < floatBound ∧ toFloat q = .ok q
    ∨ ¬ |q| < floatBound ∧ toFloat q = .error (.exception "int too large to convert to float") := by
  unfold toFloat
  by_cases h : |q| < floatBound
  · exact .inl ⟨h, if_neg (not_le.mpr h)⟩
  · exact .inr ⟨h, if_pos (not_lt.mp h)⟩

theorem decayExponent_cases (reranker : Reranker) (ageDays : ℚ) :
    (reranker.config.freshnessDecayDays ≠ 0
        ∧ (0 ≤ ageDays → |(reranker.config.freshnessDecayDays : ℚ)| < floatBound)
        ∧ reranker.decayExponent ageDays
          = .ok (-max ageDays 0 / reranker.config.freshnessDecayDays))
      ∨ ¬ (reranker.config.freshnessDecayDays ≠ 0
        ∧ (0 ≤ ageDays → |(reranker.config.freshnessDecayDays : ℚ)| < floatBound))
        ∧ ∃ error ∈ scoreErrors, reranker.decayExponent ageDays = .error error := by
  unfold decayExponent
  simp only
  by_cases hage : ageDays < 0
  · rw [if_pos hage, max_eq_right hage.le]
    by_cases hdecay : reranker.config.freshnessDecayDays = 0
    · exact .inr ⟨fun h => h.1 hdecay, _, by simp [scoreErrors], if_pos hdecay⟩
    · exact .inl ⟨hdecay, fun h => absurd hage (not_lt.mpr h), by simp [hdecay]⟩
  · rw [if_neg hage, max_eq_left (not_lt.mp hage)]
    rcases toFloat_cases reranker.config.freshnessDecayDays with ⟨hfloat, hok⟩ | ⟨hfloat, herror⟩
    · rw [hok]
      by_cases hdecay : reranker.config.freshnessDecayDays = 0
      · exact .inr ⟨fun h => h.1 hdecay, .exception "float division by zero",
          by simp [scoreErrors], by simp [hdecay, bind, Except.bind]⟩
      · exact .inl ⟨hdecay, fun _ => hfloat, by simp [hdecay, bind, Except.bind]⟩
    · rw [herror]
      exact .inr ⟨fun h => hfloat (h.2 (not_lt.mp hage)), _, by simp [scoreErrors], rfl⟩

theorem calcFreshness_cases (f : RerankFunctions) (reranker : Reranker) (chunk : RetrievalChunk)
    (now : ℚ) : (Scorable f reranker chunk now
        ∧ ∃ score, reranker.calcFreshness f chunk now = .ok score)
      ∨ ¬ Scorable f reranker chunk now
        ∧ ∃ error ∈ scoreErrors, reranker.calcFreshness f chunk now = .error error := by
  unfold calcFreshness Scorable
  rcases updatedAt chunk.metadata with _ | updated
  · exact .inl ⟨by simp, _, rfl⟩
  simp only [Option.mem_some_iff, forall_eq']
  rcases toFloat_cases updated with ⟨hupdated, hok⟩ | ⟨hupdated, herror⟩
  · have hage : 0 ≤ (now - updated) / 86400 ↔ updated ≤ now := by
      rw [le_div_iff₀ (by norm_num), zero_mul, sub_nonneg]
    have hexponent := decayExponent_cases reranker ((now - updated) / 86400)
    rw [hage] at hexponent
    rcases hexponent with ⟨hdecay, hfloat, hexponent⟩ | ⟨hnot, error, hmem, herror⟩
    · rcases hexp : f.exp (-max ((now - updated) / 86400) 0 / reranker.config.freshnessDecayDays)
        with _ | score
      · exact .inr ⟨fun h => by simpa [hexp] using h.exp, .exception "math range error",
          by simp [scoreErrors], by simp [hok, hexponent, hexp, bind, Except.bind]⟩
      · exact .inl ⟨⟨hupdated, hdecay, hfloat, by simp [hexp]⟩, score,
          by simp [hok, hexponent, hexp, bind, Except.bind]⟩
    · exact .inr ⟨fun h => hnot ⟨h.decayDays, h.decayFloat⟩, error, hmem,
        by simp [hok, herror, bind, Except.bind]⟩
  · exact .inr ⟨fun h => hupdated h.date, .exception "int too large to convert to float",
      by simp [scoreErrors], by simp [herror, bind, Except.bind]⟩

/-- With days of the decay above 0 every date that is a float can be scored. -/
theorem scorable_of_pos {chunk : RetrievalChunk} {now : ℚ}
    (hpos : 0 < reranker.config.freshnessDecayDays)
    (hdecay : (reranker.config.freshnessDecayDays : ℚ) < floatBound)
    (hdate : ∀ updated ∈ updatedAt chunk.metadata, |updated| < floatBound) :
    Scorable f reranker chunk now := by
  have hpos' : (0 : ℚ) < reranker.config.freshnessDecayDays := by exact_mod_cast hpos
  refine fun updated hupdated => ⟨hdate updated hupdated, hpos.ne', fun _ => ?_,
    f.exp_isSome _ ?_⟩
  · rwa [abs_of_pos hpos']
  · exact div_nonpos_of_nonpos_of_nonneg (neg_nonpos.mpr (le_max_right _ _)) hpos'.le

/-! ## The scores -/

theorem scoreChunk_ok {best : ℚ} {now : ℕ → ℚ} {chunk : RetrievalChunk} {index : ℕ}
    {result : RerankResult} (h : reranker.scoreChunk f best now chunk index = .ok result) :
    result.chunk = chunk ∧ result.originalRank = index + 1
      ∧ reranker.calcFreshness f chunk (now index) = .ok result.rerankScore.freshnessScore
      ∧ result.rerankScore.relevanceScore = chunk.score / best
      ∧ result.rerankScore.authorityScore = reranker.calcAuthority chunk
      ∧ result.rerankScore.finalScore = reranker.finalScore result.rerankScore.relevanceScore
        result.rerankScore.freshnessScore result.rerankScore.authorityScore := by
  unfold scoreChunk at h
  rcases hfreshness : reranker.calcFreshness f chunk (now index) with error | freshness
  · simp [hfreshness, bind, Except.bind] at h
  · simp only [hfreshness, bind, Except.bind, pure, Except.pure, Except.ok.injEq] at h
    subst h
    exact ⟨rfl, rfl, rfl, rfl, rfl, rfl⟩

section Loop

variable {scored : List RerankResult}
  (h : (chunks.zipIdx.mapM fun (chunk, index) =>
    reranker.scoreChunk f (maxScore chunks) readings.now chunk index) = .ok scored)
include h

theorem scored_of_mapM : ∀ result ∈ scored, Scored f reranker chunks readings.now result := by
  intro result hresult
  obtain ⟨⟨chunk, index⟩, hitem, hscore⟩ := exists_of_mem_forall₂ (forall₂_of_mapM_ok h) hresult
  obtain ⟨rfl, hrank, hfreshness, hrelevance, hauthority, hfinal⟩ := scoreChunk_ok hscore
  exact ⟨⟨index, hrank, List.mem_zipIdx_iff_getElem?.mp hitem, hfreshness⟩, hrelevance, hauthority,
    hfinal⟩

theorem originalRanks_of_mapM :
    scored.map (·.originalRank) = List.range' 1 chunks.length := by
  have hall := (forall₂_of_mapM_ok h).imp fun item result hscore => (scoreChunk_ok hscore).2.1
  have hplaces : scored.map (·.originalRank) = chunks.zipIdx.map fun item => item.2 + 1 := by
    rw [← List.forall₂_eq_eq_eq, List.forall₂_map_left_iff, List.forall₂_map_right_iff]
    exact hall.flip
  calc scored.map (·.originalRank)
      = (chunks.zipIdx.map Prod.snd).map (1 + ·) := by
        simp only [hplaces, List.map_map, Function.comp_def, Nat.add_comm]
    _ = List.range' 1 chunks.length := by rw [List.zipIdx_map_snd, List.map_add_range']

end Loop

theorem newRanks_assignRanks (results : List RerankResult) :
    (assignRanks results).map (·.newRank) = List.range' 1 results.length := by
  have hplaces : (assignRanks results).map (·.newRank)
      = (results.zipIdx.map Prod.snd).map (1 + ·) := by
    simp only [assignRanks, List.map_map, Function.comp_def, Nat.add_comm]
  rw [hplaces, List.zipIdx_map_snd, List.map_add_range']

/-- The ranks aside, nothing changes. -/
theorem map_assignRanks {α : Type} {g : RerankResult → α}
    (hg : ∀ result rank, g { result with newRank := rank } = g result)
    (results : List RerankResult) : (assignRanks results).map g = results.map g := by
  have hplaces : (assignRanks results).map g = (results.zipIdx.map Prod.fst).map g := by
    simp only [assignRanks, List.map_map, Function.comp_def, hg]
  rw [hplaces, List.zipIdx_map_fst]

theorem Scored.assignRanks {now : ℕ → ℚ} {results : List RerankResult}
    (h : ∀ result ∈ results, Scored f reranker chunks now result) :
    ∀ result ∈ assignRanks results, Scored f reranker chunks now result := by
  intro result hresult
  obtain ⟨⟨scored, index⟩, hitem, rfl⟩ := List.mem_map.mp hresult
  have hscored := h scored (List.fst_mem_of_mem_zipIdx hitem)
  exact ⟨hscored.chunk, hscored.relevance, hscored.authority, hscored.final⟩

theorem ranked_of_mapM {scored : List RerankResult}
    (h : (chunks.zipIdx.mapM fun (chunk, index) =>
      reranker.scoreChunk f (maxScore chunks) readings.now chunk index) = .ok scored) :
    Ranked f reranker chunks readings.now
      (assignRanks (ranking (fun result => result.rerankScore.finalScore) scored)) := by
  have hperm := ranking_perm (fun result : RerankResult => result.rerankScore.finalScore) scored
  have hranks := originalRanks_of_mapM h
  have hlength : scored.length = chunks.length := by
    rw [← List.length_map (f := (·.originalRank)), hranks, List.length_range']
  have hinOrder : scored.Pairwise fun a b => a.originalRank < b.originalRank := by
    rw [← List.pairwise_map, hranks]
    exact List.pairwise_lt_range'
  refine ⟨Scored.assignRanks fun result hresult =>
    scored_of_mapM h result ((mem_ranking _).mp hresult), ?_, ?_, ?_⟩
  · rw [map_assignRanks fun _ _ => rfl, ← hranks]
    exact hperm.map _
  · rw [newRanks_assignRanks, length_ranking, hlength]
  · -- the order is one of the scores and the original ranks, which the new ranks leave alone
    have hsorted := pairwise_ranking_stable (fun result => result.rerankScore.finalScore) hinOrder
    have hsame := map_assignRanks
      (g := fun result => (result.rerankScore.finalScore, result.originalRank)) (fun _ _ => rfl)
      (ranking (fun result => result.rerankScore.finalScore) scored)
    rw [← List.pairwise_map (f := fun result : RerankResult =>
      (result.rerankScore.finalScore, result.originalRank))
      (R := fun a b => b.1 < a.1 ∨ b.1 = a.1 ∧ a.2 < b.2)] at hsorted ⊢
    rwa [hsame]

/-- Every chunk can be scored when the clock shows what it does. -/
def AllScorable (f : RerankFunctions) (reranker : Reranker) (chunks : List RetrievalChunk)
    (now : ℕ → ℚ) : Prop :=
  ∀ item ∈ chunks.zipIdx, Scorable f reranker item.1 (now item.2)

theorem allScorable_of_pos {now : ℕ → ℚ} (hpos : 0 < reranker.config.freshnessDecayDays)
    (hdecay : (reranker.config.freshnessDecayDays : ℚ) < floatBound)
    (hdates : ∀ chunk ∈ chunks, ∀ updated ∈ updatedAt chunk.metadata, |updated| < floatBound) :
    AllScorable f reranker chunks now :=
  fun item hitem => scorable_of_pos hpos hdecay
    (hdates item.1 (List.fst_mem_of_mem_zipIdx hitem))

/-- Chunks that can be scored are ranked, and the first ones are given. -/
theorem exists_ranked (f : RerankFunctions) (reranker : Reranker) (chunks : List RetrievalChunk)
    (topN : Option ℤ) (readings : RerankReadings) :
    (AllScorable f reranker chunks readings.now
        ∧ ∃ output ranked, reranker.rerank f chunks topN readings = .ok output
          ∧ Ranked f reranker chunks readings.now ranked
          ∧ output.results = sliceTo ranked (reranker.limit topN))
      ∨ ¬ AllScorable f reranker chunks readings.now
        ∧ ∃ error ∈ scoreErrors, reranker.rerank f chunks topN readings = .error error := by
  have hrounds := mapM_cases (f := fun item : RetrievalChunk × ℕ =>
      reranker.scoreChunk f (maxScore chunks) readings.now item.1 item.2)
    (P := fun item => Scorable f reranker item.1 (readings.now item.2)) (E := (· ∈ scoreErrors))
    (l := chunks.zipIdx) fun item _ => by
      rcases calcFreshness_cases f reranker item.1 (readings.now item.2) with
        ⟨hitem, freshness, hfreshness⟩ | ⟨hitem, error, hmem, herror⟩
      · exact .inl ⟨hitem, by simp [scoreChunk, hfreshness, bind, Except.bind, pure, Except.pure]⟩
      · exact .inr ⟨hitem, error, hmem, by simp [scoreChunk, herror, bind, Except.bind]⟩
  unfold rerank
  rcases hrounds with ⟨hscorable, scored, hscored⟩ | ⟨hscorable, error, hmem, herror⟩
  · refine .inl ⟨hscorable, ?_⟩
    have hranked := ranked_of_mapM hscored
    rcases chunks with _ | ⟨chunk, chunks⟩
    · exact ⟨_, [], rfl, ⟨by simp, by simp, by simp, by simp⟩, by simp [sliceTo]⟩
    · simp only [List.isEmpty_cons, Bool.false_eq_true, if_false, hscored, bind, Except.bind, pure,
        Except.pure]
      exact ⟨_, _, rfl, hranked, rfl⟩
  · refine .inr ⟨hscorable, error, hmem, ?_⟩
    rcases chunks with _ | ⟨chunk, chunks⟩
    · exact absurd (by simp) hscorable
    · simp only [List.isEmpty_cons, Bool.false_eq_true, if_false, herror, bind, Except.bind]

theorem score_le_maxScore (hnonneg : ∀ chunk ∈ chunks, 0 ≤ chunk.score) {chunk : RetrievalChunk}
    (h : chunk ∈ chunks) : 0 < maxScore chunks ∧ chunk.score ≤ maxScore chunks := by
  have hscore : chunk.score ∈ chunks.map (·.score) := List.mem_map_of_mem h
  obtain ⟨best, hbest⟩ : ∃ best, (chunks.map (·.score)).max? = some best := by
    rw [← Option.isSome_iff_exists, List.isSome_max?_iff]
    exact List.ne_nil_of_mem hscore
  obtain ⟨hmem, hle⟩ := List.max?_eq_some_iff.mp hbest
  have hbound := hle _ hscore
  have hzero := hnonneg chunk h
  unfold maxScore
  simp only [hbest, Option.getD_some]
  split_ifs with hbestZero
  · exact ⟨one_pos, by linarith⟩
  · exact ⟨lt_of_le_of_ne (hzero.trans hbound) (Ne.symm hbestZero), hbound⟩

theorem Scored.relevance_mem {now : ℕ → ℚ} {result : RerankResult}
    (h : Scored f reranker chunks now result) (hnonneg : ∀ chunk ∈ chunks, 0 ≤ chunk.score) :
    0 ≤ result.rerankScore.relevanceScore ∧ result.rerankScore.relevanceScore ≤ 1 := by
  obtain ⟨index, -, hget, -⟩ := h.chunk
  have hmem := List.mem_of_getElem? hget
  obtain ⟨hpos, hle⟩ := score_le_maxScore hnonneg hmem
  rw [h.relevance]
  exact ⟨div_nonneg (hnonneg _ hmem) hpos.le, (div_le_one hpos).mpr hle⟩

/-- `a` comes before `b`. -/
def Beats (a b : RerankResult) : Prop :=
  b.rerankScore.finalScore < a.rerankScore.finalScore
    ∨ b.rerankScore.finalScore = a.rerankScore.finalScore ∧ a.originalRank < b.originalRank

/-- What a call gives for the chunks. -/
structure KeepsBest (f : RerankFunctions) (reranker : Reranker) (chunks : List RetrievalChunk)
    (now : ℕ → ℚ) (n : ℕ) (results : List RerankResult) : Prop where
  length : results.length = n
  scored : ∀ result ∈ results, Scored f reranker chunks now result
  newRanks : results.map (·.newRank) = List.range' 1 results.length
  distinct : (results.map (·.originalRank)).Nodup
  sorted : results.Pairwise Beats
  leftOut (index : ℕ) (hindex : index < chunks.length)
    (hleft : index + 1 ∉ results.map (·.originalRank)) :
    ∃ result, Scored f reranker chunks now result ∧ result.originalRank = index + 1
      ∧ ∀ kept ∈ results, Beats kept result
  relevance (hnonneg : ∀ chunk ∈ chunks, 0 ≤ chunk.score) (result : RerankResult)
    (hresult : result ∈ results) :
    0 ≤ result.rerankScore.relevanceScore ∧ result.rerankScore.relevanceScore ≤ 1

theorem Ranked.length {now : ℕ → ℚ} {ranked : List RerankResult}
    (h : Ranked f reranker chunks now ranked) : ranked.length = chunks.length := by
  rw [← List.length_map (f := (·.newRank)), h.newRanks, List.length_range']

theorem Ranked.keepsBest {now : ℕ → ℚ} {ranked : List RerankResult}
    (h : Ranked f reranker chunks now ranked) {n : ℕ} (hn : n ≤ chunks.length) :
    KeepsBest f reranker chunks now n (ranked.take n) := by
  have hlength := h.length
  have hsorted : ranked.Pairwise Beats := h.sorted
  have hscored (result) (hresult : result ∈ ranked.take n) :=
    h.scored result (List.mem_of_mem_take hresult)
  refine ⟨by rw [List.length_take, hlength, Nat.min_eq_left hn], hscored, ?_, ?_,
    hsorted.sublist (List.take_sublist _ _),
    fun index hindex hleft => ?_, fun hnonneg result hresult =>
      (hscored result hresult).relevance_mem hnonneg⟩
  · rw [List.map_take, h.newRanks, List.length_take, hlength, Nat.min_eq_left hn,
      List.take_range'_of_length_ge hn]
  · have hnodup := h.originalRanks.nodup_iff.mpr (List.nodup_range' 1)
    exact hnodup.sublist ((List.take_sublist _ _).map _)
  · have hrank : index + 1 ∈ ranked.map (·.originalRank) := by
      rw [h.originalRanks.mem_iff, List.mem_range'_1]
      omega
    obtain ⟨result, hresult, hindex⟩ := List.mem_map.mp hrank
    refine ⟨result, h.scored result hresult, hindex, fun kept hkept => ?_⟩
    rw [← List.take_append_drop n ranked] at hsorted hresult
    rcases List.mem_append.mp hresult with hkept' | hdropped
    · exact absurd (List.mem_map.mpr ⟨result, hkept', hindex⟩) hleft
    · exact (List.pairwise_append.mp hsorted).2.2 kept hkept result hdropped

/-- How many of `length` items `[:stop]` keeps. -/
def sliceLength (stop : ℤ) (length : ℕ) : ℕ :=
  if 0 ≤ stop then min stop.toNat length else length - stop.natAbs

theorem sliceTo_eq_take {α : Type} (items : List α) (stop : ℤ) :
    sliceTo items stop = items.take (sliceLength stop items.length) := by
  unfold sliceTo sliceLength
  split_ifs
  · rw [← List.take_take, List.take_length]
  · rfl

theorem sliceLength_le (stop : ℤ) (length : ℕ) : sliceLength stop length ≤ length := by
  unfold sliceLength
  split_ifs <;> omega

theorem sliceLength_mono (stop : ℤ) {m n : ℕ} (h : m ≤ n) :
    sliceLength stop m ≤ sliceLength stop n := by
  unfold sliceLength
  split_ifs <;> omega

theorem rerank_cases (f : RerankFunctions) (reranker : Reranker) (chunks : List RetrievalChunk)
    (topN : Option ℤ) (readings : RerankReadings) :
    (AllScorable f reranker chunks readings.now
        ∧ ∃ output, reranker.rerank f chunks topN readings = .ok output
          ∧ KeepsBest f reranker chunks readings.now
            (sliceLength (reranker.limit topN) chunks.length) output.results)
      ∨ ¬ AllScorable f reranker chunks readings.now
        ∧ ∃ error ∈ scoreErrors, reranker.rerank f chunks topN readings = .error error := by
  rcases exists_ranked f reranker chunks topN readings with
    ⟨hscorable, output, ranked, houtput, hranked, hresults⟩ | hraises
  · refine .inl ⟨hscorable, output, houtput, ?_⟩
    rw [hresults, sliceTo_eq_take, hranked.length]
    exact hranked.keepsBest (sliceLength_le _ _)
  · exact .inr hraises

/-- A call gives the best chunks, best first, and none that was left out beats one that was kept;
it raises if and only if one of the chunks has an age that cannot be scored. With days of the decay
above 0 that is a date, or they themselves, that no float can be. -/
theorem rerank_keepsBest (f : RerankFunctions) (reranker : Reranker) (chunks : List RetrievalChunk)
    (topN : Option ℤ) (readings : RerankReadings) :
    ((∃ output, reranker.rerank f chunks topN readings = .ok output)
        ↔ AllScorable f reranker chunks readings.now)
      ∧ (∀ output, reranker.rerank f chunks topN readings = .ok output →
        KeepsBest f reranker chunks readings.now
          (sliceLength (reranker.limit topN) chunks.length) output.results)
      ∧ (∀ error, reranker.rerank f chunks topN readings = .error error → error ∈ scoreErrors)
      ∧ (0 < reranker.config.freshnessDecayDays →
        (reranker.config.freshnessDecayDays : ℚ) < floatBound →
        (∀ chunk ∈ chunks, ∀ updated ∈ updatedAt chunk.metadata, |updated| < floatBound) →
          AllScorable f reranker chunks readings.now) := by
  rcases rerank_cases f reranker chunks topN readings with
    ⟨hall, output, houtput, hbest⟩ | ⟨hnot, error, hmem, herror⟩
  · refine ⟨⟨fun _ => hall, fun _ => ⟨output, houtput⟩⟩, fun output' houtput' => ?_,
      fun error herror => ?_, allScorable_of_pos⟩
    · cases houtput.symm.trans houtput'
      exact hbest
    · cases houtput.symm.trans herror
  · refine ⟨⟨fun h => ?_, fun hall => absurd hall hnot⟩, fun output houtput => ?_,
      fun error' herror' => ?_, allScorable_of_pos⟩
    · obtain ⟨output, houtput⟩ := h
      cases herror.symm.trans houtput
    · cases herror.symm.trans houtput
    · cases herror.symm.trans herror'
      exact hmem

end Reranker

end AgentLearning
