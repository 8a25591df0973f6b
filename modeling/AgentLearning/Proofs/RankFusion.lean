import AgentLearning.Proofs.RetrievalLeak

/-!
# Fusion by ranks

A route without repeated ids adds to the score of each of its chunks what its rank is worth, once.
So the score of a chunk is a sum over the routes that have it, and a chunk that is ahead of another
in every route that has the other has the higher score.
-/

namespace AgentLearning

/-- The score kept for an id. -/
def scoreIn (fused : Dict String Fused) (id : String) : ℚ :=
  ((fused.get? id).map Fused.score).getD 0

def sourcesIn (fused : Dict String Fused) (id : String) : List String :=
  ((fused.get? id).map Fused.sources).getD []

def chunkIds (chunks : List RetrievalChunk) : List String := chunks.map (·.chunkId)

@[simp]
theorem chunkIds_cons (chunk : RetrievalChunk) (chunks : List RetrievalChunk) :
    chunkIds (chunk :: chunks) = chunk.chunkId :: chunkIds chunks := rfl

/-- The place of an id in a list, from 1. -/
def rankOf (ids : List String) (id : String) : ℕ := ids.idxOf id + 1

theorem mem_of_rankOf_lt {ids : List String} {a b : String} (hb : b ∈ ids)
    (h : rankOf ids a < rankOf ids b) : a ∈ ids := by
  have := List.idxOf_lt_length_of_mem hb
  rw [← List.idxOf_lt_length_iff]
  simp only [rankOf] at h
  omega

/-- What a fusion of two lists of ids by their ranks gives. -/
structure FusedByRank (rrfK : ℕ) (vectorIds keywordIds : List String)
    (merged : List RetrievalChunk) : Prop where
  nodup : (chunkIds merged).Nodup
  mem_iff : ∀ id, id ∈ chunkIds merged ↔ id ∈ vectorIds ∨ id ∈ keywordIds
  score : ∀ chunk ∈ merged, chunk.score =
    (([vectorIds, keywordIds].filter (chunk.chunkId ∈ ·)).map fun ids =>
      1 / ((rrfK + rankOf ids chunk.chunkId : ℕ) : ℚ)).sum
  ordered : merged.Pairwise fun a b => b.score ≤ a.score
  both : ∀ chunk ∈ merged, chunk.retrievalSource = "both"
    ↔ chunk.chunkId ∈ vectorIds ∧ chunk.chunkId ∈ keywordIds
  ahead : ∀ a b, b ∈ chunkIds merged →
    (∀ ids ∈ [vectorIds, keywordIds], b ∈ ids → rankOf ids a < rankOf ids b) →
    rankOf (chunkIds merged) a < rankOf (chunkIds merged) b

/-! ## One route -/

section Route

variable {source : String} {fused : Dict String Fused} {results : List RetrievalChunk}
  {id : String}

theorem scoreIn_fuse (chunk : RetrievalChunk) (a : ℚ) :
    scoreIn (fuse source fused chunk a) id
      = if chunk.chunkId = id then scoreIn fused id + a else scoreIn fused id := by
  rw [scoreIn, fuse, Dict.get?_set]
  split_ifs with h
  · rw [← h]
    rfl
  · rfl

theorem sourcesIn_fuse (chunk : RetrievalChunk) (a : ℚ) :
    sourcesIn (fuse source fused chunk a) id
      = if chunk.chunkId = id then (sourcesIn fused id).insert source else sourcesIn fused id := by
  rw [sourcesIn, fuse, Dict.get?_set]
  split_ifs with h
  · rw [← h]
    rfl
  · rfl

/-- The route adds the amount of the rank at which it has the id. -/
theorem scoreIn_fuseRoute (amount : ℕ → ℚ) (hnodup : (chunkIds results).Nodup) :
    scoreIn (fuseRoute source (fun rank _ => amount rank) fused results) id
      = scoreIn fused id
        + if id ∈ chunkIds results then amount ((chunkIds results).idxOf id) else 0 := by
  suffices h : ∀ start, scoreIn ((results.zipIdx start).foldl (fun fused entry =>
      fuse source fused entry.1 (amount entry.2)) fused) id = scoreIn fused id
        + if id ∈ chunkIds results then amount (start + (chunkIds results).idxOf id) else 0 by
    simpa [fuseRoute] using h 0
  induction results generalizing fused with
  | nil => simp [chunkIds]
  | cons chunk results ih =>
    intro start
    rw [chunkIds_cons, List.nodup_cons] at hnodup
    rw [List.zipIdx_cons, List.foldl_cons, ih hnodup.2, scoreIn_fuse, chunkIds_cons]
    by_cases h : chunk.chunkId = id
    · subst h
      simp [hnodup.1]
    · rw [if_neg h, List.idxOf_cons_ne _ h]
      have hmem : id ∈ chunk.chunkId :: chunkIds results ↔ id ∈ chunkIds results :=
        List.mem_cons.trans (or_iff_right (Ne.symm h))
      rw [if_congr hmem rfl rfl, Nat.succ_eq_add_one, Nat.add_right_comm, Nat.add_assoc]

theorem sourcesIn_fuseRoute (amount : ℕ → RetrievalChunk → ℚ) :
    sourcesIn (fuseRoute source amount fused results) id
      = if id ∈ chunkIds results then (sourcesIn fused id).insert source
        else sourcesIn fused id := by
  unfold fuseRoute
  generalize 0 = start
  induction results generalizing start fused with
  | nil => simp [chunkIds]
  | cons chunk results ih =>
    rw [List.zipIdx_cons, List.foldl_cons, ih, sourcesIn_fuse, chunkIds_cons]
    by_cases h : chunk.chunkId = id
    · subst h
      simp
    · rw [if_neg h]
      have hmem : id ∈ chunk.chunkId :: chunkIds results ↔ id ∈ chunkIds results :=
        List.mem_cons.trans (or_iff_right (Ne.symm h))
      exact if_congr hmem.symm rfl rfl

/-- Each chunk is under its own id. -/
def KeyedById (fused : Dict String Fused) : Prop :=
  ∀ id f, fused.get? id = some f → f.chunk.chunkId = id

theorem KeyedById.fuseRoute (h : KeyedById fused) (amount : ℕ → RetrievalChunk → ℚ) :
    KeyedById (fuseRoute source amount fused results) :=
  of_get?_fuseRoute (P := fun id chunk => chunk.chunkId = id) source amount h fun _ _ => rfl

end Route

/-! ## Both routes -/

namespace HybridRetriever

variable {hybrid : HybridRetriever} {vectorResults keywordResults : List RetrievalChunk}

def reciprocal (hybrid : HybridRetriever) (rank : ℕ) : ℚ := 1 / (hybrid.rrfK + rank + 1)

/-- What both routes leave in the dictionaries. -/
def fused (hybrid : HybridRetriever) (vectorResults keywordResults : List RetrievalChunk) :
    Dict String Fused :=
  fuseRoute "keyword" (fun rank _ => hybrid.reciprocal rank)
    (fuseRoute "vector" (fun rank _ => hybrid.reciprocal rank) ∅ vectorResults) keywordResults

/-- The score of an id: over the routes that have it, what its ranks are worth. -/
def rrfScore (hybrid : HybridRetriever) (vectorIds keywordIds : List String) (id : String) : ℚ :=
  (if id ∈ vectorIds then hybrid.reciprocal (vectorIds.idxOf id) else 0)
    + if id ∈ keywordIds then hybrid.reciprocal (keywordIds.idxOf id) else 0

theorem mergeRrf_eq : hybrid.mergeRrf vectorResults keywordResults
    = (ranking Fused.score (hybrid.fused vectorResults keywordResults).values).map
      Fused.toChunk := rfl

theorem keyed_fused : KeyedById (hybrid.fused vectorResults keywordResults) := by
  refine KeyedById.fuseRoute (KeyedById.fuseRoute ?_ _) _
  intro id f hf
  simp at hf

variable (hybrid vectorResults keywordResults) in
theorem isSome_get?_fused (id : String) :
    ((hybrid.fused vectorResults keywordResults).get? id).isSome
      ↔ id ∈ chunkIds vectorResults ∨ id ∈ chunkIds keywordResults := by
  rw [fused, isSome_get?_fuseRoute, isSome_get?_fuseRoute]
  simp [chunkIds, or_comm]

theorem scoreIn_fused (hvector : (chunkIds vectorResults).Nodup)
    (hkeyword : (chunkIds keywordResults).Nodup) (id : String) :
    scoreIn (hybrid.fused vectorResults keywordResults) id
      = hybrid.rrfScore (chunkIds vectorResults) (chunkIds keywordResults) id := by
  rw [fused, scoreIn_fuseRoute hybrid.reciprocal hkeyword,
    scoreIn_fuseRoute hybrid.reciprocal hvector, rrfScore]
  simp [scoreIn]

theorem sourcesIn_fused (id : String) :
    sourcesIn (hybrid.fused vectorResults keywordResults) id
      = (if id ∈ chunkIds keywordResults then ["keyword"] else [])
        ++ if id ∈ chunkIds vectorResults then ["vector"] else [] := by
  rw [fused, sourcesIn_fuseRoute, sourcesIn_fuseRoute]
  have hempty : sourcesIn (∅ : Dict String Fused) id = [] := by simp [sourcesIn]
  rw [hempty]
  split_ifs <;> simp

theorem retrievalSource_toChunk {f : Fused} {id : String}
    (hf : (hybrid.fused vectorResults keywordResults).get? id = some f) :
    f.toChunk.retrievalSource = "both"
      ↔ id ∈ chunkIds vectorResults ∧ id ∈ chunkIds keywordResults := by
  have hsources : f.sources = sourcesIn (hybrid.fused vectorResults keywordResults) id := by
    rw [sourcesIn, hf]
    rfl
  rw [sourcesIn_fused] at hsources
  unfold Fused.toChunk
  rw [hsources]
  by_cases hv : id ∈ chunkIds vectorResults <;> by_cases hk : id ∈ chunkIds keywordResults <;>
    simp [hv, hk]

/-- A chunk of the result is what was kept for its id. -/
theorem mem_mergeRrf {chunk : RetrievalChunk} :
    chunk ∈ hybrid.mergeRrf vectorResults keywordResults
      ↔ ∃ f, (hybrid.fused vectorResults keywordResults).get? chunk.chunkId = some f
        ∧ f.toChunk = chunk := by
  rw [mergeRrf_eq, List.mem_map]
  constructor
  · rintro ⟨f, hf, rfl⟩
    rw [mem_ranking, Dict.mem_values_iff keyed_fused] at hf
    exact ⟨f, hf, rfl⟩
  · rintro ⟨f, hf, rfl⟩
    refine ⟨f, ?_, rfl⟩
    rw [mem_ranking, Dict.mem_values_iff keyed_fused]
    exact hf

theorem chunkIds_mergeRrf : chunkIds (hybrid.mergeRrf vectorResults keywordResults)
    = (ranking Fused.score (hybrid.fused vectorResults keywordResults).values).map
      fun f => f.chunk.chunkId := by
  rw [mergeRrf_eq, chunkIds, List.map_map]
  rfl

variable (hybrid vectorResults keywordResults) in
theorem nodup_mergeRrf : (chunkIds (hybrid.mergeRrf vectorResults keywordResults)).Nodup := by
  rw [chunkIds_mergeRrf, ((ranking_perm _ _).map _).nodup_iff]
  exact Dict.nodup_map_values keyed_fused

theorem mem_chunkIds_mergeRrf (id : String) :
    id ∈ chunkIds (hybrid.mergeRrf vectorResults keywordResults)
      ↔ id ∈ chunkIds vectorResults ∨ id ∈ chunkIds keywordResults := by
  rw [← isSome_get?_fused hybrid, Option.isSome_iff_exists, chunkIds_mergeRrf,
    List.mem_map]
  simp only [mem_ranking, Dict.mem_values_iff keyed_fused]
  constructor
  · rintro ⟨f, hf, rfl⟩
    exact ⟨f, hf⟩
  · rintro ⟨f, hf⟩
    have hid := keyed_fused id f hf
    exact ⟨f, by rwa [hid], hid⟩

theorem rrfScore_eq_sum (vectorIds keywordIds : List String) (id : String) :
    hybrid.rrfScore vectorIds keywordIds id
      = (([vectorIds, keywordIds].filter (id ∈ ·)).map fun ids =>
        1 / ((hybrid.rrfK + rankOf ids id : ℕ) : ℚ)).sum := by
  have hreciprocal : ∀ ids : List String, hybrid.reciprocal (ids.idxOf id)
      = 1 / ((hybrid.rrfK + rankOf ids id : ℕ) : ℚ) := by
    intro ids
    simp only [reciprocal, rankOf, Nat.cast_add, Nat.cast_one, add_assoc]
  unfold rrfScore
  by_cases hv : id ∈ vectorIds <;> by_cases hk : id ∈ keywordIds <;> simp [hv, hk, hreciprocal]

theorem reciprocal_pos (rank : ℕ) : 0 < hybrid.reciprocal rank := by
  have hnonneg : (0 : ℚ) ≤ hybrid.rrfK + rank :=
    add_nonneg (Nat.cast_nonneg _) (Nat.cast_nonneg _)
  exact div_pos one_pos (by linarith)

theorem reciprocal_lt {rank rank' : ℕ} (h : rank < rank') :
    hybrid.reciprocal rank' < hybrid.reciprocal rank := by
  unfold reciprocal
  gcongr

variable (hybrid) in
/-- Ahead in each list that has the other is ahead in the score. -/
theorem rrfScore_lt {vectorIds keywordIds : List String} {a b : String}
    (hb : b ∈ vectorIds ∨ b ∈ keywordIds)
    (hahead : ∀ ids ∈ [vectorIds, keywordIds], b ∈ ids → rankOf ids a < rankOf ids b) :
    hybrid.rrfScore vectorIds keywordIds b < hybrid.rrfScore vectorIds keywordIds a := by
  have hroute : ∀ ids ∈ [vectorIds, keywordIds],
      (if b ∈ ids then hybrid.reciprocal (ids.idxOf b) else 0)
        ≤ if a ∈ ids then hybrid.reciprocal (ids.idxOf a) else 0 := by
    intro ids hids
    by_cases hb : b ∈ ids
    · rw [if_pos hb, if_pos (mem_of_rankOf_lt hb (hahead ids hids hb))]
      exact (reciprocal_lt (Nat.lt_of_succ_lt_succ (hahead ids hids hb))).le
    · rw [if_neg hb]
      split_ifs
      · exact (reciprocal_pos _).le
      · exact le_refl _
  have hstrict : ∀ ids ∈ [vectorIds, keywordIds], b ∈ ids →
      (if b ∈ ids then hybrid.reciprocal (ids.idxOf b) else 0)
        < if a ∈ ids then hybrid.reciprocal (ids.idxOf a) else 0 := by
    intro ids hids hb
    rw [if_pos hb, if_pos (mem_of_rankOf_lt hb (hahead ids hids hb))]
    exact reciprocal_lt (Nat.lt_of_succ_lt_succ (hahead ids hids hb))
  rcases hb with hb | hb
  · exact add_lt_add_of_lt_of_le (hstrict vectorIds (by simp) hb) (hroute keywordIds (by simp))
  · exact add_lt_add_of_le_of_lt (hroute vectorIds (by simp)) (hstrict keywordIds (by simp) hb)

/-- The fusion by ranks is exact, and follows the two routes where they agree. -/
theorem mergeRrf_fusedByRank (hybrid : HybridRetriever)
    (vectorResults keywordResults : List RetrievalChunk)
    (hvector : (chunkIds vectorResults).Nodup) (hkeyword : (chunkIds keywordResults).Nodup) :
    FusedByRank hybrid.rrfK (chunkIds vectorResults) (chunkIds keywordResults)
      (hybrid.mergeRrf vectorResults keywordResults) := by
  have hscore : ∀ f id, (hybrid.fused vectorResults keywordResults).get? id = some f →
      f.score = hybrid.rrfScore (chunkIds vectorResults) (chunkIds keywordResults) id := by
    intro f id hf
    rw [← scoreIn_fused hvector hkeyword, scoreIn, hf]
    rfl
  refine ⟨nodup_mergeRrf _ _ _, mem_chunkIds_mergeRrf, ?_, ?_, ?_, ?_⟩
  · rintro chunk hchunk
    obtain ⟨f, hf, hchunk⟩ := mem_mergeRrf.mp hchunk
    have : chunk.score = f.score := by rw [← hchunk]; rfl
    rw [this, hscore f _ hf, rrfScore_eq_sum]
  · rw [mergeRrf_eq, List.pairwise_map]
    exact pairwise_ranking _ _
  · rintro chunk hchunk
    obtain ⟨f, hf, hchunk⟩ := mem_mergeRrf.mp hchunk
    rw [← hchunk, retrievalSource_toChunk hf, hchunk]
  · intro a b hb hahead
    have hb' := (mem_chunkIds_mergeRrf b).mp hb
    have ha : a ∈ chunkIds (hybrid.mergeRrf vectorResults keywordResults) := by
      rw [mem_chunkIds_mergeRrf]
      exact hb'.imp (fun h => mem_of_rankOf_lt h (hahead _ (by simp) h))
        (fun h => mem_of_rankOf_lt h (hahead _ (by simp) h))
    have hlt := rrfScore_lt hybrid hb' hahead
    rw [chunkIds_mergeRrf, List.mem_map] at ha hb
    obtain ⟨fa, hfa, rfl⟩ := ha
    obtain ⟨fb, hfb, rfl⟩ := hb
    have hmem : ∀ f ∈ ranking Fused.score (hybrid.fused vectorResults keywordResults).values,
        f.score = hybrid.rrfScore (chunkIds vectorResults) (chunkIds keywordResults)
          f.chunk.chunkId := by
      intro f hf
      rw [mem_ranking, Dict.mem_values_iff keyed_fused] at hf
      exact hscore f _ hf
    rw [← hmem fa hfa, ← hmem fb hfb] at hlt
    have hnodup := nodup_mergeRrf hybrid vectorResults keywordResults
    rw [chunkIds_mergeRrf] at hnodup ⊢
    exact Nat.succ_lt_succ (idxOf_lt_idxOf (pairwise_ranking _ _) hnodup hfa hfb hlt)

/-- Two routes that share a chunk. -/
theorem mergeRrf_shared_fusedByRank :
    FusedByRank 60 ["a", "b"] ["b", "c"] (mergeRrf {} [⟨"a", "", 1, "", "", "", [], ""⟩,
      ⟨"b", "", 1, "", "", "", [], ""⟩] [⟨"b", "", 1, "", "", "", [], ""⟩,
      ⟨"c", "", 1, "", "", "", [], ""⟩]) :=
  mergeRrf_fusedByRank {} [⟨"a", "", 1, "", "", "", [], ""⟩, ⟨"b", "", 1, "", "", "", [], ""⟩]
    [⟨"b", "", 1, "", "", "", [], ""⟩, ⟨"c", "", 1, "", "", "", [], ""⟩] (by decide) (by decide)

end HybridRetriever

end AgentLearning
