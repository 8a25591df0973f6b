import Mathlib.Algebra.BigOperators.Group.List.Basic
import Mathlib.Tactic.Linarith
import AgentLearning.Compressor

/-!
# What a compression keeps and what it counts

Each of the three stages gives a sublist of what it gets and counts the rest under a reason, so the
reasons add up to what is missing at the end. No two results that the first stage lets through are
alike, which holds of a sublist too. The tokens kept are at most the budget, which is what the
other categories and the margin leave.
-/

namespace AgentLearning

/-! ## The manager -/

namespace ContextBudgetManager

variable {manager : ContextBudgetManager} {category : String} {tokens : ℤ}

/-- All that is recorded, whatever the category. -/
def totalUsed (manager : ContextBudgetManager) : ℤ := manager.usage.values.sum

theorem totalUsed_eq :
    manager.totalUsed = manager.usedByOthers + manager.used "retrieval_context" := by
  obtain ⟨maxTotal, allocation, ⟨entries, hnodup⟩, hkeys⟩ := manager
  simp only [Dict.keys, usageCategories] at hkeys
  obtain ⟨a, l, rfl, ha, hl⟩ := List.map_eq_cons_iff.mp hkeys
  obtain ⟨b, l, rfl, hb, hl⟩ := List.map_eq_cons_iff.mp hl
  obtain ⟨c, l, rfl, hc, hl⟩ := List.map_eq_cons_iff.mp hl
  obtain ⟨d, l, rfl, hd, hl⟩ := List.map_eq_cons_iff.mp hl
  obtain rfl := List.map_eq_nil_iff.mp hl
  simp [totalUsed, usedByOthers, used, Dict.values, Dict.get?, getEntry, ha, hb, hc, hd]
  omega

theorem used_recordUsage (h : category ∈ usageCategories) (other : String) :
    (manager.recordUsage category tokens).used other
      = if category = other then tokens else manager.used other := by
  rw [recordUsage, dif_pos (by rwa [manager.keys_usage])]
  simp only [used, Dict.get?_set]
  split_ifs <;> rfl

theorem totalUsed_recordUsage :
    (manager.recordUsage "retrieval_context" tokens).totalUsed = manager.usedByOthers + tokens := by
  have hmem : "retrieval_context" ∈ usageCategories := by decide
  simp only [totalUsed_eq, usedByOthers, used_recordUsage hmem, if_true]
  simp

end ContextBudgetManager

/-! ## Reasons and stages -/

/-- How many results were left out for some reason. -/
def countAll (reasons : Dict String ℕ) : ℕ := reasons.values.sum

theorem countAll_countReason (reasons : Dict String ℕ) (reason : String) :
    countAll (countReason reasons reason) = countAll reasons + 1 := by
  have h : ∀ l : List (String × ℕ), ∀ n, ((setEntry reason n l).map Prod.snd).sum
      + (getEntry reason l).getD 0 = (l.map Prod.snd).sum + n := by
    intro l n
    induction l with
    | nil => simp [setEntry, getEntry]
    | cons e l ih =>
      obtain ⟨k, m⟩ := e
      unfold setEntry getEntry
      by_cases hk : k = reason
      · simp only [if_pos hk, List.map_cons, List.sum_cons, Option.getD_some]
        omega
      · simp only [if_neg hk, List.map_cons, List.sum_cons]
        omega
  have hset := h reasons.entries ((reasons.get? reason).getD 0 + 1)
  have hget : (getEntry reason reasons.entries).getD 0 = (reasons.get? reason).getD 0 := rfl
  have hvalues : countAll (countReason reasons reason)
      = ((setEntry reason ((reasons.get? reason).getD 0 + 1) reasons.entries).map Prod.snd).sum :=
    rfl
  have hall : countAll reasons = (reasons.entries.map Prod.snd).sum := rfl
  omega

/-- A stage lets some of its results through, in their order, and counts the others. -/
def Stage (input output : List RerankResult) (before after : ℕ) : Prop :=
  output.Sublist input ∧ after + output.length = before + input.length

theorem Stage.trans {l₁ l₂ l₃ : List RerankResult} {n₁ n₂ n₃ : ℕ} (h : Stage l₁ l₂ n₁ n₂)
    (h' : Stage l₂ l₃ n₂ n₃) : Stage l₁ l₃ n₁ n₃ := by
  obtain ⟨hsub, hcount⟩ := h
  obtain ⟨hsub', hcount'⟩ := h'
  exact ⟨hsub'.trans hsub, by omega⟩

theorem Stage.keep {input output : List RerankResult} {before after : ℕ} (result : RerankResult)
    (h : Stage input output before after) :
    Stage (input ++ [result]) (output ++ [result]) before after := by
  obtain ⟨hsub, hcount⟩ := h
  refine ⟨hsub.append (List.Sublist.refl _), ?_⟩
  simp only [List.length_append, List.length_singleton]
  omega

theorem Stage.leaveOut {input output : List RerankResult} {before after : ℕ}
    (result : RerankResult) (h : Stage input output before after) :
    Stage (input ++ [result]) output before (after + 1) := by
  obtain ⟨hsub, hcount⟩ := h
  refine ⟨hsub.trans (List.sublist_append_left _ _), ?_⟩
  simp only [List.length_append, List.length_singleton]
  omega

/-! ## The first stage -/

/-- How alike two sets are. -/
def jaccard (tokens existing : Finset String) : ℚ :=
  if 0 < (tokens ∪ existing).card then (tokens ∩ existing).card / (tokens ∪ existing).card else 0

theorem jaccard_comm (tokens existing : Finset String) :
    jaccard tokens existing = jaccard existing tokens := by
  rw [jaccard, jaccard, Finset.union_comm, Finset.inter_comm]

/-- Neither the same content, but for the space around it, nor too many of the same words. -/
def Unlike (f : TextFunctions) (threshold : ℚ) (content content' : String) : Prop :=
  f.strip content ≠ f.strip content'
    ∧ jaccard (f.tokenSet (f.strip content)) (f.tokenSet (f.strip content')) < threshold

theorem Unlike.symm {f : TextFunctions} {threshold : ℚ} {content content' : String}
    (h : Unlike f threshold content content') : Unlike f threshold content' content :=
  ⟨h.1.symm, by rw [jaccard_comm]; exact h.2⟩

namespace Compressor

variable {f : TextFunctions} {compressor : Compressor}

theorem isNearDup_eq_false_iff (h : 0 < compressor.dedupThreshold)
    (tokens existing : Finset String) :
    compressor.isNearDup tokens existing = false
      ↔ jaccard tokens existing < compressor.dedupThreshold := by
  unfold isNearDup jaccard
  split_ifs with hunion
  · simp [hunion]
  · simp [hunion, h]

/-- What the loop knows of the results so far. -/
structure Deduplicated (f : TextFunctions) (threshold : ℚ) (results : List RerankResult)
    (state : Deduplication) : Prop where
  stage : Stage results state.deduped 0 state.dupCount
  hashes : state.seenHashes = state.deduped.map fun result => f.md5 (f.strip result.chunk.content)
  tokenSets : state.seenTokenSets
    = state.deduped.map fun result => f.tokenSet (f.strip result.chunk.content)
  unlike : 0 < threshold →
    state.deduped.Pairwise fun a b => Unlike f threshold a.chunk.content b.chunk.content

theorem Deduplicated.step {results : List RerankResult} {state : Deduplication}
    (h : Deduplicated f compressor.dedupThreshold results state) (result : RerankResult) :
    Deduplicated f compressor.dedupThreshold (results ++ [result])
      (compressor.deduplicateStep f state result) := by
  unfold deduplicateStep
  dsimp only
  split_ifs with hhash hnear
  · exact ⟨h.stage.leaveOut result, h.hashes, h.tokenSets, h.unlike⟩
  · exact ⟨h.stage.leaveOut result, h.hashes, h.tokenSets, h.unlike⟩
  · refine ⟨h.stage.keep result, by simp [h.hashes], by simp [h.tokenSets], fun hthreshold => ?_⟩
    rw [List.pairwise_append]
    refine ⟨h.unlike hthreshold, List.pairwise_singleton _ _, fun a ha b hb => ?_⟩
    obtain rfl := List.mem_singleton.mp hb
    rw [Bool.not_eq_true, List.any_eq_false] at hnear
    refine Unlike.symm ⟨fun heq => hhash ?_, ?_⟩
    · rw [h.hashes, heq]
      exact List.mem_map.mpr ⟨a, ha, rfl⟩
    · rw [← isNearDup_eq_false_iff hthreshold, ← Bool.not_eq_true]
      refine hnear _ ?_
      rw [h.tokenSets]
      exact List.mem_map.mpr ⟨a, ha, rfl⟩

theorem deduplicated (f : TextFunctions) (compressor : Compressor) (results : List RerankResult) :
    Deduplicated f compressor.dedupThreshold results
      (results.foldl (compressor.deduplicateStep f) {}) := by
  induction results using List.reverseRecOn with
  | nil => exact ⟨⟨List.Sublist.refl _, rfl⟩, rfl, rfl, fun _ => List.Pairwise.nil⟩
  | append_singleton results result ih =>
    rw [List.foldl_append, List.foldl_cons, List.foldl_nil]
    exact ih.step result

/-! ## The other stages -/

theorem stage_filter (f : TextFunctions) (compressor : Compressor) (results : List RerankResult)
    (reasons : Dict String ℕ) :
    Stage results (results.foldl (compressor.filterStep f) ([], reasons)).1 (countAll reasons)
      (countAll (results.foldl (compressor.filterStep f) ([], reasons)).2) := by
  induction results using List.reverseRecOn with
  | nil => exact ⟨List.Sublist.refl _, rfl⟩
  | append_singleton results result ih =>
    rw [List.foldl_append, List.foldl_cons, List.foldl_nil]
    unfold filterStep
    rcases compressor.checkLowValue f result.chunk.content with _ | reason
    · exact ih.keep result
    · rw [countAll_countReason]
      exact ih.leaveOut result

/-- What the loop over the budget keeps: results whose tokens are within it. -/
theorem stage_select (f : TextFunctions) (budget : ℤ) (results : List RerankResult)
    (reasons : Dict String ℕ) : ∃ kept : List RerankResult,
      Stage results kept (countAll reasons) (countAll
        (results.foldl (selectStep f budget) { droppedReasons := reasons }).droppedReasons)
      ∧ (results.foldl (selectStep f budget) { droppedReasons := reasons }).selected
        = kept.map (compressed f)
      ∧ (results.foldl (selectStep f budget) { droppedReasons := reasons }).usedTokens
        = (kept.map fun result => estimateTokens f result.chunk.content).sum
      ∧ (results.foldl (selectStep f budget) { droppedReasons := reasons }).usedTokens
        ≤ max 0 budget := by
  induction results using List.reverseRecOn with
  | nil => exact ⟨[], ⟨List.Sublist.refl _, rfl⟩, rfl, rfl, le_max_left _ _⟩
  | append_singleton results result ih =>
    obtain ⟨kept, hstage, hselected, htokens, hwithin⟩ := ih
    rw [List.foldl_append, List.foldl_cons, List.foldl_nil]
    generalize results.foldl (selectStep f budget) { droppedReasons := reasons } = state at *
    unfold selectStep
    dsimp only
    split_ifs with hover
    · refine ⟨kept, ?_, hselected, htokens, hwithin⟩
      rw [countAll_countReason]
      exact hstage.leaveOut result
    · refine ⟨kept ++ [result], hstage.keep result, ?_, ?_, ?_⟩
      · rw [hselected, List.map_append]
        rfl
      · rw [htokens, List.map_append, List.sum_append]
        simp
      · exact (not_lt.mp hover).trans (le_max_right _ _)

/-! ## The call -/

section Call

variable {results : List RerankResult} {budgetOverride : Option ℤ} {start stop : ℚ}

/-- The reasons after the deduplication. -/
def duplicateReasons (dupCount : ℕ) : Dict String ℕ :=
  if 0 < dupCount then (∅ : Dict String ℕ).set "duplicate" dupCount else ∅

theorem countAll_duplicateReasons (dupCount : ℕ) :
    countAll (duplicateReasons dupCount) = dupCount := by
  unfold duplicateReasons
  split_ifs with h
  · simp [countAll, Dict.values, Dict.set, setEntry]
  · have hzero : dupCount = 0 := by omega
    rw [hzero]
    rfl

/-- What all three stages leave. -/
def selection (f : TextFunctions) (compressor : Compressor) (results : List RerankResult)
    (budgetOverride : Option ℤ) : Selection :=
  let deduped := compressor.deduplicate f results
  let filtered := deduped.1.foldl (compressor.filterStep f) ([], duplicateReasons deduped.2)
  filtered.1.foldl (selectStep f (compressor.budget budgetOverride))
    { droppedReasons := filtered.2 }

theorem compress_eq : compressor.compress f results budgetOverride start stop =
    let selection := compressor.selection f results budgetOverride
    ({ chunks := selection.selected
       totalTokens := selection.usedTokens
       budgetLimit := compressor.budget budgetOverride
       droppedCount := results.length - selection.selected.length
       droppedReasons := selection.droppedReasons
       latencyMs := (stop - start) * 1000 },
      { compressor with
        budgetManager :=
          compressor.budgetManager.recordUsage "retrieval_context" selection.usedTokens }) := rfl

variable (f compressor results budgetOverride) in
theorem exists_kept : ∃ kept : List RerankResult,
    Stage results kept 0 (countAll (compressor.selection f results budgetOverride).droppedReasons)
      ∧ (compressor.selection f results budgetOverride).selected = kept.map (compressed f)
      ∧ (compressor.selection f results budgetOverride).usedTokens
        = (kept.map fun result => estimateTokens f result.chunk.content).sum
      ∧ (compressor.selection f results budgetOverride).usedTokens
        ≤ max 0 (compressor.budget budgetOverride)
      ∧ (0 < compressor.dedupThreshold → kept.Pairwise fun a b =>
        Unlike f compressor.dedupThreshold a.chunk.content b.chunk.content) := by
  have hdedup := deduplicated f compressor results
  have hfilter := stage_filter f compressor (compressor.deduplicate f results).1
    (duplicateReasons (compressor.deduplicate f results).2)
  rw [countAll_duplicateReasons] at hfilter
  obtain ⟨kept, hstage, hselected, htokens, hwithin⟩ :=
    stage_select f (compressor.budget budgetOverride) _ _
  refine ⟨kept, hdedup.stage.trans (hfilter.trans hstage), hselected, htokens, hwithin,
    fun hthreshold => ?_⟩
  exact (hdedup.unlike hthreshold).sublist (hstage.1.trans hfilter.1)

end Call

/-- What a compression owes for the results it is given, and leaves to the next one. -/
structure Accounted (f : TextFunctions) (before : Compressor) (results : List RerankResult)
    (output : CompressionResult) (after : Compressor) : Prop where
  sublist : ∃ kept : List RerankResult, kept.Sublist results
    ∧ output.chunks = kept.map (compressed f)
  total : output.totalTokens = (output.chunks.map (·.tokenCount)).sum
  within : output.totalTokens ≤ max 0 output.budgetLimit
  dropped : output.droppedCount = results.length - output.chunks.length
  reasons : output.droppedCount = output.droppedReasons.values.sum
  unlike : output.chunks.Pairwise fun a b => Unlike f before.dedupThreshold a.content b.content
  budget :
    before.budgetManager.usedByOthers + before.budgetManager.allocation.safetyMargin
        ≤ before.budgetManager.maxTotalTokens →
      after.budgetManager.totalUsed + after.budgetManager.allocation.safetyMargin
        ≤ after.budgetManager.maxTotalTokens

/-- With no budget of its own a call accounts for every result. -/
theorem compress_accounted (f : TextFunctions) (compressor : Compressor)
    (results : List RerankResult) (start stop : ℚ) (hthreshold : 0 < compressor.dedupThreshold) :
    Accounted f compressor results (compressor.compress f results none start stop).1
      (compressor.compress f results none start stop).2 := by
  obtain ⟨kept, hstage, hselected, htokens, hwithin, hunlike⟩ :=
    exists_kept f compressor results none
  rw [compress_eq]
  refine ⟨⟨kept, hstage.1, hselected⟩, ?_, hwithin, rfl, ?_, ?_, fun hbefore => ?_⟩
  · simp only [hselected, htokens, List.map_map]
    rfl
  · have hcount := hstage.2
    simp only [hselected, List.length_map]
    have hsum : (compressor.selection f results none).droppedReasons.values.sum
        = countAll (compressor.selection f results none).droppedReasons := rfl
    omega
  · simp only [hselected, List.pairwise_map]
    exact hunlike hthreshold
  · have hbudget : (compressor.selection f results none).usedTokens
        ≤ compressor.budgetManager.maxTotalTokens - compressor.budgetManager.usedByOthers
          - compressor.budgetManager.allocation.safetyMargin := by
      refine hwithin.trans (max_le (by omega) ?_)
      exact min_le_left _ _
    rw [ContextBudgetManager.totalUsed_recordUsage]
    have hlimits : ∀ tokens, (compressor.budgetManager.recordUsage "retrieval_context"
        tokens).allocation = compressor.budgetManager.allocation
        ∧ (compressor.budgetManager.recordUsage "retrieval_context" tokens).maxTotalTokens
          = compressor.budgetManager.maxTotalTokens := by
      intro tokens
      unfold ContextBudgetManager.recordUsage
      split_ifs <;> exact ⟨rfl, rfl⟩
    rw [(hlimits _).1, (hlimits _).2]
    omega

/-- A result with this content and the score of a half. -/
def policyResult (chunkId content : String) (rank : ℕ) : RerankResult where
  chunk := ⟨chunkId, content, 1 / 2, "s", "doc", "public", [], "vector"⟩
  rerankScore := ⟨1 / 2, 1 / 2, 1 / 2, 1 / 2, ""⟩
  originalRank := rank
  newRank := rank

/-- The second result has eight of the ten words of the first and the second. -/
def policyResults : List RerankResult :=
  [policyResult "a" "refunds are paid within thirty days of the purchase" 1,
   policyResult "b" "refunds are paid within thirty days of the order" 2,
   policyResult "c" "merchants upload a business licence first" 3,
   policyResult "d" "see above" 4]

/-- What the functions are on these contents and the score of a half. -/
def onPolicies : TextFunctions where
  isSpace c := c = ' '
  isAlnum := Char.isAlphanum
  lower := id
  md5 content :=
    if content = "refunds are paid within thirty days of the purchase" then
      "84846a6a9bd4b56cbcb2db7509da8a40"
    else if content = "refunds are paid within thirty days of the order" then
      "24399de08240571110589da738843546"
    else if content = "merchants upload a business licence first" then
      "a8097b269e1ef0f692d7a393dd852dba"
    else "5970628fa752b70e20a1ec64440335c9"
  format3f _ := "0.500"

/-- With a part of the budget used by the system prompt, and a lower threshold. -/
def busy (compressor : Compressor) : Compressor :=
  { compressor with
    budgetManager := compressor.budgetManager.recordUsage "system_prompt" 300
    dedupThreshold := 3 / 4 }

/-- The first and the third result are kept, and the other two have a reason. -/
theorem compress_accounted_policies :
    (((busy {}).compress onPolicies policyResults none 0 1).1.chunks.map (·.chunkId) = ["a", "c"]
      ∧ ((busy {}).compress onPolicies policyResults none 0 1).1.droppedReasons.entries
        = [("duplicate", 1), ("too_short", 1)])
    ∧ Accounted onPolicies (busy {}) policyResults
      ((busy {}).compress onPolicies policyResults none 0 1).1
      ((busy {}).compress onPolicies policyResults none 0 1).2 :=
  ⟨by decide +kernel, compress_accounted onPolicies (busy {}) policyResults 0 1
    (by norm_num [busy])⟩

/-- A budget that is given binds the call, unless it is zero and the manager's is not. -/
theorem compress_override_iff (f : TextFunctions) (compressor : Compressor)
    (results : List RerankResult) (n : ℕ) (start stop : ℚ) :
    ((compressor.compress f results (some n) start stop).1.totalTokens ≤ n
        ∧ (compressor.compress f results (some n) start stop).1.budgetLimit = n)
      ↔ n ≠ 0 ∨ compressor.budgetManager.getRetrievalBudget = 0 := by
  obtain ⟨-, -, -, -, hwithin, -⟩ := exists_kept f compressor results (some n)
  have hlimit : compressor.budget (some n)
      = if n = 0 then compressor.budgetManager.getRetrievalBudget else n := by
    simp [budget]
  rw [compress_eq]
  dsimp only
  rw [hlimit] at hwithin ⊢
  split_ifs at hwithin ⊢ with hzero
  · rw [hzero] at hwithin ⊢
    refine ⟨fun h => .inr h.2, fun h => ?_⟩
    rcases h with h | h
    · exact absurd rfl h
    · rw [h] at hwithin
      exact ⟨hwithin, h⟩
  · refine ⟨fun _ => .inl hzero, fun _ => ⟨?_, rfl⟩⟩
    exact hwithin.trans (max_le (Nat.cast_nonneg n) (Int.le_refl _))

/-- What the functions are on the content `forty two` and the score of a half. -/
def onFortyTwo : TextFunctions where
  isSpace c := c = ' '
  isAlnum := Char.isAlphanum
  lower := id
  md5 _ := "1fd37eafabb0f1ac14eaa377d0b5f2bc"
  format3f _ := "0.500"

def fortyTwo : RerankResult where
  chunk := ⟨"c", "forty two", 1 / 2, "s", "doc", "public", [], "vector"⟩
  rerankScore := ⟨1 / 2, 1 / 2, 1 / 2, 1 / 2, ""⟩
  originalRank := 1
  newRank := 1

/-- No budget at all. -/
theorem compress_override_zero : ¬ ∀ (f : TextFunctions) (compressor : Compressor)
    (results : List RerankResult) (n : ℕ) (start stop : ℚ),
      (compressor.compress f results (some n) start stop).1.totalTokens ≤ n
        ∧ (compressor.compress f results (some n) start stop).1.budgetLimit = n := by
  intro h
  exact absurd (h onFortyTwo { minContentLength := 0 } [fortyTwo] 0 0 1).1 (by decide +kernel)

end Compressor

end AgentLearning
