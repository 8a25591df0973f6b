import Mathlib.Algebra.BigOperators.Ring.List
import Mathlib.Tactic.FieldSimp
import AgentLearning.Lib.Ranking
import AgentLearning.Proofs.NearestRank

/-!
# Group metrics and totals

A grouping puts each result into one group, so what is summed over the groups is summed over the
results: the counts of the groups add up to the number of results, and the means of the groups,
weighted by these counts, to the overall mean. None of it depends on the order of the results.
-/

namespace AgentLearning.Evaluation

variable {caseResults caseResults' : List EvalCaseResult}

/-! ## Sums over the groups -/

section Groups

variable (field : EvalCaseResult → String) (f : EvalCaseResult → ℚ)

/-- The mean over the groups, each with the weight of its count. -/
def weightedMean (groups : Dict String GroupMetrics) (metric : GroupMetrics → ℚ) : ℚ :=
  (groups.values.map fun group => group.count * metric group).sum
    / (groups.values.map (·.count)).sum

theorem length_mul_meanOf (hne : caseResults ≠ []) :
    (caseResults.length : ℚ) * meanOf caseResults f = (caseResults.map f).sum := by
  have hlength : (caseResults.length : ℚ) ≠ 0 := by
    exact_mod_cast (List.length_pos_iff.mpr hne).ne'
  unfold meanOf
  field_simp

theorem shareOf_eq_meanOf (p : EvalCaseResult → Bool) :
    shareOf caseResults p = meanOf caseResults fun result => if p result then 1 else 0 := by
  have hcount : (caseResults.countP p : ℚ)
      = (caseResults.map fun result => if p result then (1 : ℚ) else 0).sum := by
    induction caseResults with
    | nil => rfl
    | cons result caseResults ih =>
      rw [List.countP_cons, List.map_cons, List.sum_cons, ← ih]
      split_ifs <;> simp [add_comm]
  rw [shareOf, meanOf, hcount]

theorem values_groupMetrics : (groupMetrics caseResults field).values
    = (Dict.groupBy field caseResults).values.map groupMetricsOf := by
  simp [groupMetrics, Dict.values, Dict.mapValues, List.map_map, Function.comp_def]

theorem sum_count_groupMetrics :
    ((groupMetrics caseResults field).values.map (·.count)).sum = caseResults.length := by
  have h := Dict.sum_groupBy field (fun _ => (1 : ℚ)) caseResults
  simpa [values_groupMetrics, List.map_map, Function.comp_def, groupMetricsOf] using h

/-- A metric that is a mean in each group adds up to the sum over all results. -/
theorem sum_weighted_groupMetrics {metric : GroupMetrics → ℚ}
    (hmetric : ∀ group, metric (groupMetricsOf group) = meanOf group f) :
    ((groupMetrics caseResults field).values.map fun group => group.count * metric group).sum
      = (caseResults.map f).sum := by
  rw [← Dict.sum_groupBy field f caseResults, values_groupMetrics, List.map_map]
  refine congrArg List.sum (List.map_congr_left fun group hgroup => ?_)
  have hne := Dict.ne_nil_of_mem_values_groupBy field hgroup
  rw [Function.comp_apply, hmetric, ← length_mul_meanOf f hne]
  rfl

theorem weightedMean_groupMetrics {metric : GroupMetrics → ℚ}
    (hmetric : ∀ group, metric (groupMetricsOf group) = meanOf group f) :
    weightedMean (groupMetrics caseResults field) metric = meanOf caseResults f := by
  rw [weightedMean, sum_weighted_groupMetrics field f hmetric, sum_count_groupMetrics, meanOf]

/-- The groups agree with what the summary says about all samples. -/
structure GroupsConsistent (summary : EvalSummary) (groups : Dict String GroupMetrics) :
    Prop where
  count : (groups.values.map (·.count)).sum = summary.totalSamples
  e2eSuccessRate : weightedMean groups (·.e2eSuccessRate) = summary.e2eSuccessRate
  avgAnswerF1 : weightedMean groups (·.avgAnswerF1) = summary.avgAnswerF1
  avgRecallAt5 : weightedMean groups (·.avgRecallAt5) = summary.avgRecallAt5
  avgMrr : weightedMean groups (·.avgMrr) = summary.avgMrr
  avgLatencyMs : weightedMean groups (·.avgLatencyMs) = summary.avgLatencyMs

end Groups

/-- Each failed result is in one bucket. -/
theorem sum_buildFailureBuckets (hne : caseResults ≠ []) :
    ((buildFailureBuckets caseResults).values.sum : ℚ)
      = caseResults.length * (1 - shareOf caseResults (·.success)) := by
  have hlength : (caseResults.length : ℚ) ≠ 0 := by
    exact_mod_cast (List.length_pos_iff.mpr hne).ne'
  have hsplit := List.length_eq_countP_add_countP (·.success) (l := caseResults)
  have hfailed : (buildFailureBuckets caseResults).values.sum
      = caseResults.countP fun result => ¬ result.success := by
    rw [buildFailureBuckets, Dict.sum_countBy, List.countP_eq_length_filter]
    simp
  rw [hfailed, shareOf, mul_sub, mul_one, mul_div_cancel₀ _ hlength, eq_sub_iff_add_eq']
  exact_mod_cast hsplit.symm

/-! ## The order of the results -/

section Perm

variable (h : caseResults.Perm caseResults')
include h

theorem meanOf_perm (f : EvalCaseResult → ℚ) : meanOf caseResults f = meanOf caseResults' f := by
  rw [meanOf, meanOf, (h.map f).sum_eq, h.length_eq]

theorem shareOf_perm (p : EvalCaseResult → Bool) :
    shareOf caseResults p = shareOf caseResults' p := by
  rw [shareOf, shareOf, h.countP_eq, h.length_eq]

theorem groupMetricsOf_perm : groupMetricsOf caseResults = groupMetricsOf caseResults' := by
  unfold groupMetricsOf
  simp only [h.length_eq, meanOf_perm h, shareOf_perm h]

theorem get?_groupMetrics_perm (field : EvalCaseResult → String) (k : String) :
    (groupMetrics caseResults field).get? k = (groupMetrics caseResults' field).get? k := by
  rw [groupMetrics, groupMetrics, Dict.get?_mapValues, Dict.get?_mapValues, Dict.get?_groupBy,
    Dict.get?_groupBy, if_congr (h.map field).mem_iff rfl rfl]
  split_ifs
  · exact congrArg some (groupMetricsOf_perm (h.filter _))
  · rfl

theorem get?_buildFailureBuckets_perm (k : CaseError) :
    (buildFailureBuckets caseResults).get? k = (buildFailureBuckets caseResults').get? k :=
  Dict.get?_foldBy_perm _ _ _ (fun _ _ _ _ => rfl) (h.filter _) k

theorem attempts_perm : (attempts caseResults).Perm (attempts caseResults') :=
  h.flatMap_right _

theorem aggregateStepSuccess_perm :
    aggregateStepSuccess caseResults = aggregateStepSuccess caseResults' := by
  have hattempts (k) : (Dict.countBy Prod.fst (attempts caseResults)).get? k
      = (Dict.countBy Prod.fst (attempts caseResults')).get? k :=
    Dict.get?_foldBy_perm _ _ _ (fun _ _ _ _ => rfl) (attempts_perm h) k
  have hsuccess (k) : (Dict.countBy Prod.fst ((attempts caseResults).filter Prod.snd)).get? k
      = (Dict.countBy Prod.fst ((attempts caseResults').filter Prod.snd)).get? k :=
    Dict.get?_foldBy_perm _ _ _ (fun _ _ _ _ => rfl) ((attempts_perm h).filter _) k
  -- sorting forgets the order in which the steps were first attempted
  have hsort : (Dict.countBy Prod.fst (attempts caseResults)).entries.insertionSort
        (fun a b => toLex a ≤ toLex b)
      = (Dict.countBy Prod.fst (attempts caseResults')).entries.insertionSort
        (fun a b => toLex a ≤ toLex b) :=
    insertionSort_eq_of_perm (fun a _ b _ hab hba => toLex.injective (le_antisymm hab hba))
      (Dict.entries_perm hattempts)
  unfold aggregateStepSuccess
  simp only [hsort, hsuccess]

end Perm

/-- The summaries agree in the figures, and in the dictionaries up to the order of the keys. -/
structure SameSummary (summary summary' : EvalSummary) : Prop where
  totalSamples : summary.totalSamples = summary'.totalSamples
  e2eSuccessRate : summary.e2eSuccessRate = summary'.e2eSuccessRate
  avgAnswerF1 : summary.avgAnswerF1 = summary'.avgAnswerF1
  avgRecallAt5 : summary.avgRecallAt5 = summary'.avgRecallAt5
  avgMrr : summary.avgMrr = summary'.avgMrr
  avgLatencyMs : summary.avgLatencyMs = summary'.avgLatencyMs
  p95LatencyMs : summary.p95LatencyMs = summary'.p95LatencyMs
  accuracy : summary.accuracy = summary'.accuracy
  stepSuccessRates : summary.stepSuccessRates = summary'.stepSuccessRates
  failureBuckets (k : CaseError) : summary.failureBuckets.get? k = summary'.failureBuckets.get? k
  byCategory (k : String) : summary.byCategory.get? k = summary'.byCategory.get? k
  byDifficulty (k : String) : summary.byDifficulty.get? k = summary'.byDifficulty.get? k

/-! ## The summary -/

variable {pstdev : List ℚ → ℚ} {datasetName : String} {summary summary' : EvalSummary}

/-- What a summary says: each figure is the one over the whole list. -/
theorem aggregateResults_spec (hne : caseResults ≠ [])
    (hsum : aggregateResults caseResults pstdev datasetName = .ok summary) :
    computePercentile (caseResults.map (·.latencyMs)) (19 / 20) = .ok summary.p95LatencyMs
      ∧ summary.totalSamples = caseResults.length
      ∧ summary.e2eSuccessRate = shareOf caseResults (·.success)
      ∧ summary.avgAnswerF1 = meanOf caseResults (·.answerF1)
      ∧ summary.avgRecallAt5 = meanOf caseResults (·.recallAt5)
      ∧ summary.avgMrr = meanOf caseResults (·.mrr)
      ∧ summary.avgLatencyMs = meanOf caseResults (·.latencyMs)
      ∧ summary.accuracy = shareOf caseResults isAccurate
      ∧ summary.stepSuccessRates = aggregateStepSuccess caseResults
      ∧ summary.failureBuckets = buildFailureBuckets caseResults
      ∧ summary.byCategory = groupMetrics caseResults (·.category)
      ∧ summary.byDifficulty = groupMetrics caseResults (·.difficulty) := by
  have hlength : ¬ caseResults.length = 0 := (List.length_pos_iff.mpr hne).ne'
  unfold aggregateResults at hsum
  rcases hp : computePercentile (caseResults.map (·.latencyMs)) (19 / 20) with e | p95LatencyMs
  · simp [hlength, hp, bind, Except.bind] at hsum
  · simp only [hlength, hp, bind, Except.bind, pure, Except.pure, if_false, Except.ok.injEq] at hsum
    subst hsum
    exact ⟨rfl, rfl, rfl, rfl, rfl, rfl, rfl, rfl, rfl, rfl, rfl, rfl⟩

theorem exists_aggregateResults (pstdev : List ℚ → ℚ) (datasetName : String)
    (hne : caseResults ≠ []) :
    ∃ summary, aggregateResults caseResults pstdev datasetName = .ok summary := by
  have hlength : ¬ caseResults.length = 0 := (List.length_pos_iff.mpr hne).ne'
  have hlatencies : caseResults.map (·.latencyMs) ≠ [] := by simpa using hne
  obtain ⟨p95LatencyMs, hp⟩ := exists_computePercentile (p := 19 / 20) hlatencies (by norm_num)
  unfold aggregateResults
  simp [hlength, hp, bind, Except.bind, pure, Except.pure]

/-- The groups that the field makes: as many results as the list has with the value, and no group
for a value that it does not have. -/
def CountedBy (field : EvalCaseResult → String) (caseResults : List EvalCaseResult)
    (groups : Dict String GroupMetrics) : Prop :=
  ∀ k, (groups.get? k).map (·.count) = if k ∈ caseResults.map field then
    some (caseResults.countP fun result => field result = k : ℚ) else none

theorem countedBy_groupMetrics (field : EvalCaseResult → String) :
    CountedBy field caseResults (groupMetrics caseResults field) := by
  intro k
  rw [groupMetrics, Dict.get?_mapValues, Dict.get?_groupBy]
  split_ifs
  · simp [groupMetricsOf, List.countP_eq_length_filter]
  · rfl

/-- The summary is one of these results: it has their figures, a group for each category and each
difficulty of them, and a bucket for each error of those that failed. -/
structure SummaryOf (caseResults : List EvalCaseResult) (summary : EvalSummary) : Prop where
  totalSamples : summary.totalSamples = caseResults.length
  e2eSuccessRate : summary.e2eSuccessRate = shareOf caseResults (·.success)
  avgAnswerF1 : summary.avgAnswerF1 = meanOf caseResults (·.answerF1)
  avgRecallAt5 : summary.avgRecallAt5 = meanOf caseResults (·.recallAt5)
  avgMrr : summary.avgMrr = meanOf caseResults (·.mrr)
  avgLatencyMs : summary.avgLatencyMs = meanOf caseResults (·.latencyMs)
  byCategory : CountedBy (·.category) caseResults summary.byCategory
  byDifficulty : CountedBy (·.difficulty) caseResults summary.byDifficulty
  failureBuckets (k : CaseError) : (summary.failureBuckets.get? k).getD 0
    = caseResults.countP fun result => !result.success && bucketName result = k

theorem summaryOf_aggregateResults (hne : caseResults ≠ [])
    (hsum : aggregateResults caseResults pstdev datasetName = .ok summary) :
    SummaryOf caseResults summary := by
  obtain ⟨-, htotal, he2e, hf1, hrecall, hmrr, hlatency, -, -, hbuckets, hcategory, hdifficulty⟩ :=
    aggregateResults_spec hne hsum
  refine ⟨htotal, he2e, hf1, hrecall, hmrr, hlatency, ?_, ?_, fun k => ?_⟩
  · rw [hcategory]
    exact countedBy_groupMetrics _
  · rw [hdifficulty]
    exact countedBy_groupMetrics _
  · rw [hbuckets, buildFailureBuckets, Dict.get?_countBy, List.countP_filter]
    have hcount : (caseResults.countP fun result => bucketName result = k && !result.success)
        = caseResults.countP fun result => !result.success && bucketName result = k :=
      List.countP_congr fun result _ => by rw [Bool.and_comm]
    rw [hcount]
    split_ifs with hk
    · rfl
    · rw [Option.getD_none, eq_comm, List.countP_eq_zero]
      intro result hresult hfailed
      rw [Bool.and_eq_true, decide_eq_true_eq] at hfailed
      exact hk (List.mem_map.mpr ⟨result, List.mem_filter.mpr ⟨hresult, hfailed.1⟩, hfailed.2⟩)

theorem groupsConsistent (hne : caseResults ≠ []) (field : EvalCaseResult → String)
    (hsum : aggregateResults caseResults pstdev datasetName = .ok summary) :
    GroupsConsistent summary (groupMetrics caseResults field) := by
  obtain ⟨-, htotal, he2e, hf1, hrecall, hmrr, hlatency, -⟩ := aggregateResults_spec hne hsum
  refine ⟨?_, ?_, ?_, ?_, ?_, ?_⟩
  · rw [sum_count_groupMetrics, htotal]
  · rw [he2e, shareOf_eq_meanOf]
    exact weightedMean_groupMetrics field _ fun group => shareOf_eq_meanOf _
  · rw [hf1]
    exact weightedMean_groupMetrics field _ fun _ => rfl
  · rw [hrecall]
    exact weightedMean_groupMetrics field _ fun _ => rfl
  · rw [hmrr]
    exact weightedMean_groupMetrics field _ fun _ => rfl
  · rw [hlatency]
    exact weightedMean_groupMetrics field _ fun _ => rfl

theorem sameSummary_of_perm (hne : caseResults ≠ []) (h : caseResults.Perm caseResults')
    (hsum : aggregateResults caseResults pstdev datasetName = .ok summary)
    (hsum' : aggregateResults caseResults' pstdev datasetName = .ok summary') :
    SameSummary summary summary' := by
  have hne' : caseResults' ≠ [] := by
    rintro rfl
    exact hne h.eq_nil
  obtain ⟨hp95, htotal, he2e, hf1, hrecall, hmrr, hlatency, haccuracy, hsteps, hbuckets, hcategory,
    hdifficulty⟩ := aggregateResults_spec hne hsum
  obtain ⟨hp95', htotal', he2e', hf1', hrecall', hmrr', hlatency', haccuracy', hsteps', hbuckets',
    hcategory', hdifficulty'⟩ := aggregateResults_spec hne' hsum'
  refine ⟨?_, ?_, ?_, ?_, ?_, ?_, ?_, ?_, ?_, fun k => ?_, fun k => ?_, fun k => ?_⟩
  · rw [htotal, htotal', h.length_eq]
  · rw [he2e, he2e', shareOf_perm h]
  · rw [hf1, hf1', meanOf_perm h]
  · rw [hrecall, hrecall', meanOf_perm h]
  · rw [hmrr, hmrr', meanOf_perm h]
  · rw [hlatency, hlatency', meanOf_perm h]
  · have hperm := (computePercentile_perm (by simpa using hne) (h.map (·.latencyMs))).mp hp95
    exact Except.ok.inj (hperm.symm.trans hp95')
  · rw [haccuracy, haccuracy', shareOf_perm h]
  · rw [hsteps, hsteps', aggregateStepSuccess_perm h]
  · rw [hbuckets, hbuckets', get?_buildFailureBuckets_perm h]
  · rw [hcategory, hcategory', get?_groupMetrics_perm h]
  · rw [hdifficulty, hdifficulty', get?_groupMetrics_perm h]

/-- There is a summary of a list with a result in it, and it has what the list has. Its groups, of
either kind, and its failure buckets agree with its totals, and no order of the list changes it. -/
theorem aggregateResults_consistent (pstdev : List ℚ → ℚ) (datasetName : String)
    (hne : caseResults ≠ []) :
    ∃ summary, aggregateResults caseResults pstdev datasetName = .ok summary
      ∧ SummaryOf caseResults summary
      ∧ GroupsConsistent summary summary.byCategory
      ∧ GroupsConsistent summary summary.byDifficulty
      ∧ (summary.failureBuckets.values.sum : ℚ)
        = summary.totalSamples * (1 - summary.e2eSuccessRate)
      ∧ ∀ caseResults', caseResults.Perm caseResults' →
        ∃ summary', aggregateResults caseResults' pstdev datasetName = .ok summary'
          ∧ SameSummary summary summary' := by
  obtain ⟨summary, hsum⟩ := exists_aggregateResults pstdev datasetName hne
  obtain ⟨-, htotal, he2e, -, -, -, -, -, -, hbuckets, hcategory, hdifficulty⟩ :=
    aggregateResults_spec hne hsum
  refine ⟨summary, hsum, summaryOf_aggregateResults hne hsum, ?_, ?_, ?_, fun caseResults' h => ?_⟩
  · rw [hcategory]
    exact groupsConsistent hne _ hsum
  · rw [hdifficulty]
    exact groupsConsistent hne _ hsum
  · rw [hbuckets, htotal, he2e]
    exact sum_buildFailureBuckets hne
  · have hne' : caseResults' ≠ [] := by
      rintro rfl
      exact hne h.eq_nil
    obtain ⟨summary', hsum'⟩ := exists_aggregateResults pstdev datasetName hne'
    exact ⟨summary', hsum', sameSummary_of_perm hne h hsum hsum'⟩

/-- One success and one failure, in two categories. -/
def twoResults : List EvalCaseResult :=
  [{ sampleId := "tool_001", category := "tool", difficulty := "easy", success := true,
     answer := "ok", expectedAnswer := "ok", answerF1 := 1, latencyMs := 12 },
   { sampleId := "adv_001", category := "adversarial", difficulty := "easy", success := false,
     answer := "", expectedAnswer := "", answerF1 := 0, latencyMs := 3,
     errorCode := some (.name "unauthorized"), toolCalls := 1,
     stepOutcomes := ⟨[("validation", true), ("authorization", false)], by decide⟩ }]

theorem aggregateResults_consistent_two :
    ∃ summary, aggregateResults twoResults (fun _ => 1 / 2) "gateway" = .ok summary
      ∧ summary.totalSamples = 2
      ∧ (summary.byCategory.get? "tool").map (·.count) = some 1
      ∧ (summary.byDifficulty.get? "easy").map (·.count) = some 2
      ∧ (summary.failureBuckets.get? (.name "unauthorized")).getD 0 = 1
      ∧ GroupsConsistent summary summary.byCategory
      ∧ GroupsConsistent summary summary.byDifficulty
      ∧ (summary.failureBuckets.values.sum : ℚ)
        = summary.totalSamples * (1 - summary.e2eSuccessRate)
      ∧ ∀ caseResults', twoResults.Perm caseResults' →
        ∃ summary', aggregateResults caseResults' (fun _ => 1 / 2) "gateway" = .ok summary'
          ∧ SameSummary summary summary' := by
  obtain ⟨summary, hsum, hof, h⟩ :=
    aggregateResults_consistent (fun _ => 1 / 2) "gateway" (List.cons_ne_nil _ _ : twoResults ≠ [])
  refine ⟨summary, hsum, hof.totalSamples, ?_, ?_, ?_, h⟩
  · rw [hof.byCategory]
    simp
  · rw [hof.byDifficulty]
    simp
  · rw [hof.failureBuckets]
    simp [bucketName, CaseError.truthy]

end AgentLearning.Evaluation
