import Mathlib.Algebra.Order.BigOperators.Group.Finset
import AgentLearning.Chaos
import AgentLearning.Lib.Representatives
import AgentLearning.Proofs.RetryAfter

/-!
# The resilience score and the mean

The scores are collected under labels, so results with one label overwrite each other and the mean
is over the labels. Which result of a label counts depends on the order of the list, and any may. So
the score is the mean over all results, in every order, exactly if taking the lowest score of each
label and taking the highest come to this mean.
-/

namespace AgentLearning

open Gateway (roundHalfEven_mono)

namespace ResilienceScorer

variable {β : Type} (scorer : ResilienceScorer) {results results' : List (ChaosResult β)}

/-- The score of a result, in four decimals. -/
def roundedScore (result : ChaosResult β) : ℚ :=
  match scorer.scoreSingle result with
  | .ok s => roundTenThousandths s
  | .error _ => 0

theorem roundTenThousandths_mono {p q : ℚ} (h : p ≤ q) :
    roundTenThousandths p ≤ roundTenThousandths q := by
  unfold roundTenThousandths
  have := roundHalfEven_mono (mul_le_mul_of_nonneg_right h (by norm_num : (0 : ℚ) ≤ 10000))
  gcongr

/-- The mean over the labels, where each has this score. -/
def labelMean (results : List (ChaosResult β)) (s : String → ℚ) : ℚ :=
  (∑ k ∈ (results.map label).toFinset, s k) / (results.map label).toFinset.card

/-- The rounded scores of the results with this label. -/
def scoresOf (results : List (ChaosResult β)) (k : String) : List ℚ :=
  (results.filter fun result => label result = k).map scorer.roundedScore

def lowestScore (results : List (ChaosResult β)) (k : String) : ℚ :=
  (scorer.scoresOf results k).min?.getD 0

def highestScore (results : List (ChaosResult β)) (k : String) : ℚ :=
  (scorer.scoresOf results k).max?.getD 0

/-- The score that stays under this label. -/
def lastScore (results : List (ChaosResult β)) (k : String) : ℚ :=
  ((Dict.lastBy label results k).map scorer.roundedScore).getD 0

/-! ## What the scorer computes -/

theorem scoreSingle_zero (hmax : scorer.maxRecoveryMs = 0) (result : ChaosResult β) :
    scorer.scoreSingle result = .error (.exception "float division by zero") := by
  simp [scoreSingle, raiseIf, hmax, bind, Except.bind]

theorem addScore_eq (hmax : scorer.maxRecoveryMs ≠ 0) (collected : Dict String ℚ × List String)
    (result : ChaosResult β) : ∃ weaknesses, scorer.addScore collected result
      = .ok (collected.1.set (label result) (scorer.roundedScore result), weaknesses) := by
  rcases hs : scorer.scoreSingle result with e | s
  · simp [scoreSingle, raiseIf, hmax, bind, Except.bind, pure, Except.pure] at hs
  · simp [addScore, roundedScore, hs, bind, Except.bind, pure, Except.pure]

theorem foldlM_addScore (hmax : scorer.maxRecoveryMs ≠ 0) :
    ∀ (results : List (ChaosResult β)) (collected : Dict String ℚ × List String),
      ∃ weaknesses, results.foldlM scorer.addScore collected
        = .ok (results.foldl (fun d result => d.set (label result) (scorer.roundedScore result))
          collected.1, weaknesses)
  | [], collected => ⟨collected.2, rfl⟩
  | result :: results, collected => by
    obtain ⟨weaknesses, hadd⟩ := scorer.addScore_eq hmax collected result
    obtain ⟨weaknesses', hfold⟩ := foldlM_addScore hmax results
      (collected.1.set (label result) (scorer.roundedScore result), weaknesses)
    refine ⟨weaknesses', ?_⟩
    rw [List.foldlM_cons, hadd]
    exact hfold

/-- The score is the mean over the labels of what stays under them. -/
theorem score_eq (hmax : scorer.maxRecoveryMs ≠ 0) (hne : results ≠ []) :
    ∃ report, scorer.score results = .ok report
      ∧ report.overallScore
        = roundTenThousandths (labelMean results (scorer.lastScore results)) := by
  obtain ⟨weaknesses, hfold⟩ := scorer.foldlM_addScore hmax results (∅, [])
  have hkeys : (Dict.overwriteBy label scorer.roundedScore results).keys.toFinset
      = (results.map label).toFinset := by
    ext k
    rw [List.mem_toFinset, Dict.mem_keys_overwriteBy, List.mem_toFinset]
  have hmean : labelMean results (scorer.lastScore results)
      = (Dict.overwriteBy label scorer.roundedScore results).values.sum
        / (Dict.overwriteBy label scorer.roundedScore results).entries.length := by
    rw [Dict.sum_values, ← Dict.card_keys, hkeys]
    simp only [Dict.get?_overwriteBy]
    rfl
  unfold score
  rw [if_neg (by simpa using hne), hfold, hmean]
  exact ⟨_, rfl, rfl⟩

theorem score_zero (hmax : scorer.maxRecoveryMs = 0) (hne : results ≠ []) :
    ∃ e, scorer.score results = .error e := by
  obtain ⟨result, results, rfl⟩ := List.exists_cons_of_ne_nil hne
  unfold score
  rw [if_neg (by simp), List.foldlM_cons]
  simp [addScore, scorer.scoreSingle_zero hmax, bind, Except.bind]

/-! ## Lowest and highest scores -/

theorem mem_scoresOf {k : String} {s : ℚ} : s ∈ scorer.scoresOf results k
    ↔ ∃ result ∈ results, label result = k ∧ scorer.roundedScore result = s := by
  simp [scoresOf, and_assoc]

theorem scoresOf_ne_nil {k : String} (hk : k ∈ results.map label) :
    scorer.scoresOf results k ≠ [] := by
  obtain ⟨result, hresult, rfl⟩ := List.mem_map.mp hk
  exact List.ne_nil_of_mem ((scorer.mem_scoresOf).mpr ⟨result, hresult, rfl, rfl⟩)

/-- A score of this label, and what holds of all of them, said of the results. -/
theorem scoresOf_spec {k : String} {s : ℚ} {p : ℚ → Prop} (hs : s ∈ scorer.scoresOf results k)
    (hp : ∀ t ∈ scorer.scoresOf results k, p t) :
    (∃ result ∈ results, label result = k ∧ scorer.roundedScore result = s)
      ∧ ∀ result ∈ results, label result = k → p (scorer.roundedScore result) := by
  refine ⟨scorer.mem_scoresOf.mp hs, fun result hresult hlabel => ?_⟩
  exact hp _ (scorer.mem_scoresOf.mpr ⟨result, hresult, hlabel, rfl⟩)

theorem lowestScore_spec {k : String} (hk : k ∈ results.map label) :
    (∃ result ∈ results, label result = k
        ∧ scorer.roundedScore result = scorer.lowestScore results k)
      ∧ ∀ result ∈ results, label result = k →
        scorer.lowestScore results k ≤ scorer.roundedScore result := by
  obtain ⟨s, hs⟩ := Option.ne_none_iff_exists'.mp
    (mt List.min?_eq_none_iff.mp (scorer.scoresOf_ne_nil hk))
  obtain ⟨hmem, hle⟩ := List.min?_eq_some_iff.mp hs
  unfold lowestScore
  rw [hs, Option.getD_some]
  exact scorer.scoresOf_spec hmem hle

theorem highestScore_spec {k : String} (hk : k ∈ results.map label) :
    (∃ result ∈ results, label result = k
        ∧ scorer.roundedScore result = scorer.highestScore results k)
      ∧ ∀ result ∈ results, label result = k →
        scorer.roundedScore result ≤ scorer.highestScore results k := by
  obtain ⟨s, hs⟩ := Option.ne_none_iff_exists'.mp
    (mt List.max?_eq_none_iff.mp (scorer.scoresOf_ne_nil hk))
  obtain ⟨hmem, hle⟩ := List.max?_eq_some_iff.mp hs
  unfold highestScore
  rw [hs, Option.getD_some]
  exact scorer.scoresOf_spec hmem hle

theorem lastScore_spec {k : String} (hk : k ∈ results.map label) :
    ∃ result ∈ results, label result = k
      ∧ scorer.lastScore results k = scorer.roundedScore result := by
  obtain ⟨result, hresult, hlabel, hlast⟩ := Dict.exists_lastBy label hk
  refine ⟨result, hresult, hlabel, ?_⟩
  rw [lastScore, hlast]
  rfl

theorem labelMean_mono {s s' : String → ℚ} (h : ∀ k ∈ results.map label, s k ≤ s' k) :
    labelMean results s ≤ labelMean results s' := by
  unfold labelMean
  refine div_le_div_of_nonneg_right (Finset.sum_le_sum fun k hk => h k ?_) (Nat.cast_nonneg _)
  exact List.mem_toFinset.mp hk

theorem labelMean_congr {s s' : String → ℚ} (h : ∀ k ∈ results.map label, s k = s' k) :
    labelMean results s = labelMean results s' := by
  unfold labelMean
  rw [Finset.sum_congr rfl fun k hk => h k (List.mem_toFinset.mp hk)]

theorem labelMean_perm (h : results.Perm results') (s : String → ℚ) :
    labelMean results' s = labelMean results s := by
  have hlabels : (results'.map label).toFinset = (results.map label).toFinset := by
    ext k
    rw [List.mem_toFinset, List.mem_toFinset, (h.map label).mem_iff]
  rw [labelMean, labelMean, hlabels]

/-- Any choice of a score under each label is what the scorer takes of some order of the list. -/
theorem exists_perm_lastScore {s : String → ℚ} (hs : ∀ k ∈ results.map label,
    ∃ result ∈ results, label result = k ∧ scorer.roundedScore result = s k) :
    ∃ results', results.Perm results'
      ∧ ∀ k ∈ results.map label, scorer.lastScore results' k = s k := by
  rcases results with _ | ⟨result₀, results⟩
  · exact ⟨[], List.Perm.refl _, fun k hk => by simp at hk⟩
  have hchoice (k) : ∃ result, k ∈ (result₀ :: results).map label →
      result ∈ result₀ :: results ∧ label result = k ∧ scorer.roundedScore result = s k := by
    by_cases hk : k ∈ (result₀ :: results).map label
    · obtain ⟨result, hresult⟩ := hs k hk
      exact ⟨result, fun _ => hresult⟩
    · exact ⟨result₀, fun h => absurd h hk⟩
  choose c hc using hchoice
  obtain ⟨results', hperm, hlast⟩ := Dict.exists_perm_lastBy label c fun k hk =>
    ⟨(hc k hk).1, (hc k hk).2.1⟩
  refine ⟨results', hperm, fun k hk => ?_⟩
  rw [lastScore, hlast k hk]
  exact (hc k hk).2.2

/-! ## The mean -/

/-- The mean over all results. -/
def resultMean (results : List (ChaosResult β)) : ℚ :=
  (results.map scorer.roundedScore).sum / results.length

/-- The score is the mean over all results, in four decimals, and the same in every order. -/
def ScoresMean (results : List (ChaosResult β)) : Prop :=
  ∃ report, scorer.score results = .ok report
    ∧ report.overallScore = roundTenThousandths (scorer.resultMean results)
    ∧ ∀ results', results.Perm results' → ∃ report', scorer.score results' = .ok report'
      ∧ report'.overallScore = report.overallScore

/-- In every order the score lies between that of the lowest and that of the highest scores. -/
theorem score_perm_bounds (hmax : scorer.maxRecoveryMs ≠ 0) (hne : results ≠ [])
    (h : results.Perm results') : ∃ report, scorer.score results' = .ok report
      ∧ roundTenThousandths (labelMean results (scorer.lowestScore results))
        ≤ report.overallScore
      ∧ report.overallScore
        ≤ roundTenThousandths (labelMean results (scorer.highestScore results)) := by
  have hne' : results' ≠ [] := by
    rintro rfl
    exact hne h.eq_nil
  obtain ⟨report, hreport, hscore⟩ := scorer.score_eq hmax hne'
  rw [labelMean_perm h] at hscore
  have hlast {k} (hk : k ∈ results.map label) : ∃ result ∈ results, label result = k
      ∧ scorer.lastScore results' k = scorer.roundedScore result := by
    obtain ⟨result, hresult, hspec⟩ := scorer.lastScore_spec ((h.map label).mem_iff.mp hk)
    exact ⟨result, h.mem_iff.mpr hresult, hspec⟩
  refine ⟨report, hreport, ?_, ?_⟩
  · rw [hscore]
    refine roundTenThousandths_mono (labelMean_mono fun k hk => ?_)
    obtain ⟨result, hresult, hlabel, heq⟩ := hlast hk
    rw [heq]
    exact (scorer.lowestScore_spec hk).2 result hresult hlabel
  · rw [hscore]
    refine roundTenThousandths_mono (labelMean_mono fun k hk => ?_)
    obtain ⟨result, hresult, hlabel, heq⟩ := hlast hk
    rw [heq]
    exact (scorer.highestScore_spec hk).2 result hresult hlabel

/-- Each choice of a score under each label is the score of some order. -/
theorem exists_perm_score (hmax : scorer.maxRecoveryMs ≠ 0) (hne : results ≠ [])
    {s : String → ℚ} (hs : ∀ k ∈ results.map label,
      ∃ result ∈ results, label result = k ∧ scorer.roundedScore result = s k) :
    ∃ results', results.Perm results' ∧ ∃ report, scorer.score results' = .ok report
      ∧ report.overallScore = roundTenThousandths (labelMean results s) := by
  obtain ⟨results', hperm, hlast⟩ := scorer.exists_perm_lastScore hs
  have hne' : results' ≠ [] := by
    rintro rfl
    exact hne hperm.eq_nil
  obtain ⟨report, hreport, hscore⟩ := scorer.score_eq hmax hne'
  refine ⟨results', hperm, report, hreport, ?_⟩
  rw [hscore, labelMean_perm hperm, labelMean_congr hlast]

/-- The score is the mean over all results, whatever their order, if taking the lowest score of each
label and taking the highest come to it. -/
theorem scoresMean_iff (hne : results ≠ []) : scorer.ScoresMean results
    ↔ scorer.maxRecoveryMs ≠ 0
      ∧ roundTenThousandths (labelMean results (scorer.lowestScore results))
        = roundTenThousandths (scorer.resultMean results)
      ∧ roundTenThousandths (labelMean results (scorer.highestScore results))
        = roundTenThousandths (scorer.resultMean results) := by
  constructor
  · rintro ⟨report, hreport, hmean, hperm⟩
    have hmax : scorer.maxRecoveryMs ≠ 0 := by
      intro hzero
      obtain ⟨e, he⟩ := scorer.score_zero hzero hne
      rw [he] at hreport
      cases hreport
    have hreached {s : String → ℚ} (hs : ∀ k ∈ results.map label,
        ∃ result ∈ results, label result = k ∧ scorer.roundedScore result = s k) :
        roundTenThousandths (labelMean results s)
          = roundTenThousandths (scorer.resultMean results) := by
      obtain ⟨results', h, report', hreport', hscore⟩ := scorer.exists_perm_score hmax hne hs
      obtain ⟨report'', hreport'', hsame⟩ := hperm results' h
      rw [hreport'] at hreport''
      cases hreport''
      rw [← hscore, hsame, hmean]
    exact ⟨hmax, hreached fun k hk => (scorer.lowestScore_spec hk).1,
      hreached fun k hk => (scorer.highestScore_spec hk).1⟩
  · rintro ⟨hmax, hlowest, hhighest⟩
    have hscore {results'} (h : results.Perm results') : ∃ report,
        scorer.score results' = .ok report
          ∧ report.overallScore = roundTenThousandths (scorer.resultMean results) := by
      obtain ⟨report, hreport, hlow, hhigh⟩ := scorer.score_perm_bounds hmax hne h
      exact ⟨report, hreport, le_antisymm (hhigh.trans_eq hhighest) (hlowest.ge.trans hlow)⟩
    obtain ⟨report, hreport, hmean⟩ := hscore (List.Perm.refl results)
    refine ⟨report, hreport, hmean, fun results' h => ?_⟩
    obtain ⟨report', hreport', hmean'⟩ := hscore h
    exact ⟨report', hreport', by rw [hmean', hmean]⟩

/-- A fast recovery and a failure, of one component under one fault. -/
def twoRuns : List (ChaosResult String) :=
  [{ scenario := { faultType := "error", targetComponent := "gateway" }, success := true },
   { scenario := { faultType := "error", targetComponent := "gateway" }, success := false,
     recoveryTimeMs := 5000, errorIsolated := false, cascadingFailure := true }]

/-- Two components under two faults, and one of them under both: a recovery, one that takes half
of what it may, and a failure. -/
def threeLabels : List (ChaosResult String) :=
  [{ scenario := { faultType := "error", targetComponent := "gateway" }, success := true },
   { scenario := { faultType := "latency", targetComponent := "gateway" }, success := true,
     recoveryTimeMs := 1000 },
   { scenario := { faultType := "error", targetComponent := "retriever" }, success := false,
     recoveryTimeMs := 3000, errorIsolated := false, cascadingFailure := true }]

theorem scoresMean_iff_threeLabels : ({ maxRecoveryMs := 2000 } : ResilienceScorer).ScoresMean
    threeLabels :=
  (scoresMean_iff { maxRecoveryMs := 2000 } (List.cons_ne_nil _ _ : threeLabels ≠ [])).mpr
    ⟨by norm_num, by decide +kernel, by decide +kernel⟩

/-- The failure overwrites the recovery, and the score is 0 where the mean is a half. -/
theorem not_scoresMean_twoRuns : ¬ ({} : ResilienceScorer).ScoresMean twoRuns := by
  rintro ⟨report, hreport, hmean, -⟩
  have hscore : (({} : ResilienceScorer).score twoRuns).map (·.overallScore) = .ok 0 := by
    decide +kernel
  have hhalf : roundTenThousandths (({} : ResilienceScorer).resultMean twoRuns) = 1 / 2 := by
    decide +kernel
  rw [hreport] at hscore
  have hzero : report.overallScore = 0 := Except.ok.inj hscore
  rw [hzero, hhalf] at hmean
  norm_num at hmean

end ResilienceScorer

end AgentLearning
