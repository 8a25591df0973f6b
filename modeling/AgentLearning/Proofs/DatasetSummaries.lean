import AgentLearning.Proofs.DatasetRuns
import AgentLearning.Proofs.GatewayResults

/-!
# The summary of a dataset

What the summary says of the gateway, in terms of what becomes of the samples that name a tool: each
rate is the share of one fate, and a step is attempted by just the samples that get as far. What
becomes of the other samples does not count there.
-/

namespace AgentLearning.Evaluation

/-! ## The rates of the steps -/

section StepRates

variable (caseResults : List EvalCaseResult) (step : String)

/-- In how many results the step was attempted. -/
def attemptCount : ℕ := (attempts caseResults).countP fun entry => entry.1 = step

/-- In how many attempts the step succeeded. -/
def successCount : ℕ := (attempts caseResults).countP fun entry => entry = (step, true)

theorem get?_countBy_attempts : (Dict.countBy Prod.fst (attempts caseResults)).get? step
    = if attemptCount caseResults step = 0 then none else some (attemptCount caseResults step) := by
  have hmem : step ∈ (attempts caseResults).map Prod.fst ↔ ¬ attemptCount caseResults step = 0 := by
    unfold attemptCount
    rw [← Ne.eq_def, ← Nat.pos_iff_ne_zero, List.countP_pos_iff]
    simp
  rw [Dict.get?_countBy, if_congr hmem rfl rfl, ite_not]
  rfl

theorem getD_get?_countBy_successes :
    ((Dict.countBy Prod.fst ((attempts caseResults).filter Prod.snd)).get? step).getD 0
      = successCount caseResults step := by
  have hcount : ((attempts caseResults).filter Prod.snd).countP (fun entry => entry.1 = step)
      = successCount caseResults step := by
    rw [List.countP_filter]
    refine List.countP_congr fun entry _ => ?_
    simp [Prod.ext_iff]
  rw [Dict.get?_countBy]
  split_ifs with hmem
  · simpa using hcount
  · rw [Option.getD_none, ← hcount, eq_comm, List.countP_eq_zero]
    exact fun entry hentry hstep => hmem (List.mem_map.mpr ⟨entry, hentry, by simpa using hstep⟩)

/-- The rate of a step is the share of its attempts that succeeded; a step that nobody attempted
has none. -/
theorem get?_aggregateStepSuccess : (aggregateStepSuccess caseResults).get? step
    = if attemptCount caseResults step = 0 then none
      else some ((successCount caseResults step : ℚ) / attemptCount caseResults step) := by
  have hperm := List.perm_insertionSort (fun a b : String × ℕ => toLex a ≤ toLex b)
    (Dict.countBy Prod.fst (attempts caseResults)).entries
  have hnodup := (hperm.map Prod.fst).nodup_iff.mpr (Dict.nodup_keys _)
  have hget := get?_countBy_attempts caseResults step
  unfold aggregateStepSuccess
  split_ifs at hget ⊢ with hzero
  · refine (Dict.get?_foldl_set_of_notMem _ _ _ _ fun hmem => ?_).trans (Dict.get?_empty step)
    have hkey : step ∈ (Dict.countBy Prod.fst (attempts caseResults)).keys :=
      (hperm.map Prod.fst).mem_iff.mp hmem
    rw [Dict.mem_keys_iff, hget] at hkey
    exact absurd hkey (by simp)
  · have hmem : (step, attemptCount caseResults step)
        ∈ (Dict.countBy Prod.fst (attempts caseResults)).entries :=
      (Dict.get?_eq_some_iff _).mp hget
    rw [Dict.get?_foldl_set_of_mem Prod.fst (fun entry : String × ℕ => safeDivide
      (((Dict.countBy Prod.fst ((attempts caseResults).filter Prod.snd)).get? entry.1).getD 0)
      entry.2 0) _ _ hnodup (hperm.mem_iff.mpr hmem), getD_get?_countBy_successes]
    simp [safeDivide, hzero]

end StepRates

/-! ## The fates of a dataset -/

namespace Fate

/-- The sample gets as far as the step. -/
def attempts (step : String) (fate : Fate) : Bool := step ∈ fate.steps.map Prod.fst

def passes (step : String) (fate : Fate) : Bool := (step, true) ∈ fate.steps

theorem nodup_steps (fate : Fate) : (fate.steps.map Prod.fst).Nodup := by
  cases fate <;> decide

theorem countP_attempts (step : String) (fate : Fate) :
    fate.steps.countP (fun entry => entry.1 = step) = if fate.attempts step then 1 else 0 := by
  have hcount := fate.nodup_steps.count (a := step)
  rw [List.count, List.countP_map] at hcount
  unfold Fate.attempts
  simp only [decide_eq_true_eq, ← hcount]
  exact List.countP_congr fun entry _ => by simp

theorem countP_passes (step : String) (fate : Fate) :
    fate.steps.countP (fun entry => entry = (step, true)) = if fate.passes step then 1 else 0 := by
  have hcount := fate.nodup_steps.of_map.count (a := (step, true))
  unfold passes
  simp only [decide_eq_true_eq, ← hcount]
  exact List.countP_congr fun entry _ => by simp

end Fate

theorem Fate.attempts_eq_false (fate : Fate) :
    ∀ step ∈ ["retrieval", "rerank", "compression"], fate.attempts step = false := by
  cases fate <;> decide

/-! ## The results of a dataset -/

def Job.callsTool (job : Job) : Bool := job.sample.toolName.getD "" ≠ ""

/-- In how many samples that name a tool it becomes of the sample what `p` says. -/
noncomputable def fateCount (jobs : List Job) (p : EvalSample → Fate → Bool) : ℕ :=
  jobs.countP fun job => job.callsTool && p job.sample (fateOf job.gateway job.sample)

/-- What the result of a sample has to be. -/
structure JobReports (runner : EvaluationRunner) (job : Job) (r : EvalCaseResult) : Prop where
  gateway : job.callsTool = true → (fateOf job.gateway job.sample).Reports job.sample r
  rag : job.callsTool = false → Grounded runner job r

abbrev AllReport (runner : EvaluationRunner) : List Job → List EvalCaseResult → Prop :=
  List.Forall₂ (JobReports runner)

section Results

variable {fs : EvaluationFunctions} {runner : EvaluationRunner} {jobs : List Job}
  {caseResults : List EvalCaseResult}

/-- What the runner has indexed can be scored: the days of the decay are above 0, and they and all
dates are floats. -/
structure Datable (runner : EvaluationRunner) : Prop where
  decayDays : 0 < runner.reranker.config.freshnessDecayDays
  decayFloat : (runner.reranker.config.freshnessDecayDays : ℚ) < Reranker.floatBound
  dates : ∀ document ∈ runner.retriever.documents,
    ∀ updated ∈ Reranker.updatedAt document.metadata, |updated| < Reranker.floatBound

theorem Datable.rerankedFor (h : Datable runner) (fs : EvaluationFunctions) (job : Job) :
    ∃ output, runner.rerankedFor fs job = .ok output := by
  have hdates : ∀ chunk ∈ (runner.retriever.retrieve fs.builtins job.sample.query
      job.sample.callerRole none job.rag.retrieval.1 job.rag.retrieval.2).chunks,
      ∀ updated ∈ Reranker.updatedAt chunk.metadata, |updated| < Reranker.floatBound :=
    fun chunk hchunk => h.dates chunk.document
      (List.mem_of_mem_filter (HybridRetriever.document_of_mem_retrieve hchunk))
  rcases Reranker.rerank_cases fs.rerank runner.reranker _ none job.rag.rerank with
    ⟨-, output, houtput, -⟩ | ⟨hnot, -⟩
  · exact ⟨output, houtput⟩
  · exact absurd (Reranker.allScorable_of_pos h.decayDays h.decayFloat hdates) hnot

theorem balanced_create : ({ topN := 10 } : RerankConfig).Balanced := by decide +kernel

/-- The runner that the code sets up indexes each document with the time at which it is loaded. -/
theorem datable_create {maxWorkers : ℤ} {now : String → ℚ}
    (hnow : ∀ id, |now id| < Reranker.floatBound)
    (h : EvaluationRunner.create fs maxWorkers now = .ok runner) : Datable runner := by
  unfold EvaluationRunner.create Reranker.create at h
  rw [dif_pos balanced_create] at h
  cases h
  refine ⟨show (0 : ℤ) < 90 by omega,
    Reranker.lt_floatBound (show ((90 : ℤ) : ℚ) < 2 ^ 53 by norm_num),
    fun document hdocument updated hupdated => ?_⟩
  obtain ⟨id, hmetadata⟩ : ∃ id, document.metadata = [("updated_at", .float (now id))] := by
    rcases List.mem_append.mp hdocument with hvector | hkeyword
    · obtain ⟨chunk, hchunk, rfl⟩ := List.mem_map.mp hvector
      obtain ⟨doc, -, rfl⟩ := List.mem_map.mp (show chunk ∈ mockDocuments.map _ from hchunk)
      exact ⟨_, rfl⟩
    · obtain ⟨indexed, hindexed, rfl⟩ := List.mem_map.mp hkeyword
      obtain ⟨chunk, hchunk, rfl⟩ :=
        List.mem_map.mp (show indexed ∈ (mockDocuments.map _).map _ from hindexed)
      obtain ⟨doc, -, rfl⟩ := List.mem_map.mp hchunk
      exact ⟨_, rfl⟩
  have hnumber : Reranker.updatedAt document.metadata
      = if now id ≠ 0 then some (now id) else none := by
    rw [hmetadata]
    simp [Reranker.updatedAt, getEntry, Json.number, Json.truthy]
  rw [hnumber] at hupdated
  split_ifs at hupdated
  · cases hupdated
    exact hnow id
  · cases hupdated

theorem sampleResult_reports (fs : EvaluationFunctions) (h : Datable runner) (job : Job) :
    ∃ r, runner.sampleResult fs job = .ok r ∧ JobReports runner job r := by
  unfold EvaluationRunner.sampleResult
  split_ifs with htool
  · obtain ⟨r, hrun, hreports⟩ :=
      reports_runGatewaySample fs.toRunnerFunctions job.gateway job.sample
    exact ⟨r, hrun, fun _ => hreports,
      fun hnone => absurd htool (by simpa [Job.callsTool] using hnone)⟩
  · obtain ⟨output, hreranked⟩ := h.rerankedFor fs job
    rw [hreranked]
    exact ⟨_, rfl, fun hcalls => absurd (by simpa [Job.callsTool] using hcalls) htool,
      fun _ => EvaluationRunner.grounded_build hreranked _⟩

theorem allReport_runInOrder (fs : EvaluationFunctions) (h : Datable runner) (jobs : List Job) :
    ∃ caseResults, runner.runInOrder fs jobs = .ok caseResults
      ∧ AllReport runner jobs caseResults := by
  rw [EvaluationRunner.runInOrder_eq]
  induction jobs with
  | nil => exact ⟨[], rfl, .nil⟩
  | cons job jobs ih =>
    obtain ⟨r, hrun, hreports⟩ := sampleResult_reports fs h job
    obtain ⟨caseResults, hruns, hall⟩ := ih
    refine ⟨r :: caseResults, ?_, .cons hreports hall⟩
    rw [List.map_cons, List.mapM_cons, hruns]
    simp only [id, hrun, bind, Except.bind, pure, Except.pure]

/-- What no sample without a tool has is counted among the fates of the others. -/
theorem countP_of_allReport {p : EvalSample → Fate → Bool} {q : EvalCaseResult → Bool}
    (hpq : ∀ fate sample r, Fate.Reports fate sample r → q r = p sample fate)
    (hrag : ∀ job r, Grounded runner job r → q r = false) :
    ∀ {jobs caseResults}, AllReport runner jobs caseResults →
      caseResults.countP q = fateCount jobs p
  | _, _, .nil => rfl
  | job :: _, _, .cons hreports hall => by
    unfold fateCount
    rw [List.countP_cons, List.countP_cons, countP_of_allReport hpq hrag hall]
    cases htool : job.callsTool
    · rw [hrag job _ (hreports.rag htool), Bool.false_and]
      rfl
    · rw [hpq _ _ _ (hreports.gateway htool), Bool.true_and]
      rfl

/-- Each sample that passed called its tool, and no other did. -/
theorem sum_toolCalls_of_allReport : ∀ {jobs caseResults}, AllReport runner jobs caseResults →
    (caseResults.map (·.toolCalls)).sum = fateCount jobs fun _ fate => fate = .passed
  | _, _, .nil => rfl
  | job :: _, _, .cons hreports hall => by
    unfold fateCount
    rw [List.map_cons, List.sum_cons, sum_toolCalls_of_allReport hall, List.countP_cons, add_comm]
    cases htool : job.callsTool
    · rw [(hreports.rag htool).calls.2.1, Bool.false_and]
      rfl
    · rw [(hreports.gateway htool).toolCalls, Bool.true_and]
      cases fateOf _ _ <;> rfl

/-- What is counted at most once in the steps of a fate is counted so often in all steps. -/
theorem countP_attempts_of_allReport {p : EvalSample → Fate → Bool} {q : String × Bool → Bool}
    (hpq : ∀ sample (fate : Fate), fate.steps.countP q = if p sample fate then 1 else 0)
    (hrag : ∀ entry, entry.1 ∈ ["retrieval", "rerank", "compression"] → q entry = false) :
    ∀ {jobs caseResults}, AllReport runner jobs caseResults →
      (attempts caseResults).countP q = fateCount jobs p
  | _, _, .nil => rfl
  | job :: _, r :: _, .cons hreports hall => by
    have htail := countP_attempts_of_allReport hpq hrag hall
    unfold attempts at htail ⊢
    unfold fateCount
    rw [List.flatMap_cons, List.countP_append, htail, List.countP_cons, add_comm]
    cases htool : job.callsTool
    · obtain ⟨compressed, -, hsteps⟩ := (hreports.rag htool).steps
      have hnone : r.stepOutcomes.entries.countP q = 0 := by
        rw [hsteps, List.countP_eq_zero]
        intro entry hentry
        simp only [List.mem_cons, List.not_mem_nil, or_false] at hentry
        rw [hrag entry (by rcases hentry with rfl | rfl | rfl <;> simp)]
        simp
      rw [hnone, Bool.false_and]
      rfl
    · rw [(hreports.gateway htool).steps, hpq job.sample, Bool.true_and]
      rfl

end Results

/-! ## The summary of a dataset -/

/-- What the summary says of the gateway. -/
structure SummarizesFates (jobs : List Job) (summary : EvalSummary) : Prop where
  totalSamples : summary.totalSamples = jobs.length
  validationRejectionRate : summary.validationRejectionRate
    = safeDivide (fateCount jobs fun _ fate => fate = .rejected) (jobs.countP (·.callsTool)) 0
  authDenialRate : summary.authDenialRate
    = safeDivide (fateCount jobs fun _ fate => fate = .unauthorized) (jobs.countP (·.callsTool)) 0
  circuitOpenFrequency : summary.circuitOpenFrequency = 0
  auditCompleteness : summary.auditCompleteness = 1
  toolCalls : summary.cost.toolCalls = fateCount jobs fun _ fate => fate = .passed
  stepSuccessRates (step : String) (hstep : step ∈ Fate.passed.steps.map Prod.fst) :
    summary.stepSuccessRates.get? step
      = if fateCount jobs (fun _ fate => fate.attempts step) = 0 then none
        else some ((fateCount jobs (fun _ fate => fate.passes step) : ℚ)
          / fateCount jobs fun _ fate => fate.attempts step)

section Summary

variable {fs : EvaluationFunctions} {runner : EvaluationRunner} {jobs : List Job}
  {caseResults : List EvalCaseResult}

/-- The figures that count what the gateway did. -/
theorem aggregateResults_gateway {pstdev : List ℚ → ℚ} {datasetName : String}
    {summary : EvalSummary} (hne : caseResults ≠ [])
    (hsum : aggregateResults caseResults pstdev datasetName = .ok summary) :
    let toolSampleCount :=
      caseResults.countP fun result => (result.stepOutcomes.get? "validation").isSome
    summary.validationRejectionRate
        = safeDivide (caseResults.countP (·.validationRejected)) toolSampleCount 0
      ∧ summary.authDenialRate
        = safeDivide (caseResults.countP (·.authDenied)) toolSampleCount 0
      ∧ summary.circuitOpenFrequency
        = safeDivide (caseResults.countP (·.circuitOpened)) toolSampleCount 0
      ∧ summary.auditCompleteness
        = safeDivide (caseResults.countP fun result => 0 < result.auditEntries) toolSampleCount 1
      ∧ summary.cost.toolCalls = (caseResults.map (·.toolCalls)).sum := by
  have hlength : ¬ caseResults.length = 0 := (List.length_pos_iff.mpr hne).ne'
  unfold aggregateResults at hsum
  rcases hp : computePercentile (caseResults.map (·.latencyMs)) (19 / 20) with e | p95LatencyMs
  · simp [hlength, hp, bind, Except.bind] at hsum
  · simp only [hlength, hp, bind, Except.bind, pure, Except.pure, if_false, Except.ok.injEq] at hsum
    subst hsum
    exact ⟨rfl, rfl, rfl, rfl, rfl⟩

theorem fateCount_true : (fateCount jobs fun _ _ => true) = jobs.countP (·.callsTool) :=
  List.countP_congr fun job _ => by rw [Bool.and_true]

theorem fateCount_false : (fateCount jobs fun _ _ => false) = 0 :=
  List.countP_eq_zero.mpr fun job _ => by simp

theorem Fate.Reports.validation {fate : Fate} {sample : EvalSample} {r : EvalCaseResult}
    (h : fate.Reports sample r) : (r.stepOutcomes.get? "validation").isSome = true := by
  rw [← Dict.mem_keys_iff, Dict.keys, h.steps]
  cases fate <;> simp [Fate.steps]

theorem Fate.Reports.audited {fate : Fate} {sample : EvalSample} {r : EvalCaseResult}
    (h : fate.Reports sample r) : 0 < r.auditEntries := by
  rw [h.auditEntries]
  cases fate <;> simp [Fate.auditEntries]

theorem Grounded.validation {job : Job} {r : EvalCaseResult} (h : Grounded runner job r) :
    (r.stepOutcomes.get? "validation").isSome = false := by
  obtain ⟨compressed, -, hsteps⟩ := h.steps
  rw [← Bool.not_eq_true, ← Dict.mem_keys_iff, Dict.keys, hsteps]
  simp

theorem summarizesFates (hne : jobs ≠ []) (hall : AllReport runner jobs caseResults)
    (pstdev : List ℚ → ℚ) (datasetName : String) :
    ∃ summary, aggregateResults caseResults pstdev datasetName = .ok summary
      ∧ SummarizesFates jobs summary := by
  have hlength : caseResults.length = jobs.length := hall.length_eq.symm
  have hne' : caseResults ≠ [] := by
    rwa [Ne, ← List.length_eq_zero_iff, hlength, List.length_eq_zero_iff]
  have hvalidation := (countP_of_allReport (p := fun _ _ => true)
    (fun _ _ _ h => h.validation) (fun _ _ h => h.validation) hall).trans fateCount_true
  have haudited := (countP_of_allReport (p := fun _ _ => true)
    (q := fun result => 0 < result.auditEntries) (fun _ _ _ h => decide_eq_true h.audited)
    (fun _ _ h => by simp [h.calls.2.2]) hall).trans fateCount_true
  have hopened := (countP_of_allReport (p := fun _ _ => false)
    (fun _ _ _ h => h.circuitOpened) (fun _ _ h => h.gateway.2.2) hall).trans fateCount_false
  have hrejected := countP_of_allReport (p := fun _ fate => fate = .rejected)
    (fun _ _ _ h => Bool.eq_iff_iff.mpr (by simpa using h.validationRejected))
    (fun _ _ h => h.gateway.1) hall
  have hdenied := countP_of_allReport (p := fun _ fate => fate = .unauthorized)
    (fun _ _ _ h => Bool.eq_iff_iff.mpr (by simpa using h.authDenied))
    (fun _ _ h => h.gateway.2.1) hall
  obtain ⟨summary, hsum⟩ := exists_aggregateResults pstdev datasetName hne'
  obtain ⟨-, htotal, -, -, -, -, -, -, hsteps, -⟩ := aggregateResults_spec hne' hsum
  obtain ⟨hrejection, hdenial, hopen, haudit, hcalls⟩ := aggregateResults_gateway hne' hsum
  rw [hvalidation] at hrejection hdenial hopen haudit
  refine ⟨summary, hsum, ?_, ?_, ?_, ?_, ?_, ?_, fun step hstep => ?_⟩
  · rw [htotal, hlength]
  · rw [hrejection, hrejected]
  · rw [hdenial, hdenied]
  · rw [hopen, hopened]
    unfold safeDivide
    split_ifs <;> simp
  · rw [haudit, haudited]
    unfold safeDivide
    split_ifs with hzero
    · rfl
    · exact div_self (Nat.cast_ne_zero.mpr hzero)
  · rw [hcalls, sum_toolCalls_of_allReport hall]
  · -- the steps of the other samples have other names
    have hother (entry : String × Bool)
        (hentry : entry.1 ∈ ["retrieval", "rerank", "compression"]) : entry.1 ≠ step := by
      rintro rfl
      have hnot := Fate.passed.attempts_eq_false _ hentry
      simp [Fate.attempts, hstep] at hnot
    rw [hsteps, get?_aggregateStepSuccess, attemptCount, successCount,
      countP_attempts_of_allReport (fun _ => Fate.countP_attempts step)
        (fun entry hentry => decide_eq_false (hother entry hentry)) hall,
      countP_attempts_of_allReport (fun _ => Fate.countP_passes step)
        (fun entry hentry => decide_eq_false fun heq => hother entry hentry (by rw [heq])) hall]

/-- A dataset with a sample in it is run and summed up, whatever turns the workers take, if each has
its turns and no wait for one is late: each sample that names a tool ends as the parameters, the
caller and the clock decide, each other sample with an answer that its caller may see, and the
summary counts just these. -/
theorem evaluate_accounts {fs : EvaluationFunctions} {runner : EvaluationRunner}
    (pstdev : List ℚ → ℚ) (datasetName : String) (schedule : List ℕ) (late : ℕ → Bool)
    (jobs : List Job) (hdatable : Datable runner) (hne : jobs ≠ [])
    (hturns : 1 < runner.maxWorkers →
      ∀ k < jobs.length, 2 ≤ schedule.count k ∧ late k = false) :
    ∃ caseResults summary, runner.runSamples fs schedule late jobs = some (.ok caseResults)
      ∧ AllReport runner jobs caseResults
      ∧ runner.evaluate fs pstdev datasetName schedule late jobs = some (.ok summary)
      ∧ SummarizesFates jobs summary := by
  obtain ⟨caseResults, hruns, hall⟩ := allReport_runInOrder fs hdatable jobs
  obtain ⟨summary, hsum, hsummarizes⟩ := summarizesFates hne hall pstdev datasetName
  have hsamples : runner.runSamples fs schedule late jobs = _ :=
    EvaluationRunner.runSamples_of_turns hturns
  rw [hruns] at hsamples
  refine ⟨caseResults, summary, hsamples, hall, ?_, hsummarizes⟩
  unfold EvaluationRunner.evaluate
  rw [hsamples]
  simp [List.isEmpty_iff, hne, Except.bind, hsum]

/-- The functions that a sample with the query `refund` needs besides. -/
def refundFunctions : EvaluationFunctions where
  toRunnerFunctions := plainFunctions
  builtins := HybridRetriever.asciiBuiltins
  rerank :=
    { exp := fun x => some (1 + x)
      exp_isSome := fun _ _ => rfl
      floatRepr := fun _ => ""
      format3f := fun _ => ""
      format4f := fun _ => "" }

def refundJob : Job where
  sample :=
    { id := "faq_001", category := "faq", query := "refund", expectedAnswer := "refund rules" }
  gateway := stillReadings
  rag := ⟨0, 0, (0, 0), ⟨0, 0, fun _ => 0⟩, (0, 0)⟩

/-- Two workers, of which one calls a tool and one asks for what the runner knows. -/
theorem evaluate_accounts_two : ∃ runner caseResults summary,
    EvaluationRunner.create refundFunctions 2 (fun _ => 0) = .ok runner
      ∧ runner.runSamples refundFunctions [1, 0, 1, 0] (fun _ => false)
        [{ refundJob with sample := adv001 }, refundJob] = some (.ok caseResults)
      ∧ AllReport runner [{ refundJob with sample := adv001 }, refundJob] caseResults
      ∧ runner.evaluate refundFunctions (fun _ => 0) "regression.jsonl" [1, 0, 1, 0]
        (fun _ => false) [{ refundJob with sample := adv001 }, refundJob] = some (.ok summary)
      ∧ SummarizesFates [{ refundJob with sample := adv001 }, refundJob] summary := by
  obtain ⟨runner, hcreate⟩ :
      ∃ runner, EvaluationRunner.create refundFunctions 2 (fun _ => 0) = .ok runner := by
    unfold EvaluationRunner.create Reranker.create
    rw [dif_pos balanced_create]
    exact ⟨_, rfl⟩
  have hdatable : Datable runner :=
    datable_create (fun _ => Reranker.lt_floatBound (by norm_num)) hcreate
  obtain ⟨caseResults, summary, h⟩ := evaluate_accounts (fun _ => 0) "regression.jsonl"
    [1, 0, 1, 0] (fun _ => false) [{ refundJob with sample := adv001 }, refundJob] hdatable
    (by simp) fun _ => by simp; decide
  exact ⟨runner, caseResults, summary, hcreate, h⟩

end Summary

end AgentLearning.Evaluation
