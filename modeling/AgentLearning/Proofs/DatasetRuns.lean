import AgentLearning.Proofs.GroundedAnswers

/-!
# A dataset is run alike by any number of workers

The workers share the budget manager of the compressor, but what one of them records there is not
what another reads: the budget of the retrieval does not depend on the usage of the retrieval. So
each sample has one result, whatever the others do meanwhile, and the workers of a pool collect what
running the samples in order gives.
-/

namespace AgentLearning.Evaluation

open Prog (Yields Bounded)

namespace EvaluationRunner

variable (fs : EvaluationFunctions) (runner : EvaluationRunner)

/-- The budget that a worker reads. Only what others than the retrieval used counts against it. -/
def SameBudget (manager : ContextBudgetManager) : Prop :=
  manager.getRetrievalBudget = runner.compressor.budgetManager.getRetrievalBudget

variable {fs runner} {manager : ContextBudgetManager} {job : Job}

/-- The compression as a function of the budget. -/
def compressWithin (fs : EvaluationFunctions) (runner : EvaluationRunner) (n : ℤ) (job : Job)
    (reranked : List RerankResult) : CompressionResult :=
  let c := runner.compressor
  let deduped := c.deduplicate fs.text reranked
  let filtered := deduped.1.foldl (c.filterStep fs.text) ([], Compressor.duplicateReasons deduped.2)
  let selection := filtered.1.foldl (Compressor.selectStep fs.text n)
    { droppedReasons := filtered.2 }
  { chunks := selection.selected
    totalTokens := selection.usedTokens
    budgetLimit := n
    droppedCount := reranked.length - selection.selected.length
    droppedReasons := selection.droppedReasons
    latencyMs := (job.rag.compression.2 - job.rag.compression.1) * 1000 }

theorem SameBudget.recordUsage (h : runner.SameBudget manager) (tokens : ℤ) :
    runner.SameBudget (manager.recordUsage "retrieval_context" tokens) := by
  have hmem : "retrieval_context" ∈ usageCategories := by decide
  have hothers : (manager.recordUsage "retrieval_context" tokens).usedByOthers
      = manager.usedByOthers := by
    simp [ContextBudgetManager.usedByOthers, ContextBudgetManager.used_recordUsage hmem]
  have hlimits : (manager.recordUsage "retrieval_context" tokens).maxTotalTokens
        = manager.maxTotalTokens
      ∧ (manager.recordUsage "retrieval_context" tokens).allocation = manager.allocation := by
    unfold ContextBudgetManager.recordUsage
    split_ifs <;> exact ⟨rfl, rfl⟩
  unfold SameBudget at h ⊢
  rw [← h]
  unfold ContextBudgetManager.getRetrievalBudget
  rw [hothers, hlimits.1, hlimits.2]

/-- What is kept depends on the budget only. -/
theorem compressWith_eq (h : runner.SameBudget manager) (reranked : List RerankResult) :
    runner.compressWith fs manager job reranked
      = runner.compressWith fs runner.compressor.budgetManager job reranked := by
  have hbudget (manager : ContextBudgetManager) :
      runner.compressWith fs manager job reranked
        = runner.compressWithin fs manager.getRetrievalBudget job reranked := rfl
  rw [hbudget, hbudget, h]

/-! ## The result of a sample -/

variable (fs runner) in
/-- What becomes of a sample that is run alone. -/
def sampleResult (job : Job) : Except PyError EvalCaseResult :=
  if job.sample.toolName.getD "" ≠ "" then
    runGatewaySample fs.toRunnerFunctions job.gateway job.sample
  else (runner.rerankedFor fs job).map fun output =>
    buildRagCaseResult fs job output.results
      (runner.compressWith fs runner.compressor.budgetManager job output.results).chunks

/-- A worker gives that result, whatever the others record. -/
theorem yields_runSingleSample (job : Job) :
    Yields runner.SameBudget (runner.sampleResult fs job) (runner.runSingleSample fs job) := by
  unfold sampleResult runSingleSample
  split_ifs
  · exact Yields.ofExcept _
  · unfold runRagSample
    rcases hreranked : runner.rerankedFor fs job with error | output
    · exact (Yields.ofExcept (.error error)).bind_error
    · refine Yields.bind ?_ (Yields.ofExcept (.ok output))
      -- whatever manager it reads, it has the budget of the runner's own
      intro _ manager hmanager
      refine ⟨hmanager, ?_⟩
      show Yields runner.SameBudget _ ((Prog.atomic fun manager' => .ok ((),
          manager'.recordUsage "retrieval_context"
            (runner.compressWith fs manager job output.results).totalTokens)) >>= fun _ =>
        pure (buildRagCaseResult fs job output.results
          (runner.compressWith fs manager job output.results).chunks) : SampleProg EvalCaseResult)
      refine Yields.bind (a := ()) ?_ (Yields.atomic fun manager hmanager =>
        ⟨rfl, hmanager.recordUsage _⟩)
      show Except.ok _ = Except.ok _
      rw [compressWith_eq hmanager]

/-- A worker takes two actions at most. -/
theorem within_runSingleSample (job : Job) :
    Bounded (fun _ _ => 1) 2 (runner.runSingleSample fs job) := by
  unfold runSingleSample
  split_ifs
  · rcases runGatewaySample fs.toRunnerFunctions job.gateway job.sample <;> exact trivial
  · unfold runRagSample
    rcases runner.rerankedFor fs job with error | output
    · exact trivial
    · refine fun _ manager => ⟨1, le_rfl, fun _ manager' => ⟨0, le_rfl, trivial⟩⟩

theorem forall₂_map {α β γ : Type} {R : β → γ → Prop} {f : α → β} {g : α → γ}
    (h : ∀ a, R (f a) (g a)) (l : List α) : List.Forall₂ R (l.map f) (l.map g) := by
  rw [List.forall₂_map_left_iff, List.forall₂_map_right_iff, List.forall₂_same]
  exact fun a _ => h a

theorem runInOrder_eq (jobs : List Job) :
    runner.runInOrder fs jobs = (jobs.map (runner.sampleResult fs)).mapM id :=
  (Yields.run () (Yields.inOrder (forall₂_map yields_runSingleSample jobs)) rfl).1

theorem settled_submit (jobs : List Job) :
    (runner.submit fs jobs).Settled runner.SameBudget (jobs.map (runner.sampleResult fs)) :=
  ⟨rfl, forall₂_map yields_runSingleSample jobs⟩

theorem collect_run (schedule : List ℕ) (late : ℕ → Bool) (jobs : List Job) :
    ((runner.submit fs jobs).run (schedule.map fun k => (k, ()))).collect timeoutError late
      = if ((runner.submit fs jobs).run (schedule.map fun k => (k, ()))).workers.all Prog.ended
        then some (WorkerPool.await timeoutError late 0 (jobs.map (runner.sampleResult fs)))
        else none :=
  ((settled_submit jobs).run _).collect timeoutError late

theorem ended_run_submit {schedule : List ℕ} {jobs : List Job}
    (hturns : ∀ k < jobs.length, 2 ≤ schedule.count k) :
    ((runner.submit fs jobs).run (schedule.map fun k => (k, ()))).workers.all Prog.ended
      = true := by
  refine WorkerPool.ended_run (n := 2) _ (fun p hp => ?_) fun k hk => ?_
  · obtain ⟨job, -, rfl⟩ := List.mem_map.mp hp
    exact within_runSingleSample job
  · have hmap : (schedule.map fun k => (k, ())).map Prod.fst = schedule := by
      simp [Function.comp_def]
    rw [hmap]
    exact hturns k (by simpa [submit] using hk)

/-- Workers that have had their turns are collected, if no wait for one of them is late. -/
theorem runSamples_of_turns {schedule : List ℕ} {late : ℕ → Bool} {jobs : List Job}
    (hturns : 1 < runner.maxWorkers →
      ∀ k < jobs.length, 2 ≤ schedule.count k ∧ late k = false) :
    runner.runSamples fs schedule late jobs = some (runner.runInOrder fs jobs) := by
  unfold runSamples
  split_ifs with hworkers
  · rfl
  · have hturns := hturns (not_le.mp hworkers)
    have hintime : WorkerPool.await timeoutError late 0 (jobs.map (runner.sampleResult fs))
        = runner.runInOrder fs jobs := by
      rw [runInOrder_eq]
      exact WorkerPool.await_eq fun k _ hk => (hturns k (by simpa using hk)).2
    rw [collect_run, if_pos (ended_run_submit fun k hk => (hturns k hk).1), hintime]

/-- However many workers there are and whichever order they take their turns in, what is collected
is what each sample gives alone, in the order of the samples, unless there are workers and a wait
for one of them is late; and two turns of each are enough. -/
theorem runSamples_any_schedule (fs : EvaluationFunctions) (runner : EvaluationRunner)
    (schedule : List ℕ) (late : ℕ → Bool) (jobs : List Job) :
    runner.runInOrder fs jobs = (jobs.map fun job =>
        ((runner.runSingleSample fs job).run () runner.compressor.budgetManager).1).mapM id
      ∧ (∀ caseResults, runner.runSamples fs schedule late jobs = some caseResults →
        caseResults = runner.runInOrder fs jobs
          ∨ 1 < runner.maxWorkers ∧ (∃ k < jobs.length, late k = true)
            ∧ caseResults = .error timeoutError)
      ∧ ((1 < runner.maxWorkers → ∀ k < jobs.length, 2 ≤ schedule.count k) →
        ∃ caseResults, runner.runSamples fs schedule late jobs = some caseResults) := by
  have halone (job : Job) :
      ((runner.runSingleSample fs job).run () runner.compressor.budgetManager).1
        = runner.sampleResult fs job := ((yields_runSingleSample job).run () rfl).1
  refine ⟨?_, fun caseResults h => ?_, fun hturns => ?_⟩
  · simp only [runInOrder_eq, halone]
  · unfold runSamples at h
    split_ifs at h with hworkers
    · exact .inl (Option.some.inj h).symm
    · rw [collect_run] at h
      split_ifs at h
      obtain rfl := Option.some.inj h
      rcases WorkerPool.await_cases timeoutError late 0
        (jobs.map (runner.sampleResult fs)) with heq | ⟨⟨k, -, hk, hlate⟩, herror⟩
      · exact .inl (by rw [heq, runInOrder_eq])
      · exact .inr ⟨not_le.mp hworkers, ⟨k, by simpa using hk, hlate⟩, herror⟩
  · unfold runSamples
    split_ifs with hworkers
    · exact ⟨_, rfl⟩
    · rw [collect_run, if_pos (ended_run_submit (hturns (not_le.mp hworkers)))]
      exact ⟨_, rfl⟩

end EvaluationRunner

end AgentLearning.Evaluation
