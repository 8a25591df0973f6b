import Mathlib.Data.Sum.Order
import AgentLearning.ErrorBucket
import AgentLearning.Proofs.ExpectedErrors
import AgentLearning.Proofs.GroupMetrics

/-!
# The two histograms of the failures

The buckets of the analyzer are the failed results by error code, as in the summary of the scorer.
They are sorted by priority, count and code, and a name and a number have no order; so if a name and
a number have one priority and one count, every sort raises, and otherwise the entries agree with
the failure buckets.
-/

namespace AgentLearning.Evaluation

namespace ErrorBucketAnalyzer

variable {caseResults : List EvalCaseResult}

/-! ## The buckets -/

/-- The failed results, in order. -/
def failed (caseResults : List EvalCaseResult) : List EvalCaseResult :=
  caseResults.filter fun result => !result.success

/-- The failed results with this code. -/
def failedWith (caseResults : List EvalCaseResult) (code : CaseError) : List EvalCaseResult :=
  (failed caseResults).filter fun result => bucketName result = code

/-- The entry of a code. -/
def entryOf (caseResults : List EvalCaseResult) (code : CaseError) : ErrorBucketEntry where
  category := classifyCategory code
  errorCode := code
  priority := priorityOf code
  count := (failedWith caseResults code).length
  sampleIds := (failedWith caseResults code).map (·.sampleId)

theorem foldl_addSample (results : List EvalCaseResult) : ∀ entry : ErrorBucketEntry,
    results.foldl addSample entry = { entry with
      count := entry.count + results.length
      sampleIds := entry.sampleIds ++ results.map (·.sampleId) } := by
  induction results with
  | nil =>
    intro entry
    simp
  | cons result results ih =>
    intro entry
    rw [List.foldl_cons, ih, addSample]
    simp [Nat.add_assoc, Nat.add_comm 1]

theorem groupKey_eq_iff {result : EvalCaseResult} {code : CaseError} :
    groupKey result = (classifyCategory code, code) ↔ bucketName result = code := by
  unfold groupKey
  simp only [Prod.mk.injEq]
  constructor
  · exact And.right
  · rintro rfl
    exact ⟨rfl, rfl⟩

theorem grouped_eq : grouped caseResults
    = Dict.foldBy groupKey newEntry addSample (failed caseResults) := rfl

theorem get?_grouped (code : CaseError) :
    (grouped caseResults).get? (classifyCategory code, code)
      = if code ∈ (failed caseResults).map bucketName then some (entryOf caseResults code)
        else none := by
  have hmem : (classifyCategory code, code) ∈ (failed caseResults).map groupKey
      ↔ code ∈ (failed caseResults).map bucketName := by
    simp only [List.mem_map, groupKey_eq_iff]
  have hfold : ((failed caseResults).filter fun result =>
        groupKey result = (classifyCategory code, code)).foldl addSample
        (newEntry (classifyCategory code, code)) = entryOf caseResults code := by
    rw [foldl_addSample]
    simp [newEntry, entryOf, failedWith, groupKey_eq_iff]
  rw [grouped_eq, Dict.get?_foldBy]
  by_cases hcode : code ∈ (failed caseResults).map bucketName
  · rw [if_pos hcode, if_pos (hmem.mpr hcode)]
    exact congrArg some hfold
  · rw [if_neg hcode, if_neg (mt hmem.mp hcode)]

theorem key_of_get?_grouped {key : String × CaseError} {entry : ErrorBucketEntry}
    (h : (grouped caseResults).get? key = some entry) :
    key = (classifyCategory entry.errorCode, entry.errorCode) := by
  have hkey : key ∈ (failed caseResults).map groupKey :=
    (Dict.mem_keys_foldBy _ _ _).mp ((Dict.mem_keys_iff _ _).mpr (Option.isSome_of_mem h))
  obtain ⟨result, -, rfl⟩ := List.mem_map.mp hkey
  have heq : groupKey result = (classifyCategory (bucketName result), bucketName result) := rfl
  rw [heq, get?_grouped] at h
  split_ifs at h
  cases h
  rfl

theorem mem_values_grouped {entry : ErrorBucketEntry} :
    entry ∈ (grouped caseResults).values
      ↔ ∃ code ∈ (failed caseResults).map bucketName, entry = entryOf caseResults code := by
  rw [Dict.mem_values_iff fun _ _ h => (key_of_get?_grouped h).symm, get?_grouped]
  constructor
  · intro h
    split_ifs at h with hcode
    exact ⟨_, hcode, (Option.some.inj h).symm⟩
  · rintro ⟨code, hcode, rfl⟩
    exact if_pos hcode

theorem nodup_errorCodes : ((grouped caseResults).values.map (·.errorCode)).Nodup := by
  refine List.Nodup.of_map (fun code => (classifyCategory code, code)) ?_
  rw [List.map_map]
  exact Dict.nodup_map_values fun _ _ h => (key_of_get?_grouped h).symm

/-! ## The order -/

/-- The key as an element of an order, where the codes are ordered by `f`. -/
def sortKey {κ : Type} (f : CaseError → κ) (entry : ErrorBucketEntry) : ℕ ×ₗ ℤ ×ₗ κ :=
  toLex (entry.priority, toLex (-(entry.count : ℤ), f entry.errorCode))

/-- Names before numbers. -/
def namesFirst : CaseError → String ⊕ₗ ℕ
  | .name s => toLex (.inl s)
  | .number n => toLex (.inr n)

/-- Numbers before names. -/
def numbersFirst : CaseError → ℕ ⊕ₗ String
  | .name s => toLex (.inr s)
  | .number n => toLex (.inl n)

theorem extends_namesFirst : ComparisonSort.Extends namesFirst CaseError.lt := by
  rintro (s | n) (t | m) less h <;> cases h <;> simp [namesFirst]

theorem extends_numbersFirst : ComparisonSort.Extends numbersFirst CaseError.lt := by
  rintro (s | n) (t | m) less h <;> cases h <;> simp [numbersFirst]

theorem sortKey_lt_iff {κ : Type} [LinearOrder κ] {f : CaseError → κ}
    {item other : ErrorBucketEntry} : sortKey f item < sortKey f other
      ↔ item.priority < other.priority ∨ item.priority = other.priority
        ∧ (other.count < item.count ∨ item.count = other.count
          ∧ f item.errorCode < f other.errorCode) := by
  unfold sortKey
  simp only [Prod.Lex.toLex_lt_toLex, neg_lt_neg_iff, neg_inj, Nat.cast_lt, Nat.cast_inj]

theorem extends_sortKey {κ : Type} [LinearOrder κ] {f : CaseError → κ}
    (hf : ComparisonSort.Extends f CaseError.lt) :
    ComparisonSort.Extends (sortKey f) keyLt := by
  intro item other less h
  unfold keyLt at h
  by_cases hpriority : item.priority = other.priority
  · by_cases hcount : item.count = other.count
    · by_cases hcode : item.errorCode = other.errorCode
      · simp only [hpriority, hcount, hcode, ne_eq, not_true_eq_false, if_false, if_true,
          Except.ok.injEq] at h
        simp [sortKey_lt_iff, hpriority, hcount, hcode, ← h]
      · simp only [hpriority, hcount, hcode, ne_eq, not_true_eq_false, if_false] at h
        simp [sortKey_lt_iff, hpriority, hcount, ← hf _ _ less h]
    · simp only [hpriority, hcount, ne_eq, not_true_eq_false, not_false_eq_true, if_false,
        if_true, Except.ok.injEq] at h
      simp [sortKey_lt_iff, hpriority, hcount, ← h]
  · simp only [hpriority, ne_eq, not_false_eq_true, if_true, Except.ok.injEq] at h
    simp [sortKey_lt_iff, hpriority, ← h]

/-- A name and a number among the codes of the failed results, of one priority and equally often. -/
def MixedTie (caseResults : List EvalCaseResult) : Prop :=
  ∃ s n, .name s ∈ (failed caseResults).map bucketName
    ∧ .number n ∈ (failed caseResults).map bucketName
    ∧ priorityOf (.name s) = priorityOf (.number n)
    ∧ (failedWith caseResults (.name s)).length = (failedWith caseResults (.number n)).length

/-- Without such a tie any two entries can be compared. -/
theorem exists_keyLt (hmixed : ¬ MixedTie caseResults) {item other : ErrorBucketEntry}
    (hitem : item ∈ (grouped caseResults).values) (hother : other ∈ (grouped caseResults).values) :
    ∃ less, keyLt item other = .ok less := by
  obtain ⟨code, hcode, rfl⟩ := mem_values_grouped.mp hitem
  obtain ⟨code', hcode', rfl⟩ := mem_values_grouped.mp hother
  unfold keyLt
  split_ifs with hpriority hcount hsame
  · exact ⟨_, rfl⟩
  · exact ⟨_, rfl⟩
  · exact ⟨_, rfl⟩
  · rw [not_not] at hpriority hcount
    rcases code with s | n <;> rcases code' with t | m
    · exact ⟨_, rfl⟩
    · exact absurd ⟨s, m, hcode, hcode', hpriority, hcount⟩ hmixed
    · exact absurd ⟨t, n, hcode', hcode, hpriority.symm, hcount.symm⟩ hmixed
    · exact ⟨_, rfl⟩

variable (sorted : ComparisonSort)

theorem sortBy_grouped (hmixed : ¬ MixedTie caseResults) :
    sorted.sortBy keyLt (grouped caseResults).values
      = .ok ((grouped caseResults).values.insertionSort fun item other =>
        sortKey namesFirst item ≤ sortKey namesFirst other) := by
  refine sorted.sortBy_eq_ok fun item hitem other hother => ?_
  obtain ⟨less, hless⟩ := exists_keyLt hmixed hitem hother
  rw [hless, extends_sortKey extends_namesFirst item other less hless]

/-- Names first and numbers first both extend what can be compared, so with such a tie every sort
raises. -/
theorem buildTopn_eq_error (hmixed : MixedTie caseResults) (limit : ℤ) :
    ∃ e, buildTopn sorted caseResults limit = .error e := by
  obtain ⟨s, n, hs, hn, hpriority, hcount⟩ := hmixed
  have hname := mem_values_grouped.mpr ⟨_, hs, rfl⟩
  have hnumber := mem_values_grouped.mpr ⟨_, hn, rfl⟩
  have hlt : sortKey namesFirst (entryOf caseResults (.name s))
      < sortKey namesFirst (entryOf caseResults (.number n)) := by
    rw [sortKey_lt_iff]
    exact .inr ⟨hpriority, .inr ⟨hcount, Sum.Lex.inl_lt_inr _ _⟩⟩
  have hlt' : sortKey numbersFirst (entryOf caseResults (.number n))
      < sortKey numbersFirst (entryOf caseResults (.name s)) := by
    rw [sortKey_lt_iff]
    exact .inr ⟨hpriority.symm, .inr ⟨hcount.symm, Sum.Lex.inl_lt_inr _ _⟩⟩
  obtain ⟨e, he⟩ := sorted.sortBy_eq_error (extends_sortKey extends_namesFirst)
    (extends_sortKey extends_numbersFirst) hname hnumber hlt hlt'
  refine ⟨e, ?_⟩
  unfold buildTopn
  rw [he]
  rfl

/-! ## Agreement -/

/-- The codes are in order, which a name and a number never are. -/
def CodeLe : CaseError → CaseError → Prop
  | .name s, .name t => s ≤ t
  | .number n, .number m => n ≤ m
  | _, _ => False

/-- By priority, falling count and code. -/
def InOrder (item other : ErrorBucketEntry) : Prop :=
  item.priority < other.priority ∨ item.priority = other.priority
    ∧ (other.count < item.count ∨ item.count = other.count
      ∧ CodeLe item.errorCode other.errorCode)

/-- The entries agree with the failure buckets of the summary: one for each bucket, with its count
and the failed samples in order. -/
structure HistogramsAgree (entries : List ErrorBucketEntry) (caseResults : List EvalCaseResult)
    (summary : EvalSummary) : Prop where
  codes : (entries.map (·.errorCode)).Perm summary.failureBuckets.keys
  count : ∀ entry ∈ entries, summary.failureBuckets.get? entry.errorCode = some entry.count
  samples : ∀ entry ∈ entries,
    entry.sampleIds = (failedWith caseResults entry.errorCode).map (·.sampleId)

/-- For each limit that is not below the number of failures, the analyzer returns entries in order
that agree with the summary. -/
def TopnAgrees (caseResults : List EvalCaseResult) : Prop :=
  ∀ limit : ℤ, (failed caseResults).length ≤ limit →
    ∃ entries, buildTopn sorted caseResults limit = .ok entries ∧ entries.Pairwise InOrder
      ∧ ∀ pstdev datasetName summary,
        aggregateResults caseResults pstdev datasetName = .ok summary →
          HistogramsAgree entries caseResults summary

theorem mem_errorCodes {code : CaseError} :
    code ∈ (grouped caseResults).values.map (·.errorCode)
      ↔ code ∈ (failed caseResults).map bucketName := by
  rw [List.mem_map]
  constructor
  · rintro ⟨entry, hentry, rfl⟩
    obtain ⟨code, hcode, rfl⟩ := mem_values_grouped.mp hentry
    exact hcode
  · exact fun hcode => ⟨_, mem_values_grouped.mpr ⟨code, hcode, rfl⟩, rfl⟩

theorem length_grouped_le : (grouped caseResults).values.length ≤ (failed caseResults).length := by
  have hsub : ((grouped caseResults).values.map (·.errorCode)).Subperm
      ((failed caseResults).map bucketName) :=
    List.subperm_of_subset nodup_errorCodes fun _ => mem_errorCodes.mp
  simpa using hsub.length_le

theorem inOrder_of_sortKey_le (hmixed : ¬ MixedTie caseResults) {item other : ErrorBucketEntry}
    (hitem : item ∈ (grouped caseResults).values) (hother : other ∈ (grouped caseResults).values)
    (h : sortKey namesFirst item ≤ sortKey namesFirst other) : InOrder item other := by
  obtain ⟨code, hcode, rfl⟩ := mem_values_grouped.mp hitem
  obtain ⟨code', hcode', rfl⟩ := mem_values_grouped.mp hother
  unfold sortKey at h
  simp only [Prod.Lex.toLex_le_toLex, neg_lt_neg_iff, neg_inj, Nat.cast_lt, Nat.cast_inj] at h
  rcases h with h | ⟨hpriority, h | ⟨hcount, h⟩⟩
  · exact .inl h
  · exact .inr ⟨hpriority, .inl h⟩
  · refine .inr ⟨hpriority, .inr ⟨hcount, ?_⟩⟩
    rcases code with s | n <;> rcases code' with t | m
    · exact Sum.Lex.inl_le_inl_iff.mp h
    · exact absurd ⟨s, m, hcode, hcode', hpriority, hcount⟩ hmixed
    · exact absurd ⟨t, n, hcode', hcode, hpriority.symm, hcount.symm⟩ hmixed
    · exact Sum.Lex.inr_le_inr_iff.mp h

theorem get?_buildFailureBuckets (code : CaseError) :
    (buildFailureBuckets caseResults).get? code
      = if code ∈ (failed caseResults).map bucketName then some (failedWith caseResults code).length
        else none := by
  unfold buildFailureBuckets
  rw [Dict.get?_countBy, List.countP_eq_length_filter]
  rfl

/-- Entries in any order agree with the summary. -/
theorem histogramsAgree_of_perm {entries : List ErrorBucketEntry} {summary : EvalSummary}
    (hentries : entries.Perm (grouped caseResults).values)
    (hbuckets : summary.failureBuckets = buildFailureBuckets caseResults) :
    HistogramsAgree entries caseResults summary := by
  refine ⟨?_, fun entry hentry => ?_, fun entry hentry => ?_⟩
  · refine (hentries.map _).trans ?_
    rw [hbuckets]
    refine (List.perm_ext_iff_of_nodup nodup_errorCodes (Dict.nodup_keys _)).mpr fun code => ?_
    rw [mem_errorCodes, Dict.mem_keys_iff, get?_buildFailureBuckets]
    split_ifs with hcode <;> simp [hcode]
  · obtain ⟨code, hcode, rfl⟩ := mem_values_grouped.mp (hentries.mem_iff.mp hentry)
    rw [hbuckets, get?_buildFailureBuckets]
    exact if_pos hcode
  · obtain ⟨code, hcode, rfl⟩ := mem_values_grouped.mp (hentries.mem_iff.mp hentry)
    rfl

/-- The histograms agree unless a name and a number of one priority come equally often. -/
theorem topnAgrees_iff (caseResults : List EvalCaseResult) :
    TopnAgrees sorted caseResults ↔ ¬ MixedTie caseResults := by
  constructor
  · intro h hmixed
    obtain ⟨entries, hentries, -⟩ := h _ le_rfl
    obtain ⟨e, he⟩ := buildTopn_eq_error sorted hmixed (failed caseResults).length
    rw [he] at hentries
    cases hentries
  · intro hmixed limit hlimit
    set entries := (grouped caseResults).values.insertionSort fun item other =>
      sortKey namesFirst item ≤ sortKey namesFirst other with hentries
    have hperm : entries.Perm (grouped caseResults).values := List.perm_insertionSort _ _
    have hall : firstEntries entries limit = entries := by
      have hlength : entries.length ≤ (failed caseResults).length := by
        rw [hperm.length_eq]
        exact length_grouped_le
      unfold firstEntries
      rw [if_neg (by omega)]
      exact List.take_of_length_le (by omega)
    refine ⟨entries, ?_, ?_, fun pstdev datasetName summary hsummary => ?_⟩
    · unfold buildTopn
      rw [sortBy_grouped sorted hmixed]
      exact congrArg Except.ok hall
    · refine (List.pairwise_insertionSort _ _).imp_of_mem fun hitem hother h => ?_
      exact inOrder_of_sortKey_le hmixed (hperm.mem_iff.mp hitem) (hperm.mem_iff.mp hother) h
    · refine histogramsAgree_of_perm hperm ?_
      have hne : caseResults ≠ [] := by
        rintro rfl
        cases hsummary
      obtain ⟨-, -, -, -, -, -, -, -, -, hbuckets, -⟩ := aggregateResults_spec hne hsummary
      exact hbuckets

/-- A public caller who looks up a merchant, and the first adversarial sample. -/
def mixedSamples : List EvalSample :=
  [{ id := "merchant_lookup_public"
     category := "gateway"
     query := "merchant lookup internal"
     expectedAnswer := "PASS"
     toolName := some "merchant_lookup"
     toolParams := [("merchant_id", .str "m-100")] },
   adv001]

/-- The one was not authorized, and the parameters of the other lack a field. -/
def mixedFailures : List EvalCaseResult :=
  [{ sampleId := "merchant_lookup_public"
     category := "gateway"
     difficulty := "medium"
     success := false
     answer := ""
     expectedAnswer := "PASS"
     answerF1 := 0
     latencyMs := (stillReadings.finish - stillReadings.start) * 1000
     traceId := some "trace-merchant_lookup_public-00000000"
     sessionId := some "sess-merchant_lookup_public"
     errorCode := some (.name "unauthorized")
     stepOutcomes := ((∅ : Dict String Bool).set "validation" true).set "authorization" false
     authDenied := true
     auditEntries := 1
     inputTokens := 3 },
   { sampleId := "adv_001"
     category := "gateway"
     difficulty := "easy"
     success := false
     answer := ""
     expectedAnswer := ""
     answerF1 := 0
     latencyMs := (stillReadings.finish - stillReadings.start) * 1000
     traceId := some "trace-adv_001-00000000"
     sessionId := some "sess-adv_001"
     errorCode := some (.number 1004)
     stepOutcomes := (∅ : Dict String Bool).set "validation" false
     validationRejected := true
     auditEntries := 1
     inputTokens := 4 }]

/-- The runner produces them. Both have priority 3 and come once, and a name and a number cannot be
compared. -/
theorem not_topnAgrees_mixedFailures :
    mixedSamples.mapM (runGatewaySample plainFunctions stillReadings) = .ok mixedFailures
      ∧ ¬ TopnAgrees .insertion mixedFailures := by
  refine ⟨by rfl, fun h => ?_⟩
  obtain ⟨entries, hentries, -⟩ := h 2 (by decide)
  have herror : (buildTopn .insertion mixedFailures 2).isOk = false := by decide +kernel
  rw [hentries] at herror
  cases herror

end ErrorBucketAnalyzer

end AgentLearning.Evaluation
