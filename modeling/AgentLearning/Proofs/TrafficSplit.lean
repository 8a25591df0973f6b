import Mathlib.Algebra.Order.BigOperators.Group.List
import Mathlib.Data.List.Dedup
import Mathlib.Tactic.Linarith
import Mathlib.Tactic.NormNum
import AgentLearning.AbRouter

/-!
# How the traffic is split

The shares that are not negative cut the numbers from 0 to their sum into intervals, one for each
variant, and a bucket lies in exactly one of them, as the last bucket is further below 100 than the
sum may be. The interval of a share of zero is empty. With two variants the first one has the
buckets below its share, so a larger share has more of them.
-/

namespace AgentLearning.AbRouter

/-! ## Intervals -/

section Intervals

variable {variants : List VariantAllocation} {bucket start : ℚ} {i j : ℕ}

/-- Where the interval of a variant begins. -/
def prefixSum (variants : List VariantAllocation) (i : ℕ) : ℚ :=
  ((variants.take i).map (·.percentage)).sum

/-- The bucket is in the interval of this variant. -/
def Contains (variants : List VariantAllocation) (bucket : ℚ) (i : ℕ) : Prop :=
  prefixSum variants i ≤ bucket ∧ bucket < prefixSum variants (i + 1)

theorem prefixSum_succ_cons (variant : VariantAllocation) :
    prefixSum (variant :: variants) (i + 1) = variant.percentage + prefixSum variants i := by
  simp [prefixSum]

theorem prefixSum_succ (h : i < variants.length) :
    prefixSum variants (i + 1) = prefixSum variants i + variants[i].percentage := by
  rw [prefixSum, prefixSum, ← List.take_concat_get' variants i h, List.map_append, List.sum_append]
  simp

theorem prefixSum_mono (h : ∀ variant ∈ variants, 0 ≤ variant.percentage) (hij : i ≤ j) :
    prefixSum variants i ≤ prefixSum variants j := by
  induction variants generalizing i j with
  | nil => simp [prefixSum]
  | cons variant variants ih =>
    rcases i with _ | i
    · refine List.sum_nonneg fun x hx => ?_
      obtain ⟨v, hv, rfl⟩ := List.mem_map.mp hx
      exact h v (List.mem_of_mem_take hv)
    · obtain ⟨j, rfl⟩ : ∃ k, j = k + 1 := ⟨j - 1, by omega⟩
      rw [prefixSum_succ_cons, prefixSum_succ_cons]
      have := ih (fun v hv => h v (List.mem_cons_of_mem _ hv)) (show i ≤ j by omega)
      linarith

/-- No bucket is in two intervals. -/
theorem Contains.unique (h : ∀ variant ∈ variants, 0 ≤ variant.percentage)
    (hi : Contains variants bucket i) (hj : Contains variants bucket j) : i = j := by
  by_contra hne
  rcases Nat.lt_or_gt_of_ne hne with hlt | hlt
  · have := prefixSum_mono h (show i + 1 ≤ j from hlt)
    linarith [hi.2, hj.1]
  · have := prefixSum_mono h (show j + 1 ≤ i from hlt)
    linarith [hj.2, hi.1]

/-- The loop stops at the variant whose interval has the bucket. -/
theorem selectFrom_eq (hstart : start ≤ bucket)
    (hsum : bucket < start + (variants.map (·.percentage)).sum) :
    ∃ i, ∃ h : i < variants.length, selectFrom bucket start variants = some variants[i].name
      ∧ start + prefixSum variants i ≤ bucket ∧ bucket < start + prefixSum variants (i + 1) := by
  induction variants generalizing start with
  | nil =>
    simp at hsum
    linarith
  | cons variant variants ih =>
    unfold selectFrom
    split_ifs with hlt
    · refine ⟨0, by simp, rfl, ?_, ?_⟩
      · simpa [prefixSum] using hstart
      · simpa [prefixSum] using hlt
    · rw [List.map_cons, List.sum_cons, ← add_assoc] at hsum
      obtain ⟨i, hi, hselect, hbelow, habove⟩ := ih (not_lt.mp hlt) hsum
      refine ⟨i + 1, by simpa using hi, by simpa using hselect, ?_, ?_⟩
      · rwa [prefixSum_succ_cons, ← add_assoc]
      · rwa [prefixSum_succ_cons, ← add_assoc]

end Intervals

/-! ## What the check of a configuration says -/

section Config

variable {config : ExperimentConfig} {sha256 : String → ℕ} {subjectKey : String}

theorem of_validateConfig (h : validateConfig config = .ok ()) :
    |(config.variants.map (·.percentage)).sum - 100| ≤ 1 / 1000000
      ∧ (config.variants.map (·.name)).Nodup := by
  unfold validateConfig at h
  dsimp only at h
  split_ifs at h with hempty hdefault hsum hnames
  refine ⟨not_lt.mp hsum, ?_⟩
  rw [← List.dedup_eq_self]
  refine (List.dedup_sublist _).eq_of_length ?_
  simpa using hnames

theorem bucket_nonneg : 0 ≤ calculateBucket sha256 config.experimentId config.salt subjectKey :=
  div_nonneg (Nat.cast_nonneg _) (by norm_num)

/-- The last bucket is a hundredth below 100. -/
theorem bucket_le : calculateBucket sha256 config.experimentId config.salt subjectKey
    ≤ 9999 / 100 := by
  unfold calculateBucket
  have hlt : sha256 s!"{config.experimentId}:{config.salt}:{subjectKey}" % 10000 ≤ 9999 := by omega
  have hcast : ((sha256 s!"{config.experimentId}:{config.salt}:{subjectKey}" % 10000 : ℕ) : ℚ)
      ≤ 9999 := by exact_mod_cast hlt
  dsimp only
  linarith

end Config

/-! ## The split -/

/-- An experiment that is on and passes the check. -/
structure Running (config : ExperimentConfig) : Prop where
  valid : validateConfig config = .ok ()
  enabled : config.enabled = true

/-- The subject gets the one variant whose interval has its bucket, and a variant with a share. -/
structure RoutedByBucket (sha256 : String → ℕ) (config : ExperimentConfig) (subjectKey : String) :
    Prop where
  routed : ∃ i, ∃ h : i < config.variants.length,
    Contains config.variants (calculateBucket sha256 config.experimentId config.salt subjectKey) i
      ∧ (∀ j, Contains config.variants
        (calculateBucket sha256 config.experimentId config.salt subjectKey) j → j = i)
      ∧ route sha256 config subjectKey none = .ok {
        experimentId := config.experimentId
        subjectKey
        variant := config.variants[i].name
        bucket := calculateBucket sha256 config.experimentId config.salt subjectKey
        reason := "bucket_assignment" }
  selected : selectFrom (calculateBucket sha256 config.experimentId config.salt subjectKey) 0
    config.variants ≠ none
  share : ∀ decision, route sha256 config subjectKey none = .ok decision →
    ∀ variant ∈ config.variants, variant.percentage = 0 → decision.variant ≠ variant.name

/-- No subject is moved against the change of the first share. -/
def MovesWith (sha256 : String → ℕ) (config config' : ExperimentConfig)
    (first first' second : VariantAllocation) : Prop :=
  ∀ subjectKey decision decision', route sha256 config subjectKey none = .ok decision →
    route sha256 config' subjectKey none = .ok decision' →
    (first.percentage ≤ first'.percentage →
      ¬ (decision.variant = first.name ∧ decision'.variant = second.name))
    ∧ (first'.percentage ≤ first.percentage →
      ¬ (decision.variant = second.name ∧ decision'.variant = first.name))

section Split

variable {sha256 : String → ℕ} {config config' : ExperimentConfig} {subjectKey : String}

theorem Running.selectFrom_eq (h : Running config) (sha256 : String → ℕ) (subjectKey : String) :
    ∃ i, ∃ hi : i < config.variants.length,
      selectFrom (calculateBucket sha256 config.experimentId config.salt subjectKey) 0
        config.variants = some config.variants[i].name
      ∧ Contains config.variants
        (calculateBucket sha256 config.experimentId config.salt subjectKey) i := by
  have hsum := (of_validateConfig h.valid).1
  rw [abs_le] at hsum
  have hbucket : calculateBucket sha256 config.experimentId config.salt subjectKey ≤ 9999 / 100 :=
    bucket_le
  have hlt : calculateBucket sha256 config.experimentId config.salt subjectKey
      < 0 + (config.variants.map (·.percentage)).sum := by linarith
  obtain ⟨i, hi, hselect, hbelow, habove⟩ := AbRouter.selectFrom_eq bucket_nonneg hlt
  rw [zero_add] at hbelow habove
  exact ⟨i, hi, hselect, hbelow, habove⟩

theorem Running.route_eq (h : Running config) {name : String}
    (hselect : selectFrom (calculateBucket sha256 config.experimentId config.salt subjectKey) 0
      config.variants = some name) :
    route sha256 config subjectKey none = .ok {
      experimentId := config.experimentId
      subjectKey
      variant := name
      bucket := calculateBucket sha256 config.experimentId config.salt subjectKey
      reason := "bucket_assignment" } := by
  have hvariant : selectVariant config.variants
      (calculateBucket sha256 config.experimentId config.salt subjectKey) = .ok name := by
    rw [selectVariant, hselect]
  simp only [route, h.valid, h.enabled, hvariant, bind, Except.bind, pure, Except.pure]
  rfl

theorem Running.routedByBucket (h : Running config)
    (hnonneg : ∀ variant ∈ config.variants, 0 ≤ variant.percentage) (sha256 : String → ℕ)
    (subjectKey : String) : RoutedByBucket sha256 config subjectKey := by
  obtain ⟨i, hi, hselect, hcontains⟩ := h.selectFrom_eq sha256 subjectKey
  have hroute := h.route_eq hselect
  refine ⟨⟨i, hi, hcontains, fun j hj => hj.unique hnonneg hcontains, hroute⟩,
    by simp [hselect], fun decision hdecision variant hvariant hzero hname => ?_⟩
  rw [hroute] at hdecision
  cases hdecision
  have hsame : config.variants[i] = variant :=
    List.inj_on_of_nodup_map (of_validateConfig h.valid).2 (List.getElem_mem hi) hvariant hname
  have hsum := prefixSum_succ hi
  rw [hsame, hzero, add_zero] at hsum
  exact absurd hcontains.2 (not_lt.mpr (hsum ▸ hcontains.1))

/-- With two variants the first one has the buckets below its share. -/
theorem Running.variant_of_two (h : Running config) {first second : VariantAllocation}
    (hvariants : config.variants = [first, second]) {decision : RoutingDecision}
    (hroute : route sha256 config subjectKey none = .ok decision) :
    first.name ≠ second.name ∧ decision.variant =
      if calculateBucket sha256 config.experimentId config.salt subjectKey < first.percentage then
        first.name else second.name := by
  obtain ⟨i, hi, hselect, -⟩ := h.selectFrom_eq sha256 subjectKey
  rw [h.route_eq hselect] at hroute
  cases hroute
  constructor
  · have hnodup := (of_validateConfig h.valid).2
    rw [hvariants] at hnodup
    simpa using hnodup
  · generalize config.variants[i].name = name at hselect ⊢
    rw [hvariants] at hselect
    simp only [selectFrom, zero_add] at hselect
    split_ifs at hselect ⊢ with hfirst hsecond
    · exact (Option.some.inj hselect).symm
    · exact (Option.some.inj hselect).symm

theorem movesWith {first first' second second' : VariantAllocation} (h : Running config)
    (h' : Running config') (hid : config.experimentId = config'.experimentId)
    (hsalt : config.salt = config'.salt) (hvariants : config.variants = [first, second])
    (hvariants' : config'.variants = [first', second']) (hfirst : first.name = first'.name)
    (hsecond : second.name = second'.name) :
    MovesWith sha256 config config' first first' second := by
  intro subjectKey decision decision' hroute hroute'
  obtain ⟨hne, hvariant⟩ := h.variant_of_two hvariants hroute
  obtain ⟨-, hvariant'⟩ := h'.variant_of_two hvariants' hroute'
  rw [← hid, ← hsalt, ← hfirst, ← hsecond] at hvariant'
  rw [hvariant, hvariant']
  constructor
  · rintro hle ⟨hbefore, hafter⟩
    have hlow : calculateBucket sha256 config.experimentId config.salt subjectKey
        < first.percentage := by
      by_contra hnot
      rw [if_neg hnot] at hbefore
      exact hne hbefore.symm
    rw [if_pos (hlow.trans_le hle)] at hafter
    exact hne hafter
  · rintro hle ⟨hbefore, hafter⟩
    have hhigh : ¬ calculateBucket sha256 config.experimentId config.salt subjectKey
        < first.percentage := by
      intro hlow
      rw [if_pos hlow] at hbefore
      exact hne hbefore
    rw [if_neg fun hlow => hhigh (hlow.trans_le hle)] at hafter
    exact hne hafter.symm

end Split

/-- The traffic of running experiments is split exactly, and a change of the split moves no subject
the other way. -/
theorem traffic_split (sha256 : String → ℕ) :
    (∀ config, Running config → (∀ variant ∈ config.variants, 0 ≤ variant.percentage) →
      ∀ subjectKey, RoutedByBucket sha256 config subjectKey)
    ∧ ∀ config config' first second first' second', Running config → Running config' →
      config.experimentId = config'.experimentId → config.salt = config'.salt →
      config.variants = [first, second] → config'.variants = [first', second'] →
      first.name = first'.name → second.name = second'.name →
      MovesWith sha256 config config' first first' second :=
  ⟨fun _ h hnonneg subjectKey => h.routedByBucket hnonneg sha256 subjectKey,
    fun _ _ _ _ _ _ h h' => movesWith h h'⟩

/-- A share of the first variant that grows from a quarter to a half. -/
theorem traffic_split_quarter :
    RoutedByBucket (fun _ => 3000) ⟨"e", "a", [⟨"a", 25⟩, ⟨"b", 75⟩], true, "default", true⟩ "s"
    ∧ MovesWith (fun _ => 3000) ⟨"e", "a", [⟨"a", 25⟩, ⟨"b", 75⟩], true, "default", true⟩
      ⟨"e", "a", [⟨"a", 50⟩, ⟨"b", 50⟩], true, "default", true⟩ ⟨"a", 25⟩ ⟨"a", 50⟩ ⟨"b", 75⟩ := by
  have hquarter : Running ⟨"e", "a", [⟨"a", 25⟩, ⟨"b", 75⟩], true, "default", true⟩ :=
    ⟨by decide +kernel, rfl⟩
  have hhalf : Running ⟨"e", "a", [⟨"a", 50⟩, ⟨"b", 50⟩], true, "default", true⟩ :=
    ⟨by decide +kernel, rfl⟩
  exact ⟨(traffic_split _).1 _ hquarter (by simp) "s",
    (traffic_split _).2 _ _ _ _ _ ⟨"b", 50⟩ hquarter hhalf rfl rfl rfl rfl rfl rfl⟩

/-- An experiment that is off, with all its traffic at the other variant than the default. -/
theorem not_routedByBucket_disabled :
    ¬ ∀ (sha256 : String → ℕ) config, validateConfig config = .ok () →
      (∀ variant ∈ config.variants, 0 ≤ variant.percentage) → ∀ subjectKey,
      RoutedByBucket sha256 config subjectKey := by
  intro h
  have hvalid : validateConfig
      ⟨"e", "b", [⟨"a", 100⟩, ⟨"b", 0⟩], false, "default", true⟩ = .ok () := by decide +kernel
  have hroute : route (fun _ => 0)
      ⟨"e", "b", [⟨"a", 100⟩, ⟨"b", 0⟩], false, "default", true⟩ "s" none
      = .ok ⟨"e", "s", "b", 0, "experiment_disabled"⟩ := by
    rw [route, hvalid]
    rfl
  exact (h (fun _ => 0) _ hvalid (by simp) "s").share _ hroute ⟨"b", 0⟩ (by simp) rfl rfl

end AgentLearning.AbRouter
