import Mathlib.Tactic.Linarith
import Mathlib.Tactic.NormNum
import AgentLearning.LatencyAnalyzer
import AgentLearning.Lib.OrderStatistic

/-!
# Percentiles by rank

The scorer takes the value at the place before the rounded-up share of the length, which is the
smallest value that the share of the elements is up to. The latency analyzer has the same place for
the 95th percentile; the RAG script is one place further where the length is a multiple of 20.
-/

namespace AgentLearning.Evaluation

variable {values values' : List ℚ} {p q v w : ℚ}

theorem itemAt_eq_ok_iff {α : Type*} {items : List α} {k : ℕ} {x : α} :
    itemAt items (k : ℤ) = .ok x ↔ items[k]? = some x := by
  have hk : ¬ (k : ℤ) < 0 := by omega
  unfold itemAt
  rw [if_neg hk, if_neg hk, Int.toNat_natCast]
  rcases items[k]? with _ | y <;> simp

/-- `int` rounds down where it does not have to round up. -/
theorem intOfFloat_of_nonneg (h : 0 ≤ q) : intOfFloat q = ⌊q⌋ := by
  rw [intOfFloat, Int.tdiv_eq_ediv_of_nonneg (Rat.num_nonneg.mpr h), Rat.floor_def']

/-! ## The scorer -/

/-- The place of the percentile in the sorted list. -/
def percentilePlace (n : ℕ) (p : ℚ) : ℕ := ⌈(n : ℚ) * p⌉.toNat - 1

theorem max_sub_one (z : ℤ) : max 0 (z - 1) = ((z.toNat - 1 : ℕ) : ℤ) := by
  omega

/-- What the scorer returns is the value at its place. -/
theorem computePercentile_eq_ok_iff (hne : values ≠ []) :
    computePercentile values p = .ok v
      ↔ orderStatistic values (percentilePlace values.length p) = some v := by
  unfold computePercentile
  dsimp only
  rw [if_neg (by simpa using hne), List.length_insertionSort, max_sub_one]
  exact itemAt_eq_ok_iff

theorem percentilePlace_lt {n : ℕ} (hn : 0 < n) (hle : p ≤ 1) : percentilePlace n p < n := by
  have hceil : ⌈(n : ℚ) * p⌉ ≤ n := by
    rw [Int.ceil_le]
    exact_mod_cast mul_le_of_le_one_right (Nat.cast_nonneg n) hle
  unfold percentilePlace
  omega

theorem percentilePlace_mono (n : ℕ) (h : p ≤ q) : percentilePlace n p ≤ percentilePlace n q := by
  have hceil : ⌈(n : ℚ) * p⌉ ≤ ⌈(n : ℚ) * q⌉ :=
    Int.ceil_mono (mul_le_mul_of_nonneg_left h (Nat.cast_nonneg n))
  unfold percentilePlace
  omega

/-- More elements are counted than stand before the place if they are the share of the length. -/
theorem percentilePlace_lt_iff {n m : ℕ} (hn : 0 < n) (hp : 0 < p) :
    percentilePlace n p < m ↔ p * n ≤ m := by
  have hpos : 0 < ⌈(n : ℚ) * p⌉ := Int.ceil_pos.mpr (mul_pos (by exact_mod_cast hn) hp)
  have hceil : ⌈(n : ℚ) * p⌉ ≤ m ↔ p * n ≤ m := by
    rw [Int.ceil_le, mul_comm]
    rfl
  rw [← hceil]
  unfold percentilePlace
  omega

theorem exists_computePercentile (hne : values ≠ []) (hle : p ≤ 1) :
    ∃ v, computePercentile values p = .ok v := by
  obtain ⟨v, hv⟩ := Option.isSome_iff_exists.mp
    (orderStatistic_isSome.mpr (percentilePlace_lt (List.length_pos_iff.mpr hne) hle))
  exact ⟨v, (computePercentile_eq_ok_iff hne).mpr hv⟩

theorem computePercentile_perm (hne : values ≠ []) (h : values.Perm values') :
    computePercentile values p = .ok v ↔ computePercentile values' p = .ok v := by
  have hne' : values' ≠ [] := by
    rintro rfl
    exact hne h.eq_nil
  rw [computePercentile_eq_ok_iff hne, computePercentile_eq_ok_iff hne', orderStatistic_perm h,
    h.length_eq]

theorem computePercentile_mono (hne : values ≠ []) (h : p ≤ q)
    (hv : computePercentile values p = .ok v) (hw : computePercentile values q = .ok w) :
    v ≤ w :=
  orderStatistic_mono (percentilePlace_mono _ h) ((computePercentile_eq_ok_iff hne).mp hv)
    ((computePercentile_eq_ok_iff hne).mp hw)

/-- Among the values, the least one that this share of the list is up to. -/
def IsNearestRank (values : List ℚ) (p v : ℚ) : Prop :=
  IsLeast {v | v ∈ values ∧ p * values.length ≤ values.countP (· ≤ v)} v

theorem computePercentile_isNearestRank (hne : values ≠ []) (hp : 0 < p)
    (hv : computePercentile values p = .ok v) : IsNearestRank values p v := by
  have hstat := (computePercentile_eq_ok_iff hne).mp hv
  have hlength := List.length_pos_iff.mpr hne
  refine ⟨⟨mem_of_orderStatistic hstat, ?_⟩, fun w hw => ?_⟩
  · exact (percentilePlace_lt_iff hlength hp).mp ((orderStatistic_le_iff hstat v).mp le_rfl)
  · exact (orderStatistic_le_iff hstat w).mpr ((percentilePlace_lt_iff hlength hp).mpr hw.2)

/-- The percentile is there, it is that of the nearest rank, it does not fall as the share rises,
and the order of the list does not matter. -/
theorem computePercentile_nearest_rank (hne : values ≠ []) (hp : 0 < p) (hle : p ≤ 1) :
    ∃ v, computePercentile values p = .ok v ∧ IsNearestRank values p v
      ∧ (∀ q, p ≤ q → q ≤ 1 → ∃ w, computePercentile values q = .ok w ∧ v ≤ w)
      ∧ ∀ values', values.Perm values' → computePercentile values' p = .ok v := by
  obtain ⟨v, hv⟩ := exists_computePercentile hne hle
  refine ⟨v, hv, computePercentile_isNearestRank hne hp hv, fun q hpq hq => ?_, fun values' h => ?_⟩
  · obtain ⟨w, hw⟩ := exists_computePercentile hne hq
    exact ⟨w, hw, computePercentile_mono hne hpq hv hw⟩
  · exact (computePercentile_perm hne h).mp hv

/-- The median of four values, two of which are equal. -/
theorem computePercentile_nearest_rank_median :
    ∃ v, computePercentile [3, 1, 2, 2] (1 / 2) = .ok v ∧ IsNearestRank [3, 1, 2, 2] (1 / 2) v
      ∧ (∀ q, 1 / 2 ≤ q → q ≤ 1 →
        ∃ w, computePercentile [3, 1, 2, 2] q = .ok w ∧ v ≤ w)
      ∧ ∀ values', [3, 1, 2, 2].Perm values' → computePercentile values' (1 / 2) = .ok v :=
  computePercentile_nearest_rank (by decide) (by norm_num) (by norm_num)

/-! ## The 95th percentile -/

theorem natCast_mul_nineteen (n : ℕ) : (n : ℚ) * (19 / 20) = ((19 * n : ℕ) : ℚ) / 20 := by
  push_cast
  ring

/-- Adding nearly one and cutting off is rounding up a multiple of a twentieth. -/
theorem floor_add_eq_ceil (n : ℕ) :
    ⌊(n : ℚ) * (19 / 20) + 999999 / 1000000⌋ = ⌈(n : ℚ) * (19 / 20)⌉ := by
  set z := ⌈(n : ℚ) * (19 / 20)⌉ with hz
  obtain ⟨hlow, hhigh⟩ := Int.ceil_eq_iff.mp hz.symm
  have hstep : 20 * z - 19 ≤ 19 * n := by
    have hlt : (20 * z - 20 : ℚ) < 19 * n := by linarith
    have hlt' : 20 * z - 20 < 19 * (n : ℤ) := by exact_mod_cast hlt
    omega
  have hstep' : (20 * z - 19 : ℚ) ≤ 19 * n := by exact_mod_cast hstep
  rw [Int.floor_eq_iff]
  constructor <;> linarith

/-- The analyzer has the rank of the scorer. -/
theorem percentile_eq_computePercentile (values : List ℚ) :
    LatencyAnalyzer.percentile values (19 / 20) = computePercentile values (19 / 20) := by
  unfold LatencyAnalyzer.percentile computePercentile
  dsimp only
  rw [intOfFloat_of_nonneg (by positivity), floor_add_eq_ceil]

theorem percentilePlace_nineteen (n : ℕ) :
    percentilePlace n (19 / 20) = (19 * n + 19) / 20 - 1 := by
  have hceil : ⌈(n : ℚ) * (19 / 20)⌉ = ((19 * n + 19) / 20 : ℕ) := by
    rw [Int.ceil_eq_iff, natCast_mul_nineteen]
    have hdiv := Nat.div_add_mod (19 * n + 19) 20
    have hmod := Nat.mod_lt (19 * n + 19) (show 0 < 20 by norm_num)
    set k := (19 * n + 19) / 20
    have hlow : 20 * k < 19 * n + 20 := by omega
    have hhigh : 19 * n ≤ 20 * k := by omega
    have hlow' : (20 * k : ℚ) < ((19 * n : ℕ) : ℚ) + 20 := by exact_mod_cast hlow
    have hhigh' : ((19 * n : ℕ) : ℚ) ≤ 20 * k := by exact_mod_cast hhigh
    push_cast at hlow' hhigh' ⊢
    constructor <;> linarith
  rw [percentilePlace, hceil, Int.toNat_natCast]

/-- The script cuts the share of the length off and takes the value at this place. -/
theorem p95Latency_eq_ok_iff (hne : values ≠ []) : EvalRag.p95Latency values = .ok v
    ↔ orderStatistic values (19 * values.length / 20) = some v := by
  have hcut : intOfFloat ((values.length : ℚ) * (19 / 20)) = (19 * values.length / 20 : ℕ) := by
    rw [intOfFloat_of_nonneg (by positivity), natCast_mul_nineteen]
    exact_mod_cast Rat.floor_natCast_div_natCast (19 * values.length) 20
  unfold EvalRag.p95Latency
  rw [if_pos (by simpa using hne), hcut]
  exact itemAt_eq_ok_iff

/-- All three return the same element of the list. -/
def OneP95 (values : List ℚ) : Prop :=
  ∃ v ∈ values, computePercentile values (19 / 20) = .ok v
    ∧ LatencyAnalyzer.percentile values (19 / 20) = .ok v ∧ EvalRag.p95Latency values = .ok v

theorem oneP95_iff_orderStatistic (hne : values ≠ []) :
    OneP95 values ↔ orderStatistic values ((19 * values.length + 19) / 20 - 1)
      = orderStatistic values (19 * values.length / 20) := by
  have hscorer (v : ℚ) := computePercentile_eq_ok_iff (p := 19 / 20) (v := v) hne
  simp only [percentilePlace_nineteen] at hscorer
  constructor
  · rintro ⟨v, -, hv, -, hv'⟩
    rw [(hscorer v).mp hv, (p95Latency_eq_ok_iff hne).mp hv']
  · intro heq
    obtain ⟨v, hv⟩ := exists_computePercentile (p := 19 / 20) hne (by norm_num)
    have hstat := (hscorer v).mp hv
    refine ⟨v, mem_of_orderStatistic hstat, hv, ?_, ?_⟩
    · rw [percentile_eq_computePercentile, hv]
    · rw [p95Latency_eq_ok_iff hne, ← heq, hstat]

/-- The three agree unless the length is a multiple of 20 and the values on both sides of the 95th
hundredth differ. -/
theorem oneP95_iff (hne : values ≠ []) : OneP95 values ↔ (20 ∣ values.length →
    ∃ v ∈ values, 20 * values.countP (· < v) < 19 * values.length
      ∧ 19 * values.length < 20 * values.countP (· ≤ v)) := by
  have hlength := List.length_pos_iff.mpr hne
  rw [oneP95_iff_orderStatistic hne]
  by_cases hdvd : 20 ∣ values.length
  · obtain ⟨m, hm⟩ := hdvd
    have hbefore : (19 * values.length + 19) / 20 - 1 = 19 * m - 1 := by omega
    have hafter : 19 * values.length / 20 = 19 * m := by omega
    rw [hbefore, hafter, orderStatistic_eq_iff (by omega) (by omega)]
    simp only [hm, dvd_mul_right, forall_const]
    refine exists_congr fun v => and_congr_right fun _ => and_congr ?_ ?_ <;> omega
  · refine iff_of_true ?_ fun h => absurd h hdvd
    have hrest : 19 * values.length % 20 ≠ 0 := by omega
    congr 1
    omega

/-- The length is a multiple of 20, and all values are equal. -/
theorem oneP95_iff_replicate : OneP95 (List.replicate 20 1) ↔
    (20 ∣ (List.replicate 20 (1 : ℚ)).length → ∃ v ∈ List.replicate 20 (1 : ℚ),
      20 * (List.replicate 20 (1 : ℚ)).countP (· < v) < 19 * (List.replicate 20 (1 : ℚ)).length
        ∧ 19 * (List.replicate 20 (1 : ℚ)).length
          < 20 * (List.replicate 20 (1 : ℚ)).countP (· ≤ v)) :=
  oneP95_iff (by decide)

/-- Of 20 different values the script takes the largest and the others the one before. -/
theorem not_oneP95_twenty : ¬ OneP95 ((List.range 20).map fun i : ℕ => (i : ℚ)) := by
  rintro ⟨v, -, hscorer, -, hscript⟩
  have hv : v = 18 := Except.ok.inj (hscorer.symm.trans (by decide +kernel))
  have hv' : v = 19 := Except.ok.inj (hscript.symm.trans (by decide +kernel))
  norm_num [hv] at hv'

end AgentLearning.Evaluation
