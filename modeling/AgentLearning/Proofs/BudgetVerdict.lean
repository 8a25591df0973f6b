import Mathlib.Algebra.Order.BigOperators.Group.List
import Mathlib.Tactic.FieldSimp
import Mathlib.Tactic.Linarith
import AgentLearning.ErrorBudget

/-!
# When the budget is called exhausted

What is left of the budget is rounded before it is compared, so that half a ten-thousandth of it
and less counts as nothing. A target of 1 allows no failure, and then the budget is called exhausted
as soon as anything is observed.
-/

namespace AgentLearning

open Gateway (roundHalfEven)

/-! ## Rounding -/

theorem roundHalfEven_nonpos_iff (q : ℚ) : roundHalfEven q ≤ 0 ↔ q ≤ 1 / 2 := by
  have hlow := Int.floor_le q
  have hhigh := Int.lt_floor_add_one q
  unfold roundHalfEven
  dsimp only
  rcases lt_trichotomy ⌊q⌋ 0 with hfloor | hfloor | hfloor
  · have hcast : ((⌊q⌋ : ℤ) : ℚ) + 1 ≤ 0 := by exact_mod_cast hfloor
    refine iff_of_true ?_ (by linarith)
    split_ifs <;> omega
  · simp only [hfloor, Int.cast_zero, sub_zero]
    split_ifs with hdown hup hodd
    · exact iff_of_true le_rfl hdown.le
    · exact iff_of_false (by norm_num) (not_le.mpr hup)
    · exact iff_of_true le_rfl (not_lt.mp hup)
    · exact absurd rfl hodd
  · have hcast : (1 : ℚ) ≤ ((⌊q⌋ : ℤ) : ℚ) := by exact_mod_cast hfloor
    refine iff_of_false ?_ (by linarith)
    split_ifs <;> omega

theorem roundTenThousandths_nonpos_iff (q : ℚ) : roundTenThousandths q ≤ 0 ↔ q ≤ 1 / 20000 := by
  have hround : roundTenThousandths q ≤ 0 ↔ roundHalfEven (q * 10000) ≤ 0 := by
    rw [roundTenThousandths, div_le_iff₀ (by norm_num), zero_mul]
    exact_mod_cast Iff.rfl
  rw [hround, roundHalfEven_nonpos_iff]
  constructor <;> intro h <;> linarith

/-! ## What is recorded -/

namespace Recording

def total : Recording → ℤ
  | .record _ => 1
  | .recordBatch total _ => total

def bad : Recording → ℤ
  | .record success => if success then 0 else 1
  | .recordBatch _ bad => bad

/-- Not more failures than observations. -/
def Counts (recording : Recording) : Prop := 0 ≤ recording.bad ∧ recording.bad ≤ recording.total

end Recording

def observations (recordings : List Recording) : ℤ := (recordings.map (·.total)).sum

def failures (recordings : List Recording) : ℤ := (recordings.map (·.bad)).sum

section Recorded

variable {recordings : List Recording}

theorem failures_nonneg (h : ∀ recording ∈ recordings, recording.Counts) :
    0 ≤ failures recordings := by
  refine List.sum_nonneg fun n hn => ?_
  obtain ⟨recording, hrecording, rfl⟩ := List.mem_map.mp hn
  exact (h _ hrecording).1

theorem failures_le_observations (h : ∀ recording ∈ recordings, recording.Counts) :
    failures recordings ≤ observations recordings :=
  List.sum_le_sum fun _ hrecording => (h _ hrecording).2

end Recorded

/-! ## The tracker -/

namespace ErrorBudgetTracker

variable {tracker : ErrorBudgetTracker} {recordings : List Recording} {sloTarget : ℚ}
  {floatRepr : ℚ → String}

theorem exec_eq (tracker : ErrorBudgetTracker) (recording : Recording) :
    tracker.exec recording = { tracker with
      total := tracker.total + recording.total
      bad := tracker.bad + recording.bad } := by
  rcases recording with (_ | _) | ⟨total, bad⟩ <;> simp [exec, record, recordBatch,
    Recording.total, Recording.bad]

theorem run_eq (tracker : ErrorBudgetTracker) (recordings : List Recording) :
    tracker.run recordings = { tracker with
      total := tracker.total + observations recordings
      bad := tracker.bad + failures recordings } := by
  induction recordings generalizing tracker with
  | nil => simp [run, observations, failures]
  | cons recording recordings ih =>
    rw [run, List.foldl_cons, ← run, ih, exec_eq]
    simp [observations, failures, add_assoc]

theorem remaining_of_total_eq_zero (h : tracker.total = 0) : tracker.snapshot.remaining = 1 := by
  rw [snapshot, if_pos h]

/-- With a target of 1 any observation leaves nothing. -/
theorem remaining_of_sloTarget_eq_one (htotal : tracker.total ≠ 0) (h : tracker.sloTarget = 1) :
    tracker.snapshot.remaining = 0 := by
  have hallowed : ¬ (0 : ℚ) < tracker.total * (1 - tracker.sloTarget) := by simp [h]
  simp only [snapshot, if_neg htotal, if_neg hallowed, unburnt]
  decide +kernel

/-- What is left is rounded, so that the last ten-thousandth is halved. -/
theorem remaining_nonpos_iff (htotal : 0 < tracker.total) (h : tracker.sloTarget < 1) :
    tracker.snapshot.remaining ≤ 0
      ↔ 19999 / 20000 * ((1 - tracker.sloTarget) * tracker.total) ≤ tracker.bad := by
  have hcast : (0 : ℚ) < tracker.total := by exact_mod_cast htotal
  have hallowed : (0 : ℚ) < tracker.total * (1 - tracker.sloTarget) :=
    mul_pos hcast (by linarith)
  simp only [snapshot, if_neg htotal.ne', if_pos hallowed, unburnt]
  rw [roundTenThousandths_nonpos_iff, max_le_iff, sub_le_comm, le_div_iff₀ hallowed]
  constructor
  · rintro ⟨-, hle⟩
    linarith
  · intro hle
    exact ⟨by norm_num, by linarith⟩

end ErrorBudgetTracker

/-! ## The gate -/

namespace GateFunction

variable (floatRepr : ℚ → String) (gate : GateFunction) (alerts : List AlertEvent)
  (compositeScore : Option CompositeScore) (snap : ErrorBudgetSnapshot)

/-- The other rules do not give the reason of the budget. -/
theorem reason_not_mem_decide_none :
    "error budget exhausted" ∉ (gate.decide floatRepr alerts compositeScore none).reasons := by
  have halert (n : ℕ) : "error budget exhausted" ≠ s!"{n} P1 alert(s) firing" := fun h => by
    have hlast := congrArg (fun reason => reason.toList.getLast?) h
    have hfiring : (toString " P1 alert(s) firing").toList.getLast? = some 'g' := rfl
    simp [String.toList_append, hfiring] at hlast
  have hscore (score threshold : String) :
      "error budget exhausted" ≠ s!"score {score} " ++ s!"< threshold {threshold}" := fun h => by
    have hhead := congrArg (fun reason => reason.toList.head?) h
    have hword : (toString "score ").toList.head? = some 's' := rfl
    simp [String.toList_append, hword] at hhead
  rintro hmem
  simp only [decide, List.append_nil, List.mem_append] at hmem
  rcases hmem with hmem | hmem
  · split_ifs at hmem
    · exact halert _ (List.mem_singleton.mp hmem)
    · exact List.not_mem_nil hmem
  · rcases compositeScore with _ | compositeScore
    · exact List.not_mem_nil hmem
    · dsimp only at hmem
      split_ifs at hmem
      · exact hscore _ _ (List.mem_singleton.mp hmem)
      · exact List.not_mem_nil hmem

theorem decide_some_of_pos (h : 0 < snap.remaining) :
    gate.decide floatRepr alerts compositeScore (some snap)
      = gate.decide floatRepr alerts compositeScore none := by
  simp only [decide, if_neg (not_le.mpr h)]

theorem decide_some_of_nonpos (h : snap.remaining ≤ 0) :
    gate.decide floatRepr alerts compositeScore (some snap)
      = { gate.decide floatRepr alerts compositeScore none with
        passed := false
        reasons := (gate.decide floatRepr alerts compositeScore none).reasons
          ++ ["error budget exhausted"]
        budgetOk := false } := by
  simp only [decide, if_pos h]
  simp

end GateFunction

/-! ## The verdict -/

/-- There are failures, and no fewer than are allowed. -/
def UsedUp (sloTarget : ℚ) (total bad : ℤ) : Prop := 0 < bad ∧ (1 - sloTarget) * total ≤ bad

/-- No failure is allowed and there is none, or what is left is lost in the rounding. -/
def Misjudged (sloTarget : ℚ) (total bad : ℤ) : Prop :=
  sloTarget = 1 ∧ 0 < total ∧ bad = 0
    ∨ sloTarget < 1 ∧ bad < (1 - sloTarget) * total
      ∧ 19999 / 20000 * ((1 - sloTarget) * total) ≤ bad

/-- The tracker calls the budget exhausted if it is used up and only then, and so does the gate,
which otherwise decides as if it had not been asked about the budget. -/
structure ExactVerdict (floatRepr : ℚ → String) (tracker : ErrorBudgetTracker) (usedUp : Prop) :
    Prop where
  exhausted : tracker.isBudgetExhausted = true ↔ usedUp
  budgetOk : ∀ (gate : GateFunction) alerts compositeScore,
    (gate.decide floatRepr alerts compositeScore (some tracker.snapshot)).budgetOk = false ↔ usedUp
  reason : ∀ (gate : GateFunction) alerts compositeScore,
    "error budget exhausted"
      ∈ (gate.decide floatRepr alerts compositeScore (some tracker.snapshot)).reasons ↔ usedUp
  blocked : usedUp → ∀ (gate : GateFunction) alerts compositeScore,
    (gate.decide floatRepr alerts compositeScore (some tracker.snapshot)).passed = false
  spared : ¬ usedUp → ∀ (gate : GateFunction) alerts compositeScore,
    gate.decide floatRepr alerts compositeScore (some tracker.snapshot)
      = gate.decide floatRepr alerts compositeScore none

section Verdict

variable {floatRepr : ℚ → String} {tracker : ErrorBudgetTracker} {recordings : List Recording}
  {sloTarget : ℚ} {usedUp : Prop}

/-- The gate goes by what is left, as the tracker does. -/
theorem exactVerdict_iff_remaining :
    ExactVerdict floatRepr tracker usedUp ↔ (tracker.snapshot.remaining ≤ 0 ↔ usedUp) := by
  have hexhausted : tracker.isBudgetExhausted = true ↔ tracker.snapshot.remaining ≤ 0 :=
    decide_eq_true_iff
  constructor
  · rintro h
    rw [← hexhausted, h.exhausted]
  · rintro h
    by_cases hleft : tracker.snapshot.remaining ≤ 0
    · have hused := h.mp hleft
      refine ⟨hexhausted.trans h, fun gate alerts score => ?_, fun gate alerts score => ?_,
        fun _ gate alerts score => ?_, fun hnot => absurd hused hnot⟩ <;>
        rw [gate.decide_some_of_nonpos floatRepr alerts score _ hleft]
      · exact iff_of_true rfl hused
      · exact iff_of_true (by simp) hused
    · have hspared := h.not.mp hleft
      have hpos := not_le.mp hleft
      refine ⟨hexhausted.trans h, fun gate alerts score => ?_, fun gate alerts score => ?_,
        fun hused => absurd hused hspared, fun _ gate alerts score =>
          gate.decide_some_of_pos floatRepr alerts score _ hpos⟩ <;>
        rw [gate.decide_some_of_pos floatRepr alerts score _ hpos]
      · exact iff_of_false (by simp [GateFunction.decide]) hspared
      · exact iff_of_false (gate.reason_not_mem_decide_none floatRepr alerts score) hspared

/-- What is left compares with zero as it should. -/
def Judged (tracker : ErrorBudgetTracker) : Prop :=
  tracker.snapshot.remaining ≤ 0 ↔ UsedUp tracker.sloTarget tracker.total tracker.bad

theorem judged_of_total_eq_zero (htotal : tracker.total = 0) (hbad : tracker.bad = 0) :
    Judged tracker ∧ ¬ Misjudged tracker.sloTarget tracker.total tracker.bad := by
  rw [Judged, ErrorBudgetTracker.remaining_of_total_eq_zero htotal, UsedUp, Misjudged, htotal, hbad]
  constructor <;> norm_num

theorem judged_iff_of_sloTarget_eq_one (h : tracker.sloTarget = 1) (hnonneg : 0 ≤ tracker.bad)
    (htotal : 0 < tracker.total) :
    Judged tracker ↔ ¬ Misjudged tracker.sloTarget tracker.total tracker.bad := by
  rw [Judged, ErrorBudgetTracker.remaining_of_sloTarget_eq_one htotal.ne' h, UsedUp, Misjudged, h]
  simp [htotal]
  omega

theorem judged_iff_of_sloTarget_lt (h : tracker.sloTarget < 1) (htotal : 0 < tracker.total) :
    Judged tracker ↔ ¬ Misjudged tracker.sloTarget tracker.total tracker.bad := by
  rw [Judged, ErrorBudgetTracker.remaining_nonpos_iff htotal h, UsedUp, Misjudged]
  have hallowed : 0 < (1 - tracker.sloTarget) * tracker.total :=
    mul_pos (by linarith) (by exact_mod_cast htotal)
  rw [or_iff_right fun hone => h.ne hone.1]
  by_cases hused : (1 - tracker.sloTarget) * tracker.total ≤ tracker.bad
  · have hsome : 0 < tracker.bad := by exact_mod_cast hallowed.trans_le hused
    refine iff_of_true (iff_of_true (by linarith) ⟨hsome, hused⟩) ?_
    rintro ⟨-, hnot, -⟩
    exact absurd hused (not_le.mpr hnot)
  · -- The verdict is wrong just if what is left is lost.
    simp only [hused, and_false, iff_false, h, true_and, not_le.mp hused]

theorem judged_iff (hnonneg : 0 ≤ tracker.bad) (hle : tracker.bad ≤ tracker.total) :
    Judged tracker ↔ ¬ Misjudged tracker.sloTarget tracker.total tracker.bad := by
  rcases (hnonneg.trans hle).eq_or_lt with hzero | htotal
  · exact iff_of_true (judged_of_total_eq_zero hzero.symm (by omega)).1
      (judged_of_total_eq_zero hzero.symm (by omega)).2
  · rcases tracker.sloTarget_le.eq_or_lt with hone | hlt
    · exact judged_iff_of_sloTarget_eq_one hone hnonneg htotal
    · exact judged_iff_of_sloTarget_lt hlt htotal

/-- A tracker that has been made for a target and has seen some recordings. -/
theorem create_run_eq (floatRepr : ℚ → String) (recordings : List Recording) (hpos : 0 < sloTarget)
    (hle : sloTarget ≤ 1) : ∃ tracker,
    ErrorBudgetTracker.create floatRepr sloTarget = .ok tracker
      ∧ (tracker.run recordings).sloTarget = sloTarget
      ∧ (tracker.run recordings).total = observations recordings
      ∧ (tracker.run recordings).bad = failures recordings := by
  refine ⟨⟨sloTarget, 0, 0, hpos, hle⟩, dif_pos ⟨hpos, hle⟩, ?_⟩
  rw [ErrorBudgetTracker.run_eq]
  simp

/-- The verdict is exact unless no failure is allowed and there is none, or so little is left that
it is lost in the rounding. -/
theorem exactVerdict_iff (floatRepr : ℚ → String) (hpos : 0 < sloTarget) (hle : sloTarget ≤ 1)
    (hcounts : ∀ recording ∈ recordings, recording.Counts) : ∃ tracker,
    ErrorBudgetTracker.create floatRepr sloTarget = .ok tracker
      ∧ (ExactVerdict floatRepr (tracker.run recordings)
          (UsedUp sloTarget (observations recordings) (failures recordings))
        ↔ ¬ Misjudged sloTarget (observations recordings) (failures recordings)) := by
  obtain ⟨tracker, hcreate, htarget, htotal, hbad⟩ :=
    create_run_eq floatRepr recordings hpos hle
  have hnonneg : 0 ≤ (tracker.run recordings).bad := hbad ▸ failures_nonneg hcounts
  have hbadLe : (tracker.run recordings).bad ≤ (tracker.run recordings).total := by
    rw [hbad, htotal]
    exact failures_le_observations hcounts
  have hjudged := judged_iff hnonneg hbadLe
  rw [Judged, htarget, htotal, hbad] at hjudged
  exact ⟨tracker, hcreate, exactVerdict_iff_remaining.trans hjudged⟩

/-- A tenth of the failures is allowed, and one of eleven is seen. -/
theorem exactVerdict_iff_eleven : ∃ tracker,
    ErrorBudgetTracker.create (fun _ => "0.9") (9 / 10) = .ok tracker
      ∧ (ExactVerdict (fun _ => "0.9") (tracker.run [.recordBatch 10 1, .record true])
          (UsedUp (9 / 10) (observations [.recordBatch 10 1, .record true])
            (failures [.recordBatch 10 1, .record true]))
        ↔ ¬ Misjudged (9 / 10) (observations [.recordBatch 10 1, .record true])
          (failures [.recordBatch 10 1, .record true])) :=
  exactVerdict_iff _ (by norm_num) (by norm_num)
    (by simp [Recording.Counts, Recording.total, Recording.bad])

/-- A tenth of a million failures is allowed, and there is one less. -/
theorem not_exactVerdict_rounded :
    ¬ ∀ (floatRepr : ℚ → String) (sloTarget : ℚ) recordings, 0 < sloTarget → sloTarget ≤ 1 →
      (∀ recording ∈ recordings, recording.Counts) → ∃ tracker,
      ErrorBudgetTracker.create floatRepr sloTarget = .ok tracker
        ∧ ExactVerdict floatRepr (tracker.run recordings)
          (UsedUp sloTarget (observations recordings) (failures recordings)) := by
  intro h
  obtain ⟨tracker, hcreate, hverdict⟩ := h (fun _ => "0.9") (9 / 10) [.recordBatch 1000000 99999]
    (by norm_num) (by norm_num) (by simp [Recording.Counts, Recording.total, Recording.bad])
  obtain rfl : (⟨9 / 10, 0, 0, by norm_num, by norm_num⟩ : ErrorBudgetTracker) = tracker := by
    unfold ErrorBudgetTracker.create at hcreate
    rw [dif_pos (by norm_num)] at hcreate
    exact Except.ok.inj hcreate
  have hused := hverdict.exhausted.mp (by decide +kernel)
  have hallowed := hused.2
  simp only [observations, failures, List.map_cons, List.map_nil, List.sum_cons, List.sum_nil,
    Recording.total, Recording.bad] at hallowed
  norm_num at hallowed

end Verdict

end AgentLearning
