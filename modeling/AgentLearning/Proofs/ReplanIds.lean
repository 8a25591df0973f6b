import Mathlib
import AgentLearning.Store
import AgentLearning.Proofs.Replan

/-!
# The ids of replanned steps

A replanned id ends in its version, after the last `v`, so it determines the id it was made from
and the version it was made for (`replanStepId_inj`). Hence ids made for a later version are new,
and the renaming of a replan is injective on the ids of its plan.

`local_replace` is such a renaming of the whole plan, dependencies included. `rollback_retry`
leaves the dependencies of the steps before the failed one as they are: it is a renaming, and its
plan valid, exactly when none of them depends on what is renamed.
-/

namespace AgentLearning

namespace Replanner

open Planner

/-- `"-replan-v" in step_id`. -/
def hasMarker (stepId : String) : Prop := "-replan-v".toList <:+: stepId.toList

instance (stepId : String) : Decidable (hasMarker stepId) :=
  inferInstanceAs (Decidable (_ <:+: _))

theorem append_cons_inj {α : Type*} {v : α} :
    ∀ {a b x y : List α}, v ∉ x → v ∉ y → a ++ v :: x = b ++ v :: y → a = b ∧ x = y
  | [], [], _, _, _, _, h => by simpa using h
  | [], _ :: _, _, _, hx, _, h => by
    rw [List.nil_append, List.cons_append, List.cons.injEq] at h
    exact absurd (h.2 ▸ by simp) hx
  | _ :: _, [], _, _, _, hy, h => by
    rw [List.nil_append, List.cons_append, List.cons.injEq] at h
    exact absurd (h.2 ▸ by simp) hy
  | _ :: a, _ :: b, _, _, hx, hy, h => by
    rw [List.cons_append, List.cons_append, List.cons.injEq] at h
    obtain ⟨rfl, rfl⟩ := append_cons_inj hx hy h.2
    exact ⟨by rw [h.1], rfl⟩

/-- The decimal text of a number is digits only. -/
theorem notMem_natRepr {ch : Char} (h : ch.isDigit = false) (k : ℕ) : ch ∉ k.repr.toList := by
  intro hmem
  rw [Nat.toList_repr] at hmem
  rw [Nat.isDigit_of_mem_toDigits (by decide) (by decide) hmem] at h
  cases h

theorem notMem_repr (n : ℤ) : 'v' ∉ n.repr.toList := by
  cases n with
  | ofNat k => exact notMem_natRepr (by decide) k
  | negSucc k =>
    intro h
    simp only [Int.repr, String.toList_append, List.mem_append] at h
    exact h.elim (by decide) (notMem_natRepr (by decide) _)

theorem toList_replanStepId (x : String) (n : ℤ) :
    (replanStepId x n).toList = (x.toList ++ "-replan-".toList) ++ 'v' :: n.repr.toList := by
  have hv : "-replan-v".toList = "-replan-".toList ++ ['v'] := by decide
  simp only [replanStepId, String.toList_append, Int.toString_eq_repr, hv, List.append_assoc,
    List.singleton_append]

theorem replanStepId_inj {x y : String} {n m : ℤ} :
    replanStepId x n = replanStepId y m ↔ x = y ∧ n = m := by
  constructor
  · intro h
    have hl := congrArg String.toList h
    rw [toList_replanStepId, toList_replanStepId] at hl
    obtain ⟨hx, hn⟩ := append_cons_inj (notMem_repr n) (notMem_repr m) hl
    exact ⟨String.toList_inj.mp (List.append_cancel_right hx),
      Int.repr_inj.mp (String.toList_inj.mp hn)⟩
  · rintro ⟨rfl, rfl⟩
    rfl

theorem hasMarker_replanStepId (x : String) (n : ℤ) : hasMarker (replanStepId x n) := by
  refine ⟨x.toList, n.repr.toList, ?_⟩
  simp only [replanStepId, String.toList_append, Int.toString_eq_repr]

theorem replanStepId_ne_empty (x : String) (n : ℤ) : replanStepId x n ≠ "" := by
  intro h
  have := hasMarker_replanStepId x n
  rw [h] at this
  exact absurd this (by decide)

/-! ## Ids of earlier versions -/

/-- The id was not made for a version after this one. -/
def NotAfter (version : ℤ) (stepId : String) : Prop :=
  ∀ x n, version < n → stepId ≠ replanStepId x n

theorem NotAfter.mono {v w : ℤ} {x : String} (h : NotAfter v x) (hvw : v ≤ w) : NotAfter w x :=
  fun y n hn => h y n (by omega)

theorem notAfter_of_not_hasMarker {x : String} (h : ¬ hasMarker x) (v : ℤ) : NotAfter v x := by
  rintro y n - rfl
  exact h (hasMarker_replanStepId y n)

theorem notAfter_replanStepId (x : String) (v : ℤ) : NotAfter v (replanStepId x v) := by
  intro y n hn h
  have := (replanStepId_inj.mp h).2
  omega

theorem notAfter_of_moved {v : ℤ} {x y : String} (hx : NotAfter v x)
    (h : y = x ∨ y = replanStepId x (v + 1)) : NotAfter (v + 1) y := by
  rcases h with rfl | rfl
  · exact hx.mono (by omega)
  · exact notAfter_replanStepId x (v + 1)

theorem eq_of_moved {v : ℤ} {x y z : String} (hx : NotAfter v x) (hy : NotAfter v y)
    (hxz : z = x ∨ z = replanStepId x (v + 1)) (hyz : z = y ∨ z = replanStepId y (v + 1)) :
    x = y := by
  rcases hxz with rfl | rfl <;> rcases hyz with h | h
  · exact h
  · exact absurd h (hx y (v + 1) (by omega))
  · exact absurd h.symm (hy x (v + 1) (by omega))
  · exact (replanStepId_inj.mp h).1

theorem injOn_replanned (ids : List String) (v : ℤ) :
    Set.InjOn (replanned ids (v + 1)) {x | NotAfter v x} := by
  have hmoved : ∀ x, replanned ids (v + 1) x = x
      ∨ replanned ids (v + 1) x = replanStepId x (v + 1) := by
    intro x
    unfold replanned
    split_ifs <;> simp
  intro x hx y hy h
  exact eq_of_moved hx hy (hmoved x) (h ▸ hmoved y)

/-- If each id stays or is replanned, distinct ids stay distinct. -/
theorem nodup_of_moved {v : ℤ} {l l' : List String}
    (h : List.Forall₂ (fun x y => y = x ∨ y = replanStepId x (v + 1)) l l') :
    (∀ x ∈ l, NotAfter v x) → (∀ y ∈ l', ∃ x ∈ l, y = x ∨ y = replanStepId x (v + 1))
      ∧ (l.Nodup → l'.Nodup) := by
  induction h with
  | nil => simp
  | @cons x y l l' hxy h ih =>
    intro hl
    obtain ⟨hx, hl⟩ := List.forall_mem_cons.mp hl
    obtain ⟨hmem, hnd⟩ := ih hl
    refine ⟨List.forall_mem_cons.mpr ⟨⟨x, by simp, hxy⟩, fun z hz => ?_⟩, fun hnodup => ?_⟩
    · obtain ⟨w, hw, hwz⟩ := hmem z hz
      exact ⟨w, List.mem_cons_of_mem _ hw, hwz⟩
    · rw [List.nodup_cons] at hnodup ⊢
      refine ⟨fun hy => ?_, hnd hnodup.2⟩
      obtain ⟨w, hw, hwy⟩ := hmem y hy
      exact hnodup.1 (eq_of_moved hx (hl w hw) hxy hwy ▸ hw)

/-- The ids of the plan are distinct, and none was made for a later version. -/
structure FreshIds (plan : ExecutionPlan) : Prop where
  nodup : plan.stepIds.Nodup
  notAfter : ∀ id ∈ plan.stepIds, NotAfter plan.planVersion id

theorem freshIds_of_not_hasMarker {plan : ExecutionPlan} (hnd : plan.stepIds.Nodup)
    (hplain : ∀ x ∈ plan.stepIds, ¬ hasMarker x) : FreshIds plan :=
  ⟨hnd, fun x hx => notAfter_of_not_hasMarker (hplain x hx) _⟩

theorem FreshIds.replans {plan plan' : ExecutionPlan} (h : FreshIds plan)
    (hr : Replans plan plan') : FreshIds plan' := by
  have hmoved : List.Forall₂ (fun x y => y = x ∨ y = replanStepId x (plan.planVersion + 1))
      plan.stepIds plan'.stepIds := by
    rw [← hr.planVersion]
    exact List.forall₂_map_left_iff.mpr (List.forall₂_map_right_iff.mpr hr.steps)
  obtain ⟨hmem, hnd⟩ := nodup_of_moved hmoved h.notAfter
  refine ⟨hnd h.nodup, fun id hid => ?_⟩
  obtain ⟨x, hx, hxid⟩ := hmem id hid
  rw [hr.planVersion]
  exact notAfter_of_moved (h.notAfter x hx) hxid

theorem replanned_ne_empty {ids : List String} {v : ℤ} {x : String} (h : x ≠ "") :
    replanned ids v x ≠ "" := by
  unfold replanned
  split_ifs
  · exact replanStepId_ne_empty x v
  · exact h

/-! ## `local_replace` -/

section LocalReplace

variable {plan : ExecutionPlan} {tools : List String} {failed : PlanStep}

/-- The goals after a `local_replace` of the step. -/
def replacedGoal (failed step : PlanStep) : String :=
  if step.stepId = failed.stepId then step.goal ++ " (replanned)" else step.goal

theorem localReplace_plan (h : Accepted plan tools) (hs : failed ∈ plan.steps)
    (decision : ReplanDecision) : (localReplace plan failed decision).plan
      = plan.rename (replanned [failed.stepId] (plan.planVersion + 1)) (replacedGoal failed)
          (plan.planVersion + 1) := by
  simp only [localReplace, ExecutionPlan.rename]
  congr 1
  refine List.map_congr_left fun step hstep => ?_
  by_cases he : step.stepId = failed.stepId
  · -- the replaced step keeps its own dependencies, and they do not name it
    obtain rfl := List.inj_on_of_nodup_map h.nodup hstep hs he
    have hdeps : step.dependsOn.map (replanned [step.stepId] (plan.planVersion + 1))
        = step.dependsOn := by
      refine (List.map_congr_left fun d hd => ?_).trans (List.map_id _)
      refine replanned_of_notMem fun hmem => h.notMem_dependsOn hstep ?_
      rwa [← List.mem_singleton.mp hmem]
    simp [PlanStep.rename, replacedGoal, replanned_of_mem, hdeps]
  · simp [PlanStep.rename, replacedGoal, he, replanned_singleton]

theorem injOn_stepIds (hplain : ∀ x ∈ plan.stepIds, ¬ hasMarker x) (ids : List String) (v : ℤ) :
    Set.InjOn (replanned ids (v + 1)) {x | x ∈ plan.stepIds} :=
  (injOn_replanned ids v).mono fun x hx => notAfter_of_not_hasMarker (hplain x hx) v

/-- `local_replace` is the renaming of the failed id, dependencies included: injective on the
plan's ids, with the same depths, and accepted again. -/
theorem localReplace_renames (h : validatePlan plan tools = .ok ())
    (hplain : ∀ x ∈ plan.stepIds, ¬ hasMarker x) (hs : failed ∈ plan.steps)
    (decision : ReplanDecision) :
    let version := plan.planVersion + 1
    let ρ := replanned [failed.stepId] version
    let outcome := localReplace plan failed decision
    ρ failed.stepId = replanStepId failed.stepId version
      ∧ (∀ x, x ≠ failed.stepId → ρ x = x)
      ∧ Set.InjOn ρ {x | x ∈ plan.stepIds}
      ∧ outcome.plan = plan.rename ρ (replacedGoal failed) version
      ∧ (∀ step ∈ outcome.plan.steps, failed.stepId ∉ step.dependsOn)
      ∧ (∃ depths depths', buildDepthMap plan = .ok depths
        ∧ buildDepthMap outcome.plan = .ok depths'
        ∧ ∀ x ∈ plan.stepIds, ∃ n, depths.get? x = some n ∧ depths'.get? (ρ x) = some n)
      ∧ outcome.stepIdMappings = [⟨failed.stepId, ρ failed.stepId, version⟩]
      ∧ validatePlan outcome.plan tools = .ok () := by
  intro version ρ outcome
  have ha := validatePlan_ok_iff.mp h
  have hfailed : ρ failed.stepId = replanStepId failed.stepId version :=
    replanned_of_mem (by simp)
  have hother : ∀ x, x ≠ failed.stepId → ρ x = x := fun x hx => replanned_of_notMem (by simpa)
  have hinj : Set.InjOn ρ {x | x ∈ plan.stepIds} := injOn_stepIds hplain _ _
  have hplan : outcome.plan = plan.rename ρ (replacedGoal failed) version :=
    localReplace_plan ha hs decision
  refine ⟨hfailed, hother, hinj, hplan, ?_, ?_, ?_, ?_⟩
  · intro step hstep hmem
    rw [hplan] at hstep
    obtain ⟨old, -, rfl⟩ := List.mem_map.mp hstep
    obtain ⟨d, -, hd⟩ := List.mem_map.mp hmem
    by_cases he : d = failed.stepId
    · rw [he, hfailed] at hd
      exact hplain _ (ExecutionPlan.mem_stepIds hs) (hd ▸ hasMarker_replanStepId _ _)
    · exact he ((hother d he).symm.trans hd)
  · obtain ⟨depths, hd⟩ := ha.buildDepthMap_ok
    obtain ⟨depths', hd', -, hget⟩ := buildDepthMap_rename (replacedGoal failed) version
      ha hinj hd
    rw [hplan]
    refine ⟨depths, depths', hd, hd', fun x hx => ?_⟩
    obtain ⟨n, hn⟩ := get?_buildDepthMap hd hx
    exact ⟨n, hn, (hget x hx).trans hn⟩
  · rw [hfailed]
    rfl
  · rw [hplan]
    refine validatePlan_ok_iff.mpr (ha.rename hinj (fun x hx => ?_) fun step hstep => ?_)
    · obtain ⟨step, hstep, rfl⟩ := List.mem_map.mp hx
      exact replanned_ne_empty (ha.fields step hstep).stepId
    · unfold replacedGoal
      split_ifs
      · intro he
        have := congrArg String.toList he
        simp at this
      · exact (ha.fields step hstep).goal

theorem localReplace_renames_diamond :
    let plan := samplePlan [sampleStep "a" [], sampleStep "b" ["a"], sampleStep "c" ["a", "a"],
      sampleStep "d" ["b", "c"]]
    validatePlan (localReplace plan (sampleStep "a" []) (buildDecision none "step_failed")).plan
      ["t"] = .ok () := by
  intro plan
  have haccepted : validatePlan plan ["t"] = .ok () := by decide +kernel
  have hmem : sampleStep "a" [] ∈ plan.steps := by simp [plan, samplePlan]
  exact (localReplace_renames haccepted (by decide +kernel) hmem
    (buildDecision none "step_failed")).2.2.2.2.2.2.2

end LocalReplace

/-! ## `rollback_retry` -/

section RollbackRetry

variable {plan : ExecutionPlan} {tools : List String} {failed : PlanStep}
  {pre post : List PlanStep}

theorem stepIds_append (hsteps : plan.steps = pre ++ failed :: post) :
    plan.stepIds = pre.map PlanStep.stepId ++ (failed :: post).map PlanStep.stepId := by
  rw [ExecutionPlan.stepIds, hsteps, List.map_append]

/-- Under distinct ids a step of the prefix is none of those that are renamed. -/
theorem notMem_suffix (hnd : plan.stepIds.Nodup) (hsteps : plan.steps = pre ++ failed :: post)
    {x : String} (hx : x ∈ pre.map PlanStep.stepId) :
    x ∉ (failed :: post).map PlanStep.stepId := by
  rw [stepIds_append hsteps] at hnd
  exact List.disjoint_of_nodup_append hnd hx

/-- The goals after a `rollback_retry` that keeps the steps of these ids. -/
def rolledBackGoal (kept : List String) (step : PlanStep) : String :=
  if step.stepId ∈ kept then step.goal else step.goal ++ " (rollback-replan)"

/-- Where no step of the prefix depends on what is renamed, the rollback renames the plan. -/
theorem rollback_eq_rename (hnd : plan.stepIds.Nodup)
    (hsteps : plan.steps = pre ++ failed :: post)
    (hdeps : ∀ step ∈ pre, ∀ d ∈ step.dependsOn, d ∉ (failed :: post).map PlanStep.stepId) :
    rollback plan pre (failed :: post)
      = plan.rename (replanned ((failed :: post).map PlanStep.stepId) (plan.planVersion + 1))
          (rolledBackGoal (pre.map PlanStep.stepId)) (plan.planVersion + 1) := by
  simp only [rollback, ExecutionPlan.rename, hsteps, List.map_append]
  congr 2
  · refine ((List.map_congr_left fun step hs => ?_).trans (List.map_id _)).symm
    have hid := List.mem_map_of_mem (f := PlanStep.stepId) hs
    have hmap : step.dependsOn.map (replanned ((failed :: post).map PlanStep.stepId)
        (plan.planVersion + 1)) = step.dependsOn := by
      refine (List.map_congr_left fun d hd => ?_).trans (List.map_id _)
      exact replanned_of_notMem (hdeps step hs d hd)
    simp only [PlanStep.rename, rolledBackGoal, if_pos hid, hmap,
      replanned_of_notMem (notMem_suffix hnd hsteps hid), id]
  · refine List.map_congr_left fun step hs => ?_
    have hid : step.stepId ∉ pre.map PlanStep.stepId := fun hmem =>
      notMem_suffix hnd hsteps hmem (List.mem_map_of_mem hs)
    simp only [rolledBackGoal, if_neg hid]

/-- The plan of a `rollback_retry` is accepted again exactly when no step that stands before the
failed one depends on the failed step or on one after it. -/
theorem rollbackRetry_accepted_iff (h : validatePlan plan tools = .ok ())
    (hplain : ∀ x ∈ plan.stepIds, ¬ hasMarker x) (hsteps : plan.steps = pre ++ failed :: post)
    (decision : ReplanDecision) :
    (∃ outcome, rollbackRetry plan failed decision = .ok outcome
        ∧ validatePlan outcome.plan tools = .ok ())
      ↔ ∀ step ∈ pre, ∀ d ∈ step.dependsOn, d ∉ (failed :: post).map PlanStep.stepId := by
  have ha := validatePlan_ok_iff.mp h
  have hpre : ∀ step ∈ pre, step.stepId ≠ failed.stepId := fun step hs he =>
    notMem_suffix ha.nodup hsteps (List.mem_map_of_mem hs) (by simp [he])
  have heq := rollbackRetry_eq hsteps rfl hpre decision
  constructor
  · rintro ⟨outcome, hout, hacc⟩ step hs d hd
    rw [heq] at hout
    cases hout
    have hnew := (validatePlan_ok_iff.mp hacc).known step (List.mem_append_left _ hs) d hd
    have hold : d ∈ plan.stepIds := ha.known step (by simp [hsteps, hs]) d hd
    simp only [rollback, ExecutionPlan.stepIds, List.map_append, List.map_map,
      List.mem_append] at hnew
    rcases hnew with hnew | hnew
    · exact notMem_suffix ha.nodup hsteps hnew
    · obtain ⟨t, ht, rfl⟩ := List.mem_map.mp hnew
      refine absurd (hasMarker_replanStepId t.stepId (plan.planVersion + 1)) ?_
      rw [← replanned_of_mem (List.mem_map_of_mem ht)]
      exact hplain _ hold
  · intro hdeps
    refine ⟨_, heq, ?_⟩
    simp only [rollback_eq_rename ha.nodup hsteps hdeps]
    refine validatePlan_ok_iff.mpr (ha.rename (injOn_stepIds hplain _ _) (fun x hx => ?_)
      fun step hstep => ?_)
    · obtain ⟨step, hstep, rfl⟩ := List.mem_map.mp hx
      exact replanned_ne_empty (ha.fields step hstep).stepId
    · unfold rolledBackGoal
      split_ifs
      · exact (ha.fields step hstep).goal
      · intro he
        have := congrArg String.toList he
        simp at this

theorem rollbackRetry_accepted_in_order :
    ∃ outcome, rollbackRetry (samplePlan [sampleStep "p" [], sampleStep "q" ["p"]])
        (sampleStep "q" ["p"]) (buildDecision none "step_failed") = .ok outcome
      ∧ validatePlan outcome.plan ["t"] = .ok () := by
  have hsteps : (samplePlan [sampleStep "p" [], sampleStep "q" ["p"]]).steps
    = [sampleStep "p" []] ++ sampleStep "q" ["p"] :: [] := rfl
  exact (rollbackRetry_accepted_iff (by decide +kernel) (by decide +kernel) hsteps
    (buildDecision none "step_failed")).mpr (by simp [sampleStep])

/-- A step listed before the failed one that depends on it is left with a dependency that is no
step of the new plan. -/
theorem rollbackRetry_dangling :
    let failed := sampleStep "q" []
    let plan := samplePlan [sampleStep "p" ["q"], failed]
    validatePlan plan ["t"] = .ok () ∧ (∀ x ∈ plan.stepIds, ¬ hasMarker x)
      ∧ (∃ outcome, rollbackRetry plan failed (buildDecision none "step_failed") = .ok outcome
        ∧ validatePlan outcome.plan ["t"]
          = .error (.valueError "step p depends on unknown step: q")) :=
  ⟨by decide +kernel, by decide +kernel, _, rfl, by decide +kernel⟩

end RollbackRetry

end Replanner

end AgentLearning
