import AgentLearning.Lib.DagPaths
import AgentLearning.Proofs.Validate

/-!
# The graph of a plan

The cycle check of a plan is exact, and so are the depths that its limits are checked against: a
step is as deep as the longest chain of dependencies that ends in it. The limits themselves are
exact for all plans with steps. A plan without steps has no deepest one, and the check of the depth
raises where the check of the parallelism takes zero.
-/

namespace AgentLearning

open Dag Relation

namespace ExecutionPlan

variable {plan : ExecutionPlan}

/-- The step with this id depends on the other. -/
def DependsOn (plan : ExecutionPlan) (stepId dependencyStepId : String) : Prop :=
  ∃ step ∈ plan.steps, step.stepId = stepId ∧ dependencyStepId ∈ step.dependsOn

theorem edge_dependencies (hnd : plan.stepIds.Nodup) :
    Edge plan.dependencies = plan.DependsOn := by
  ext x d
  constructor
  · intro hd
    by_cases hx : x ∈ plan.stepIds
    · obtain ⟨step, hs, rfl⟩ := List.mem_map.mp hx
      rw [Edge, dependencies_eq hnd hs] at hd
      exact ⟨step, hs, rfl, hd⟩
    · rw [Edge, dependencies_of_notMem hx] at hd
      simp at hd
  · rintro ⟨step, hs, rfl, hd⟩
    rwa [Edge, dependencies_eq hnd hs]

/-- Some step depends on itself, possibly by way of others. -/
def Cyclic (plan : ExecutionPlan) : Prop := ∃ stepId, TransGen plan.DependsOn stepId stepId

/-- The length of the longest chain of dependencies that ends in the step. -/
def HasDepth (plan : ExecutionPlan) (stepId : String) (depth : ℕ) : Prop :=
  Longest plan.DependsOn stepId depth

def TooDeep (plan : ExecutionPlan) : Prop :=
  ∃ stepId ∈ plan.stepIds, ∃ n : ℕ, ChainTo plan.DependsOn stepId n
    ∧ plan.graphLimits.maxDepth < n

/-- More steps than the limit share one depth. -/
def TooWide (plan : ExecutionPlan) : Prop :=
  ∃ depth, ∃ stepIds : List String, stepIds ≠ [] ∧ stepIds.Nodup
    ∧ (∀ stepId ∈ stepIds, stepId ∈ plan.stepIds ∧ plan.HasDepth stepId depth)
    ∧ plan.graphLimits.maxParallel < stepIds.length

end ExecutionPlan

namespace Planner

variable {plan : ExecutionPlan}

/-! ## Cycles -/

theorem transGen_of_validateAcyclic {error : PyError}
    (h : validateAcyclic plan = .error error) :
    ∃ stepId, TransGen (Edge plan.dependencies) stepId stepId
      ∧ error = .valueError s!"cycle detected at step: {stepId}" := by
  have hfuel : validateAcyclic plan ≠ .error .recursionError := validateAcyclic_ne_recursionError
  unfold validateAcyclic at h hfuel
  rcases hf : plan.stepIds.foldlM (dfs plan.dependencies plan.traversalFuel) {} with stop | st <;>
    rw [hf] at h hfuel
  · cases h
    rcases stop with stepId | _
    · refine ⟨stepId, ?_, rfl⟩
      refine foldlM_cycle (v := []) (fun hs hv hpath => ?_) plan.stepIds {} trivial rfl
        (fun a _ => List.isChain_singleton a) hf
      exact dfs_cycle _ hs (by rwa [hv])
    · exact absurd rfl hfuel
  · cases h

theorem validateAcyclic_eq_ok_iff (hnd : plan.stepIds.Nodup) :
    validateAcyclic plan = .ok () ↔ ¬ plan.Cyclic := by
  rw [ExecutionPlan.Cyclic, ← ExecutionPlan.edge_dependencies hnd]
  constructor
  · rintro h ⟨stepId, hcycle⟩
    obtain ⟨order, hl, hmem⟩ := depsLater_of_validateAcyclic h
    obtain ⟨d, hd, -⟩ := TransGen.head'_iff.mp hcycle
    rw [ExecutionPlan.edge_dependencies hnd] at hd
    obtain ⟨step, hs, rfl, -⟩ := hd
    exact hl.not_transGen (hmem _ (ExecutionPlan.mem_stepIds hs)) hcycle
  · intro h
    rcases hcheck : validateAcyclic plan with error | _
    · obtain ⟨stepId, hcycle, -⟩ := transGen_of_validateAcyclic hcheck
      exact absurd ⟨stepId, hcycle⟩ h
    · rfl

/-- The cycle check passes exactly the plans without a cycle, and what it reports is on one. -/
theorem validateAcyclic_exact (plan : ExecutionPlan) (hnd : plan.stepIds.Nodup) :
    (validateAcyclic plan = .ok () ↔ ¬ plan.Cyclic)
      ∧ ∀ error, validateAcyclic plan = .error error →
        ∃ stepId, TransGen plan.DependsOn stepId stepId
          ∧ error = .valueError s!"cycle detected at step: {stepId}" := by
  refine ⟨validateAcyclic_eq_ok_iff hnd, fun error => ?_⟩
  rw [← ExecutionPlan.edge_dependencies hnd]
  exact transGen_of_validateAcyclic

/-- Two steps that depend on each other do not pass. -/
theorem validateAcyclic_exact_two_steps :
    validateAcyclic (samplePlan [sampleStep "a" ["b"], sampleStep "b" ["a", "a"]]) ≠ .ok () := by
  intro h
  refine (validateAcyclic_exact _ (by decide)).1.mp h ⟨"a", .head (b := "b") ?_ (.single ?_)⟩
  · exact ⟨sampleStep "a" ["b"], by simp [samplePlan], rfl, by simp [sampleStep]⟩
  · exact ⟨sampleStep "b" ["a", "a"], by simp [samplePlan], rfl, by simp [sampleStep]⟩

/-! ## Depths -/

/-- The depth map has every step and nothing else, with its depth. -/
structure DepthsOf (plan : ExecutionPlan) (depths : Dict String ℕ) : Prop where
  isSome_iff : ∀ stepId, (depths.get? stepId).isSome ↔ stepId ∈ plan.stepIds
  hasDepth : ∀ {stepId depth}, depths.get? stepId = some depth → plan.HasDepth stepId depth

theorem depthsOf_buildDepthMap (hnd : plan.stepIds.Nodup)
    (hknown : ∀ step ∈ plan.steps, ∀ d ∈ step.dependsOn, d ∈ plan.stepIds)
    (hacyclic : ¬ plan.Cyclic) :
    ∃ depths, buildDepthMap plan = .ok depths ∧ DepthsOf plan depths := by
  have hclosed := fun x d => known_dependencies (x := x) (d := d) hnd hknown
  obtain ⟨depths, hdepths⟩ :=
    buildDepthMap_isOk hclosed ((validateAcyclic_eq_ok_iff hnd).mpr hacyclic)
  refine ⟨depths, hdepths, ?_⟩
  unfold buildDepthMap at hdepths
  rcases hmap : depthMap plan.dependencies plan.traversalFuel ∅ plan.stepIds with _ | cache <;>
    rw [hmap] at hdepths
  · cases hdepths
  cases hdepths
  have hsound := depthMap_sound (p := fun id => id ∈ plan.stepIds) (fun x _ => hclosed x)
    sound_empty (fun _ hid => hid) hmap
  refine ⟨fun stepId => ⟨fun h => ?_, (depthMap_extends _ hmap).2 stepId⟩, fun h => ?_⟩
  · obtain ⟨depth, hdepth⟩ := Option.isSome_iff_exists.mp h
    exact (hsound stepId depth hdepth).1
  · rw [ExecutionPlan.HasDepth, ← ExecutionPlan.edge_dependencies hnd]
    exact (hsound _ _ h).2

namespace DepthsOf

variable {depths : Dict String ℕ} (h : DepthsOf plan depths)

include h

theorem mem_entries_iff {stepId : String} {depth : ℕ} : (stepId, depth) ∈ depths.entries
    ↔ stepId ∈ plan.stepIds ∧ plan.HasDepth stepId depth := by
  rw [← Dict.get?_eq_some_iff]
  constructor
  · intro hget
    exact ⟨(h.isSome_iff stepId).mp (by simp [hget]), h.hasDepth hget⟩
  · rintro ⟨hid, hdepth⟩
    obtain ⟨k, hk⟩ := Option.isSome_iff_exists.mp ((h.isSome_iff stepId).mpr hid)
    rw [hk, (h.hasDepth hk).unique hdepth]

theorem mem_values_iff {depth : ℕ} :
    depth ∈ depths.values ↔ ∃ stepId ∈ plan.stepIds, plan.HasDepth stepId depth := by
  rw [Dict.values, List.mem_map]
  constructor
  · rintro ⟨⟨stepId, depth⟩, hentry, rfl⟩
    exact ⟨stepId, h.mem_entries_iff.mp hentry⟩
  · rintro ⟨stepId, hid, hdepth⟩
    exact ⟨(stepId, depth), h.mem_entries_iff.mpr ⟨hid, hdepth⟩, rfl⟩

theorem exists_hasDepth {stepId : String} (hid : stepId ∈ plan.stepIds) :
    ∃ depth ∈ depths.values, plan.HasDepth stepId depth := by
  obtain ⟨depth, hdepth⟩ := Option.isSome_iff_exists.mp ((h.isSome_iff stepId).mpr hid)
  have hhas := h.hasDepth hdepth
  exact ⟨depth, h.mem_values_iff.mpr ⟨stepId, hid, hhas⟩, hhas⟩

theorem values_ne_nil (hne : plan.steps ≠ []) : depths.values ≠ [] := by
  obtain ⟨step, hs⟩ := List.exists_mem_of_ne_nil _ hne
  obtain ⟨depth, hdepth, -⟩ := h.exists_hasDepth (ExecutionPlan.mem_stepIds hs)
  exact List.ne_nil_of_mem hdepth

/-- Distinct steps of one depth are as many as the map has at most. -/
theorem length_le_count {depth : ℕ} {stepIds : List String} (hnd : stepIds.Nodup)
    (hall : ∀ stepId ∈ stepIds, stepId ∈ plan.stepIds ∧ plan.HasDepth stepId depth) :
    stepIds.length ≤ depths.values.count depth := by
  have hsub : stepIds.map (fun stepId => (stepId, depth))
      ⊆ depths.entries.filter fun entry => entry.2 = depth := by
    intro entry hentry
    obtain ⟨stepId, hid, rfl⟩ := List.mem_map.mp hentry
    exact List.mem_filter.mpr ⟨h.mem_entries_iff.mpr (hall stepId hid), by simp⟩
  have hle := (List.subperm_of_subset (hnd.map fun a b hab => (Prod.mk.inj hab).1) hsub).length_le
  rw [List.length_map] at hle
  rw [Dict.values, List.count_eq_countP, List.countP_map, List.countP_eq_length_filter]
  exact hle

/-- The steps of one depth, as many as the map has. -/
theorem exists_length_eq_count (depth : ℕ) : ∃ stepIds : List String, stepIds.Nodup
    ∧ (∀ stepId ∈ stepIds, stepId ∈ plan.stepIds ∧ plan.HasDepth stepId depth)
    ∧ stepIds.length = depths.values.count depth := by
  refine ⟨(depths.entries.filter fun entry => entry.2 = depth).map Prod.fst, ?_, ?_, ?_⟩
  · exact depths.nodup.sublist (List.Sublist.map _ List.filter_sublist)
  · intro stepId hid
    obtain ⟨⟨stepId, k⟩, hentry, rfl⟩ := List.mem_map.mp hid
    obtain ⟨hentry, hk⟩ := List.mem_filter.mp hentry
    rw [← of_decide_eq_true hk]
    exact h.mem_entries_iff.mp hentry
  · rw [Dict.values, List.count_eq_countP, List.countP_map, List.countP_eq_length_filter,
      List.length_map]
    rfl

end DepthsOf

/-! ## Limits -/

theorem get?_countDepths (depths : List ℕ) (depth : ℕ) :
    (countDepths depths).get? depth
      = if depth ∈ depths then some (depths.count depth) else none := by
  unfold countDepths
  induction depths using List.reverseRecOn with
  | nil => rfl
  | append_singleton depths d ih =>
    rw [List.foldl_append, List.foldl_cons, List.foldl_nil, Dict.get?_set, List.count_append]
    by_cases hd : d = depth
    · subst hd
      rw [if_pos rfl, ih]
      by_cases hmem : d ∈ depths
      · simp [hmem]
      · simp [hmem, List.count_eq_zero_of_not_mem hmem]
    · rw [if_neg hd, ih]
      simp [Ne.symm hd, hd]

/-- More than so many have the same depth. -/
theorem lt_max_countDepths {depths : List ℕ} (hne : depths ≠ []) {m : ℤ} :
    m < ((countDepths depths).values.max?.getD 0 : ℕ)
      ↔ ∃ depth ∈ depths, m < depths.count depth := by
  have hmem (n : ℕ) : n ∈ (countDepths depths).values
      ↔ ∃ depth ∈ depths, depths.count depth = n := by
    rw [Dict.values, List.mem_map]
    constructor
    · rintro ⟨⟨depth, n⟩, hentry, rfl⟩
      rw [← Dict.get?_eq_some_iff, get?_countDepths] at hentry
      split_ifs at hentry with hdepth
      exact ⟨depth, hdepth, Option.some.inj hentry⟩
    · rintro ⟨depth, hdepth, rfl⟩
      refine ⟨(depth, depths.count depth), ?_, rfl⟩
      rw [← Dict.get?_eq_some_iff, get?_countDepths, if_pos hdepth]
  rcases hmax : (countDepths depths).values.max? with _ | most
  · rw [List.max?_eq_none_iff] at hmax
    obtain ⟨depth, hdepth⟩ := List.exists_mem_of_ne_nil depths hne
    have hcount := (hmem _).mpr ⟨depth, hdepth, rfl⟩
    simp [hmax] at hcount
  · obtain ⟨hmost, hle⟩ := List.max?_eq_some_iff.mp hmax
    obtain ⟨depth, hdepth, hcount⟩ := (hmem most).mp hmost
    constructor
    · intro hlt
      exact ⟨depth, hdepth, by rwa [hcount]⟩
    · rintro ⟨d, hd, hlt⟩
      have hbound := hle _ ((hmem _).mpr ⟨d, hd, rfl⟩)
      simp only [Option.getD_some]
      omega

section Checks

variable {depths : Dict String ℕ} (hbuild : buildDepthMap plan = .ok depths)
  (h : DepthsOf plan depths) (hne : plan.steps ≠ [])

include hbuild h hne

theorem validateDepth_iff : validateDepth plan ≠ .ok () ↔ plan.TooDeep := by
  simp only [validateDepth, hbuild, bind, Except.bind]
  rcases hmax : depths.values.max? with _ | most
  · rw [List.max?_eq_none_iff] at hmax
    exact absurd hmax (h.values_ne_nil hne)
  obtain ⟨hmost, hle⟩ := List.max?_eq_some_iff.mp hmax
  rw [Ne, raiseIf_eq_ok, not_not]
  constructor
  · intro hlt
    obtain ⟨stepId, hid, hdepth⟩ := h.mem_values_iff.mp hmost
    exact ⟨stepId, hid, most, hdepth.1, hlt⟩
  · rintro ⟨stepId, hid, n, hchain, hlt⟩
    obtain ⟨depth, hmem, hdepth⟩ := h.exists_hasDepth hid
    have hn : n ≤ depth := hdepth.2 hchain
    have hdepth := hle depth hmem
    omega

theorem validateParallelism_iff : validateParallelism plan ≠ .ok () ↔ plan.TooWide := by
  simp only [validateParallelism, hbuild, bind, Except.bind]
  rw [Ne, raiseIf_eq_ok, not_not, gt_iff_lt, lt_max_countDepths (h.values_ne_nil hne)]
  constructor
  · rintro ⟨depth, hmem, hlt⟩
    obtain ⟨stepIds, hnd, hall, hlen⟩ := h.exists_length_eq_count depth
    refine ⟨depth, stepIds, ?_, hnd, hall, by rwa [hlen]⟩
    rintro rfl
    have hpos := List.count_pos_iff.mpr hmem
    rw [← hlen] at hpos
    simp at hpos
  · rintro ⟨depth, stepIds, hnil, hnd, hall, hlt⟩
    obtain ⟨stepId, hid⟩ := List.exists_mem_of_ne_nil _ hnil
    have hcount := h.length_le_count hnd hall
    exact ⟨depth, h.mem_values_iff.mpr ⟨stepId, hall stepId hid⟩, by omega⟩

end Checks

/-- The last two checks of `validate_plan`. -/
def validateLimits (plan : ExecutionPlan) : Except PyError Unit := do
  validateDepth plan
  validateParallelism plan

/-- The depths are right, and the plan is rejected for its limits exactly if it exceeds one. -/
def LimitsExact (plan : ExecutionPlan) : Prop :=
  (∃ depths, buildDepthMap plan = .ok depths ∧ DepthsOf plan depths)
    ∧ (validateLimits plan ≠ .ok () ↔ plan.TooDeep ∨ plan.TooWide)

/-- Of the plans without a cycle, the limits are exact for those that have steps. -/
theorem limitsExact_iff (plan : ExecutionPlan) (hnd : plan.stepIds.Nodup)
    (hknown : ∀ step ∈ plan.steps, ∀ d ∈ step.dependsOn, d ∈ plan.stepIds)
    (hacyclic : ¬ plan.Cyclic) :
    (LimitsExact plan ↔ plan.steps ≠ [])
      ∧ ∀ tools, 1 ≤ plan.graphLimits.maxDepth → 1 ≤ plan.graphLimits.maxParallel →
        (∀ step ∈ plan.steps, FieldsOk tools step) →
        validatePlan plan tools = validateLimits plan := by
  obtain ⟨depths, hbuild, hdepths⟩ := depthsOf_buildDepthMap hnd hknown hacyclic
  refine ⟨⟨?_, fun hne => ⟨⟨depths, hbuild, hdepths⟩, ?_⟩⟩, fun tools hdeep hwide hfields => ?_⟩
  · rintro ⟨-, hrejects⟩ hnil
    have hids : plan.stepIds = [] := by simp [ExecutionPlan.stepIds, hnil]
    have hraises : validateLimits plan ≠ .ok () := by
      have hempty : buildDepthMap plan = .ok ∅ := by simp [buildDepthMap, hids, depthMap]
      simp [validateLimits, validateDepth, hempty, bind, Except.bind, Dict.values]
    rcases hrejects.mp hraises with ⟨stepId, hid, -⟩ | ⟨depth, stepIds, hne, -, hall, -⟩
    · simp [hids] at hid
    · obtain ⟨stepId, hid⟩ := List.exists_mem_of_ne_nil _ hne
      simpa [hids] using (hall stepId hid).1
  · rw [← validateDepth_iff hbuild hdepths hne, ← validateParallelism_iff hbuild hdepths hne,
      validateLimits, Ne, bind_eq_ok, not_and_or]
  · have hacyclic := (validateAcyclic_eq_ok_iff hnd).mpr hacyclic
    have hfields : validateStepFields tools [] plan.steps = .ok () :=
      validateStepFields_ok_iff.mpr ⟨hfields, hnd, by simp⟩
    have hdepth : ¬ plan.graphLimits.maxDepth < 1 := by omega
    have hparallel : ¬ plan.graphLimits.maxParallel < 1 := by omega
    simp only [validatePlan, raiseIf, if_neg hdepth, if_neg hparallel, hfields, hacyclic,
      validateDependencies_ok_iff.mpr hknown]
    rfl

/-- A repeated dependency and the order of the steps do not matter. -/
theorem limitsExact_iff_two_steps :
    LimitsExact (samplePlan [sampleStep "b" ["a", "a"], sampleStep "a" []]) := by
  have hacyclic : ¬ (samplePlan [sampleStep "b" ["a", "a"], sampleStep "a" []]).Cyclic :=
    (validateAcyclic_eq_ok_iff (by decide)).mp rfl
  exact (limitsExact_iff _ (by decide) (by decide) hacyclic).1.mpr (by simp [samplePlan])

/-- A plan without steps has no chain, and is rejected for its depth. -/
theorem validateLimits_no_steps :
    let plan := samplePlan []
    plan.stepIds.Nodup ∧ (∀ step ∈ plan.steps, ∀ d ∈ step.dependsOn, d ∈ plan.stepIds)
      ∧ ¬ plan.Cyclic ∧ ¬ LimitsExact plan := by
  intro plan
  have hraises : validateLimits plan ≠ .ok () := by decide
  refine ⟨by decide, by decide, ?_, fun h => ?_⟩
  · rintro ⟨stepId, hcycle⟩
    obtain ⟨d, ⟨step, hs, -⟩, -⟩ := TransGen.head'_iff.mp hcycle
    simp [plan, samplePlan] at hs
  · rcases h.2.mp hraises with ⟨stepId, hid, -⟩ | ⟨depth, stepIds, hne, -, hall, -⟩
    · simp [plan, samplePlan, ExecutionPlan.stepIds] at hid
    · obtain ⟨stepId, hid⟩ := List.exists_mem_of_ne_nil _ hne
      simpa [plan, samplePlan, ExecutionPlan.stepIds] using (hall stepId hid).1

end Planner

end AgentLearning
