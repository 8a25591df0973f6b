import AgentLearning.Proofs.Validate

/-!
# Renaming a plan's steps

A plan whose ids, own and in the dependencies, are renamed injectively is accepted when the plan
is, and its steps keep their depths. Both plans are images of one graph, whose nodes are the ids
of the plan: on it the identity and the renaming are both injective, and the traversals commute
with them.
-/

namespace AgentLearning

/-- The step under another id and goal, its dependencies renamed like its id. -/
def PlanStep.rename (ρ : String → String) (goal : String) (step : PlanStep) : PlanStep :=
  { step with stepId := ρ step.stepId, goal, dependsOn := step.dependsOn.map ρ }

/-- The plan's image under a renaming of the ids, with new goals and a new version. -/
def ExecutionPlan.rename (ρ : String → String) (goal : PlanStep → String) (planVersion : ℤ)
    (plan : ExecutionPlan) : ExecutionPlan :=
  { plan with planVersion, steps := plan.steps.map fun step => step.rename ρ (goal step) }

namespace Planner

open Dag ExecutionPlan

section Image

variable {α : Type} [DecidableEq α]

/-- The plan's graph is the image of a graph on `α` under an injective naming of its nodes. -/
structure Image (deps : α → List α) (nodes : List α) (f : α → String) (plan : ExecutionPlan) :
    Prop where
  inj : Function.Injective f
  stepIds : plan.stepIds = nodes.map f
  deps : ∀ a, plan.dependencies (f a) = (deps a).map f

variable {deps : α → List α} {nodes : List α} {f : α → String} {plan : ExecutionPlan}

omit [DecidableEq α] in
theorem Image.traversalFuel (h : Image deps nodes f plan) :
    plan.traversalFuel = nodes.length + 1 := by
  have := congrArg List.length h.stepIds
  simpa [ExecutionPlan.traversalFuel, ExecutionPlan.stepIds] using this

theorem Image.validateAcyclic_iff (h : Image deps nodes f plan) :
    validateAcyclic plan = .ok ()
      ↔ ∃ st, nodes.foldlM (dfs deps (nodes.length + 1)) {} = .ok st := by
  have hm : (nodes.map f).foldlM (dfs plan.dependencies (nodes.length + 1)) {}
      = mapOutcome f (nodes.foldlM (dfs deps (nodes.length + 1)) {}) :=
    foldlM_map (dfs_map h.inj h.deps (nodes.length + 1)) nodes {}
  unfold validateAcyclic
  rw [h.traversalFuel, h.stepIds, hm]
  rcases nodes.foldlM (dfs deps (nodes.length + 1)) {} with e | st
  · simp [mapOutcome]
  · simp [mapOutcome]

theorem Image.buildDepthMap_eq (h : Image deps nodes f plan) {depths : Dict String ℕ} :
    buildDepthMap plan = .ok depths
      ↔ ∃ d, depthMap deps (nodes.length + 1) ∅ nodes = some d ∧ d.mapKeys f h.inj = depths := by
  have hm := depthMap_map h.inj h.deps (nodes.length + 1) nodes ∅
  unfold buildDepthMap
  rw [h.traversalFuel, h.stepIds]
  rw [Dict.mapKeys_empty] at hm
  rw [hm]
  rcases depthMap deps (nodes.length + 1) ∅ nodes with _ | d
  · simp
  · simp

end Image

section Rename

variable {plan : ExecutionPlan} {tools : List String} {ρ : String → String}
  {goal : PlanStep → String} {version : ℤ}

theorem stepIds_rename : (plan.rename ρ goal version).stepIds = plan.stepIds.map ρ := by
  simp [ExecutionPlan.rename, stepIds, PlanStep.rename, List.map_map, Function.comp_def]

/-- The dependencies, as a graph on the ids of the plan. -/
def idDeps (h : Accepted plan tools) (x : {x // x ∈ plan.stepIds}) :
    List {x // x ∈ plan.stepIds} :=
  (plan.dependencies x).pmap Subtype.mk fun _ hd => known_dependencies h.nodup h.known hd

theorem map_idDeps (h : Accepted plan tools) (f : String → String)
    (x : {x // x ∈ plan.stepIds}) :
    (idDeps h x).map (fun y => f y.val) = (plan.dependencies x).map f := by
  unfold idDeps
  rw [List.map_pmap]
  exact List.pmap_eq_map ..

theorem Accepted.image (h : Accepted plan tools) :
    Image (idDeps h) plan.stepIds.attach Subtype.val plan where
  inj := Subtype.val_injective
  stepIds := List.attach_map_subtype_val _ |>.symm
  deps x := by simpa using (map_idDeps h id x).symm

theorem nodup_rename (h : Accepted plan tools) (hρ : Set.InjOn ρ {x | x ∈ plan.stepIds}) :
    (plan.rename ρ goal version).stepIds.Nodup := by
  rw [stepIds_rename]
  exact List.Nodup.map_on (fun x hx y hy e => hρ hx hy e) h.nodup

theorem Accepted.image_rename (h : Accepted plan tools)
    (hρ : Set.InjOn ρ {x | x ∈ plan.stepIds}) :
    Image (idDeps h) plan.stepIds.attach (fun x => ρ x.val) (plan.rename ρ goal version) where
  inj x y e := Subtype.ext (hρ x.property y.property e)
  stepIds := by
    rw [stepIds_rename]
    simp
  deps x := by
    obtain ⟨step, hs, hx⟩ := List.mem_map.mp x.property
    have hmem : step.rename ρ (goal step) ∈ (plan.rename ρ goal version).steps :=
      List.mem_map_of_mem hs
    rw [map_idDeps, ← hx, dependencies_eq h.nodup hs]
    exact dependencies_eq (nodup_rename h hρ) hmem

/-- The depths of the renamed plan are those of the plan, in the same order. -/
theorem buildDepthMap_rename (goal : PlanStep → String) (version : ℤ) (h : Accepted plan tools)
    (hρ : Set.InjOn ρ {x | x ∈ plan.stepIds}) {depths : Dict String ℕ}
    (hd : buildDepthMap plan = .ok depths) :
    ∃ depths', buildDepthMap (plan.rename ρ goal version) = .ok depths'
      ∧ depths'.values = depths.values
      ∧ ∀ x ∈ plan.stepIds, depths'.get? (ρ x) = depths.get? x := by
  obtain ⟨d, hid, rfl⟩ := h.image.buildDepthMap_eq.mp hd
  refine ⟨_, (h.image_rename hρ).buildDepthMap_eq.mpr ⟨d, hid, rfl⟩, by simp, fun x hx => ?_⟩
  rw [Dict.get?_mapKeys (fun x : {x // x ∈ plan.stepIds} => ρ x.val) _ d ⟨x, hx⟩,
    ← Dict.get?_mapKeys Subtype.val Subtype.val_injective d ⟨x, hx⟩]

theorem Accepted.buildDepthMap_ok (h : Accepted plan tools) :
    ∃ depths, buildDepthMap plan = .ok depths := by
  have := h.depth
  unfold validateDepth at this
  rcases hd : buildDepthMap plan with e | depths
  · rw [hd] at this
    cases this
  · exact ⟨depths, rfl⟩

/-- Every step of the plan has its depth. -/
theorem get?_buildDepthMap {depths : Dict String ℕ} (hd : buildDepthMap plan = .ok depths)
    {x : String} (hx : x ∈ plan.stepIds) : ∃ n, depths.get? x = some n := by
  unfold buildDepthMap at hd
  rcases hm : depthMap plan.dependencies plan.traversalFuel ∅ plan.stepIds with _ | cache <;>
    rw [hm] at hd
  · cases hd
  · cases hd
    exact Option.isSome_iff_exists.mp ((depthMap_extends plan.dependencies hm).2 x hx)

/-- A plan renamed injectively on its ids is accepted again, if the new ids and goals are not
empty. -/
theorem Accepted.rename (h : Accepted plan tools) (hρ : Set.InjOn ρ {x | x ∈ plan.stepIds})
    (hid : ∀ x ∈ plan.stepIds, ρ x ≠ "") (hgoal : ∀ step ∈ plan.steps, goal step ≠ "") :
    Accepted (plan.rename ρ goal version) tools where
  maxDepth := h.maxDepth
  maxParallel := h.maxParallel
  fields step' hs' := by
    obtain ⟨step, hs, rfl⟩ := List.mem_map.mp hs'
    have hf := h.fields step hs
    exact ⟨hid _ (mem_stepIds hs), hgoal step hs, hf.doneCriteria, hf.toolId, hf.allowed,
      hf.payload, hf.timeoutSeconds⟩
  nodup := nodup_rename h hρ
  known step' hs' d' hd' := by
    obtain ⟨step, hs, rfl⟩ := List.mem_map.mp hs'
    obtain ⟨d, hd, rfl⟩ := List.mem_map.mp hd'
    rw [stepIds_rename]
    exact List.mem_map_of_mem (h.known step hs d hd)
  acyclic := (h.image_rename hρ).validateAcyclic_iff.mpr
    (h.image.validateAcyclic_iff.mp h.acyclic)
  depth := by
    obtain ⟨depths, hd⟩ := h.buildDepthMap_ok
    obtain ⟨depths', hd', hv, -⟩ :=
      buildDepthMap_rename goal version h hρ hd
    have hok := h.depth
    simp only [validateDepth, hd, hd', bind, Except.bind] at hok ⊢
    rw [hv]
    exact hok
  parallelism := by
    obtain ⟨depths, hd⟩ := h.buildDepthMap_ok
    obtain ⟨depths', hd', hv, -⟩ :=
      buildDepthMap_rename goal version h hρ hd
    have hok := h.parallelism
    simp only [validateParallelism, hd, hd', bind, Except.bind] at hok ⊢
    rw [hv]
    exact hok

end Rename

end Planner

end AgentLearning
