import AgentLearning.Lib.Dict
import Mathlib.Data.List.Dedup
import Mathlib.Data.List.Perm.Subperm
import Mathlib.Tactic.Common

/-!
# Depth-first traversals of a dependency graph

`dfs` marks what it is visiting and what it has visited, and stops at a cycle; `depthOf` is the
length of the longest chain of dependencies, memoised. Both recurse at most `fuel` deep, and
`dfs_ne_fuel` and `depthOf_isSome` say how much is enough.

A list in which every member's dependencies stand after it (`DepsLater`) is what a `dfs` that
ends leaves behind, newest first; the last member not in a given set has its dependencies in it.
Both traversals commute with an injective renaming of the nodes.
-/

namespace Dag

variable {α β : Type*} [DecidableEq α] [DecidableEq β]

/-- Why a traversal stops early. -/
inductive Stop (α : Type*)
  | cycle (a : α)
  | fuel

/-- What a traversal is visiting and has visited, newest first. -/
structure Marks (α : Type*) where
  visiting : List α := []
  visited : List α := []

def dfs (deps : α → List α) : ℕ → Marks α → α → Except (Stop α) (Marks α)
  | fuel, st, a =>
    if a ∈ st.visited then .ok st
    else if a ∈ st.visiting then .error (.cycle a)
    else match fuel with
      | 0 => .error .fuel
      | fuel + 1 => do
        let st ← (deps a).foldlM (dfs deps fuel) { st with visiting := a :: st.visiting }
        .ok ⟨st.visiting.erase a, a :: st.visited⟩

/-- The greatest depth of the nodes of a list, the cache passed from one to the next. -/
def deepest (depth : Dict α ℕ → α → Option (ℕ × Dict α ℕ)) :
    ℕ → Dict α ℕ → List α → Option (ℕ × Dict α ℕ)
  | most, cache, [] => some (most, cache)
  | most, cache, a :: l => do
    let (k, cache) ← depth cache a
    deepest depth (max most k) cache l

def depthOf (deps : α → List α) : ℕ → Dict α ℕ → α → Option (ℕ × Dict α ℕ)
  | fuel, cache, a =>
    match cache.get? a with
    | some depth => some (depth, cache)
    | none =>
      if deps a = [] then some (1, cache.set a 1)
      else match fuel with
        | 0 => none
        | fuel + 1 => do
          let (most, cache) ← deepest (depthOf deps fuel) 0 cache (deps a)
          pure (1 + most, cache.set a (1 + most))

/-- The depths of the nodes of a list, each with those of its dependencies. -/
def depthMap (deps : α → List α) (fuel : ℕ) : Dict α ℕ → List α → Option (Dict α ℕ)
  | cache, [] => some cache
  | cache, a :: l => do
    let (_, cache) ← depthOf deps fuel cache a
    depthMap deps fuel cache l

/-- Every member's dependencies stand after it. -/
def DepsLater (deps : α → List α) : List α → Prop
  | [] => True
  | a :: l => (∀ d ∈ deps a, d ∈ l) ∧ DepsLater deps l

omit [DecidableEq α] in
/-- Of the members not in `C`, the last has all its dependencies in `C`. -/
theorem DepsLater.exists_ready {deps : α → List α} {C : α → Prop} :
    ∀ {l : List α}, DepsLater deps l → (∃ a ∈ l, ¬ C a) →
      ∃ a ∈ l, ¬ C a ∧ ∀ d ∈ deps a, C d
  | [], _, h => by simp at h
  | a :: l, hl, h => by
    by_cases hC : ∃ b ∈ l, ¬ C b
    · obtain ⟨b, hb, hbC, hd⟩ := DepsLater.exists_ready hl.2 hC
      exact ⟨b, List.mem_cons_of_mem _ hb, hbC, hd⟩
    · push Not at hC
      obtain ⟨b, hb, hbC⟩ := h
      rcases List.mem_cons.mp hb with rfl | hb
      · exact ⟨b, List.mem_cons_self, hbC, fun d hd => hC d (hl.1 d hd)⟩
      · exact absurd (hC b hb) hbC

omit [DecidableEq α] in
theorem DepsLater.filter {deps : α → List α} {p : α → Bool}
    (hp : ∀ a, p a → ∀ d ∈ deps a, p d) :
    ∀ {l : List α}, DepsLater deps l → DepsLater deps (l.filter p)
  | [], _ => trivial
  | a :: l, h => by
    rw [List.filter_cons]
    split_ifs with ha
    · exact ⟨fun d hd => List.mem_filter.mpr ⟨h.1 d hd, hp a ha d hd⟩, h.2.filter hp⟩
    · exact h.2.filter hp

theorem DepsLater.dedup {deps : α → List α} :
    ∀ {l : List α}, DepsLater deps l → DepsLater deps l.dedup
  | [], _ => trivial
  | a :: l, h => by
    by_cases ha : a ∈ l
    · rw [List.dedup_cons_of_mem ha]
      exact h.2.dedup
    · rw [List.dedup_cons_of_notMem ha]
      exact ⟨fun d hd => List.mem_dedup.mpr (h.1 d hd), h.2.dedup⟩

section Dfs

variable (deps : α → List α)

theorem dfs_enter {fuel : ℕ} {st : Marks α} {a : α} (hv : a ∉ st.visited)
    (hg : a ∉ st.visiting) : dfs deps (fuel + 1) st a = (do
      let st ← (deps a).foldlM (dfs deps fuel) { st with visiting := a :: st.visiting }
      .ok ⟨st.visiting.erase a, a :: st.visited⟩) := by
  rw [dfs, if_neg hv, if_neg hg]

/-- Where a `dfs` stops: at a node that it is visiting, or after entering this one. -/
theorem dfs_eq_error {fuel : ℕ} {st : Marks α} {a : α} {e : Stop α}
    (h : dfs deps (fuel + 1) st a = .error e) :
    (a ∈ st.visiting ∧ e = .cycle a) ∨ (a ∉ st.visiting
      ∧ (deps a).foldlM (dfs deps fuel) { st with visiting := a :: st.visiting } = .error e) := by
  by_cases hv : a ∈ st.visited
  · rw [dfs, if_pos hv] at h
    cases h
  by_cases hg : a ∈ st.visiting
  · rw [dfs, if_neg hv, if_pos hg] at h
    cases h
    exact .inl ⟨hg, rfl⟩
  rw [dfs_enter deps hv hg] at h
  rcases hf : (deps a).foldlM (dfs deps fuel) { st with visiting := a :: st.visiting }
    with e' | st₁ <;> rw [hf] at h <;> cases h
  exact .inr ⟨hg, rfl⟩

/-- What a `dfs` that ends has done: it is visiting what it was, and what it has visited keeps
its dependencies later in the list and holds the nodes asked for. -/
structure Done (st st' : Marks α) (l : List α) : Prop where
  visiting : st'.visiting = st.visiting
  sorted : DepsLater deps st'.visited
  visited : ∀ x ∈ st.visited, x ∈ st'.visited
  mem : ∀ x ∈ l, x ∈ st'.visited

theorem foldlM_done {fuel : ℕ}
    (ih : ∀ {st st' : Marks α} {a : α}, DepsLater deps st.visited → dfs deps fuel st a = .ok st' →
      Done deps st st' [a]) :
    ∀ (l : List α) (st : Marks α) {st' : Marks α}, DepsLater deps st.visited →
      l.foldlM (dfs deps fuel) st = .ok st' → Done deps st st' l
  | [], st, st', hs, h => by
    cases h
    exact ⟨rfl, hs, fun _ hx => hx, by simp⟩
  | a :: l, st, st', hs, h => by
    rw [List.foldlM_cons] at h
    rcases h1 : dfs deps fuel st a with e | st₁ <;> rw [h1] at h
    · cases h
    have d1 := ih hs h1
    have d2 := foldlM_done ih l st₁ d1.sorted h
    refine ⟨d2.visiting.trans d1.visiting, d2.sorted, fun x hx => d2.visited x (d1.visited x hx),
      fun x hx => ?_⟩
    rcases List.mem_cons.mp hx with rfl | hx
    · exact d2.visited x (d1.mem x (by simp))
    · exact d2.mem x hx

theorem dfs_done : ∀ (fuel : ℕ) {st st' : Marks α} {a : α}, DepsLater deps st.visited →
    dfs deps fuel st a = .ok st' → Done deps st st' [a] := by
  intro fuel
  induction fuel with
  | zero =>
    intro st st' a hs h
    unfold dfs at h
    split_ifs at h with hv hg
    · cases h
      exact ⟨rfl, hs, fun _ hx => hx, by simpa using hv⟩
  | succ fuel ih =>
    intro st st' a hs h
    by_cases hv : a ∈ st.visited
    · rw [dfs, if_pos hv] at h
      cases h
      exact ⟨rfl, hs, fun _ hx => hx, by simpa using hv⟩
    by_cases hg : a ∈ st.visiting
    · rw [dfs, if_neg hv, if_pos hg] at h
      cases h
    rw [dfs_enter deps hv hg] at h
    rcases hf : (deps a).foldlM (dfs deps fuel) { st with visiting := a :: st.visiting }
      with e | st₁ <;> rw [hf] at h
    · cases h
    cases h
    have d := foldlM_done deps ih _ ⟨a :: st.visiting, st.visited⟩ hs hf
    exact ⟨by simp [d.visiting], ⟨d.mem, d.sorted⟩,
      fun x hx => List.mem_cons_of_mem _ (d.visited x hx), by simp⟩

theorem foldlM_ne_fuel {fuel : ℕ} {v : List α}
    (ih : ∀ {st : Marks α} {a : α}, DepsLater deps st.visited → st.visiting = v →
      dfs deps fuel st a ≠ .error .fuel) :
    ∀ (l : List α) (st : Marks α), DepsLater deps st.visited → st.visiting = v →
      l.foldlM (dfs deps fuel) st ≠ .error .fuel
  | [], _, _, _, h => by cases h
  | a :: l, st, hs, hv, h => by
    rw [List.foldlM_cons] at h
    rcases h1 : dfs deps fuel st a with e | st₁ <;> rw [h1] at h
    · exact ih hs hv (h1.trans h)
    · have d := dfs_done deps fuel hs h1
      exact foldlM_ne_fuel ih l st₁ d.sorted (d.visiting.trans hv) h

/-- With more fuel than nodes that have dependencies, a `dfs` never runs out of it. -/
theorem dfs_ne_fuel (keys : List α) (hkeys : ∀ a, a ∉ keys → deps a = []) :
    ∀ (fuel : ℕ) {st : Marks α} {a : α}, DepsLater deps st.visited → st.visiting.Nodup →
      (∀ x ∈ st.visiting, x ∈ keys) → keys.length < fuel + st.visiting.length →
      dfs deps fuel st a ≠ .error .fuel := by
  intro fuel
  induction fuel with
  | zero =>
    intro st a hs hnd hsub hlen
    have := (List.subperm_of_subset hnd hsub).length_le
    omega
  | succ fuel ih =>
    intro st a hs hnd hsub hlen h
    rcases dfs_eq_error deps h with ⟨-, hcycle⟩ | ⟨hg, hf⟩
    · cases hcycle
    by_cases ha : a ∈ keys
    · refine foldlM_ne_fuel deps (v := a :: st.visiting) ?_ _
        ⟨a :: st.visiting, st.visited⟩ hs rfl hf
      intro st₁ b hs₁ hv₁
      refine ih hs₁ (hv₁ ▸ List.nodup_cons.mpr ⟨hg, hnd⟩) (fun x hx => ?_) ?_
      · rw [hv₁] at hx
        rcases List.mem_cons.mp hx with rfl | hx
        · exact ha
        · exact hsub x hx
      · rw [hv₁, List.length_cons]
        omega
    · rw [hkeys a ha] at hf
      cases hf

end Dfs

section Depth

variable (deps : α → List α)

omit [DecidableEq α] in
theorem deepest_isSome {depth : Dict α ℕ → α → Option (ℕ × Dict α ℕ)} :
    ∀ {l : List α}, (∀ a ∈ l, ∀ cache, (depth cache a).isSome) →
      ∀ most cache, (deepest depth most cache l).isSome
  | [], _, _, _ => rfl
  | a :: l, h, most, cache => by
    obtain ⟨⟨k, cache'⟩, hk⟩ := Option.isSome_iff_exists.mp (h a List.mem_cons_self cache)
    rw [deepest, hk]
    exact deepest_isSome (fun b hb => h b (List.mem_cons_of_mem _ hb)) _ _

/-- Within a list that keeps dependencies later, its length is fuel enough for every depth. -/
theorem depthOf_isSome :
    ∀ {l : List α}, DepsLater deps l → ∀ a ∈ l, ∀ {fuel : ℕ}, l.length ≤ fuel →
      ∀ cache, (depthOf deps fuel cache a).isSome
  | b :: l, hl, a, ha, fuel, hlen, cache => by
    rcases List.mem_cons.mp ha with rfl | ha
    · obtain ⟨fuel, rfl⟩ : ∃ n, fuel = n + 1 := ⟨fuel - 1, by simp at hlen; omega⟩
      have hd := deepest_isSome (fun d hd => depthOf_isSome hl.2 d (hl.1 d hd)
        (by simpa using hlen)) 0 cache
      obtain ⟨⟨k, cache'⟩, hk⟩ := Option.isSome_iff_exists.mp hd
      rw [depthOf]
      split
      · rfl
      · split_ifs
        · rfl
        · simp [hk]
    · exact depthOf_isSome hl.2 a ha (by simp at hlen; omega) cache

theorem depthMap_isSome {l : List α} (hl : DepsLater deps l) {fuel : ℕ} (hlen : l.length ≤ fuel) :
    ∀ {as : List α}, (∀ a ∈ as, a ∈ l) → ∀ cache, (depthMap deps fuel cache as).isSome
  | [], _, _ => rfl
  | a :: as, h, cache => by
    obtain ⟨⟨k, cache'⟩, hk⟩ := Option.isSome_iff_exists.mp
      (depthOf_isSome deps hl a (h a List.mem_cons_self) hlen cache)
    rw [depthMap, hk]
    exact depthMap_isSome hl hlen (fun b hb => h b (List.mem_cons_of_mem _ hb)) cache'

/-- Every node of the first cache is in the second. -/
def Extends (cache cache' : Dict α ℕ) : Prop :=
  ∀ a, (cache.get? a).isSome → (cache'.get? a).isSome

theorem extends_set (cache : Dict α ℕ) (a : α) (k : ℕ) : Extends cache (cache.set a k) := by
  intro b hb
  rw [Dict.get?_set]
  split_ifs
  · rfl
  · exact hb

theorem deepest_extends {depth : Dict α ℕ → α → Option (ℕ × Dict α ℕ)}
    (hdepth : ∀ {cache a k cache'}, depth cache a = some (k, cache') → Extends cache cache') :
    ∀ {l : List α} {most k : ℕ} {cache cache' : Dict α ℕ},
      deepest depth most cache l = some (k, cache') → Extends cache cache'
  | [], _, _, _, _, h => by
    cases h
    exact fun _ h => h
  | a :: l, most, k, cache, cache', h => by
    rw [deepest] at h
    rcases hd : depth cache a with _ | ⟨k₁, cache₁⟩ <;> rw [hd] at h
    · cases h
    · exact fun b hb => deepest_extends hdepth h b (hdepth hd b hb)

/-- Where a depth comes from: the cache, a node without dependencies, or the deepest of them. -/
theorem depthOf_eq_some {fuel : ℕ} {cache cache' : Dict α ℕ} {a : α} {k : ℕ}
    (h : depthOf deps fuel cache a = some (k, cache')) :
    (cache.get? a = some k ∧ cache' = cache)
      ∨ (deps a = [] ∧ k = 1 ∧ cache' = cache.set a 1)
      ∨ ∃ fuel' most cache₁, fuel = fuel' + 1
        ∧ deepest (depthOf deps fuel') 0 cache (deps a) = some (most, cache₁)
        ∧ k = 1 + most ∧ cache' = cache₁.set a (1 + most) := by
  unfold depthOf at h
  rcases hc : cache.get? a with _ | depth
  · simp only [hc] at h
    split_ifs at h with hdeps
    · cases h
      exact .inr (.inl ⟨hdeps, rfl, rfl⟩)
    · rcases fuel with _ | fuel
      · cases h
      simp only at h
      rcases hd : deepest (depthOf deps fuel) 0 cache (deps a) with _ | ⟨most, cache₁⟩ <;>
        rw [hd] at h <;> cases h
      exact .inr (.inr ⟨fuel, most, cache₁, rfl, hd, rfl, rfl⟩)
  · rw [hc] at h
    cases h
    exact .inl ⟨rfl, rfl⟩

theorem depthOf_extends : ∀ (fuel : ℕ) {cache cache' : Dict α ℕ} {a : α} {k : ℕ},
    depthOf deps fuel cache a = some (k, cache') →
      Extends cache cache' ∧ (cache'.get? a).isSome
  | fuel, cache, cache', a, k, h => by
    rcases depthOf_eq_some deps h
      with ⟨hc, rfl⟩ | ⟨-, rfl, rfl⟩ | ⟨fuel, most, cache₁, rfl, hd, rfl, rfl⟩
    · exact ⟨fun _ h => h, by simp [hc]⟩
    · exact ⟨extends_set cache a 1, by simp⟩
    · have he := deepest_extends (fun h => (depthOf_extends fuel h).1) hd
      exact ⟨fun b hb => extends_set cache₁ a _ b (he b hb), by simp⟩

/-- The depth map has every node of the list. -/
theorem depthMap_extends {fuel : ℕ} : ∀ {as : List α} {cache cache' : Dict α ℕ},
    depthMap deps fuel cache as = some cache' →
      Extends cache cache' ∧ ∀ a ∈ as, (cache'.get? a).isSome
  | [], _, _, h => by
    cases h
    exact ⟨fun _ h => h, by simp⟩
  | a :: as, cache, cache', h => by
    rw [depthMap] at h
    rcases hd : depthOf deps fuel cache a with _ | ⟨k, cache₁⟩ <;> rw [hd] at h
    · cases h
    · obtain ⟨he, ha⟩ := depthOf_extends deps fuel hd
      obtain ⟨he', has⟩ := depthMap_extends h
      refine ⟨fun b hb => he' b (he b hb), fun b hb => ?_⟩
      rcases List.mem_cons.mp hb with rfl | hb
      · exact he' b ha
      · exact has b hb

end Depth

/-! ## Renaming the nodes -/

section Map

variable {f : α → β}

def Marks.map (f : α → β) (st : Marks α) : Marks β := ⟨st.visiting.map f, st.visited.map f⟩

def Stop.map (f : α → β) : Stop α → Stop β
  | .cycle a => .cycle (f a)
  | .fuel => .fuel

/-- A traversal's outcome, its nodes renamed. -/
def mapOutcome (f : α → β) : Except (Stop α) (Marks α) → Except (Stop β) (Marks β)
  | .ok st => .ok (st.map f)
  | .error e => .error (e.map f)

omit [DecidableEq α] [DecidableEq β] in
theorem foldlM_map {step : Marks α → α → Except (Stop α) (Marks α)}
    {step' : Marks β → β → Except (Stop β) (Marks β)}
    (h : ∀ st a, step' (st.map f) (f a) = mapOutcome f (step st a)) :
    ∀ (l : List α) (st : Marks α),
      (l.map f).foldlM step' (st.map f) = mapOutcome f (l.foldlM step st)
  | [], _ => rfl
  | a :: l, st => by
    rw [List.map_cons, List.foldlM_cons, List.foldlM_cons, h]
    rcases step st a with e | st₁
    · rfl
    · exact foldlM_map h l st₁

variable (hf : Function.Injective f)

omit [DecidableEq α] [DecidableEq β] in
theorem deepest_map {depth : Dict α ℕ → α → Option (ℕ × Dict α ℕ)}
    {depth' : Dict β ℕ → β → Option (ℕ × Dict β ℕ)}
    (h : ∀ cache a, depth' (cache.mapKeys f hf) (f a)
      = (depth cache a).map (Prod.map id (Dict.mapKeys f hf))) :
    ∀ (l : List α) (most : ℕ) (cache : Dict α ℕ),
      deepest depth' most (cache.mapKeys f hf) (l.map f)
        = (deepest depth most cache l).map (Prod.map id (Dict.mapKeys f hf))
  | [], _, _ => rfl
  | a :: l, most, cache => by
    rw [List.map_cons, deepest, deepest, h]
    rcases depth cache a with _ | ⟨k, cache'⟩
    · rfl
    · exact deepest_map h l _ _

variable {deps : α → List α} {deps' : β → List β} (hd : ∀ a, deps' (f a) = (deps a).map f)

include hf hd

theorem dfs_map : ∀ (fuel : ℕ) (st : Marks α) (a : α),
    dfs deps' fuel (st.map f) (f a) = mapOutcome f (dfs deps fuel st a) := by
  have hmem : ∀ (a : α) (l : List α), f a ∈ l.map f ↔ a ∈ l :=
    fun a l => List.mem_map_of_injective hf
  intro fuel
  induction fuel with
  | zero =>
    intro st a
    simp only [dfs, Marks.map, hmem]
    split_ifs <;> rfl
  | succ fuel ih =>
    intro st a
    by_cases hv : a ∈ st.visited
    · rw [dfs, dfs, if_pos hv, if_pos (by simpa [Marks.map] using (hmem a _).mpr hv)]
      rfl
    by_cases hg : a ∈ st.visiting
    · rw [dfs, dfs, if_neg hv, if_neg (by simpa [Marks.map, hmem] using hv), if_pos hg,
        if_pos (by simpa [Marks.map, hmem] using hg)]
      rfl
    rw [dfs_enter deps hv hg, dfs_enter deps' (by simpa [Marks.map, hmem] using hv)
      (by simpa [Marks.map, hmem] using hg), hd]
    have hl := foldlM_map ih (deps a) ⟨a :: st.visiting, st.visited⟩
    simp only [Marks.map, List.map_cons] at hl ⊢
    rw [hl]
    rcases (deps a).foldlM (dfs deps fuel) ⟨a :: st.visiting, st.visited⟩ with e | st₁
    · rfl
    · simp [mapOutcome, Marks.map, bind, Except.bind, List.map_erase hf]

theorem depthOf_map : ∀ (fuel : ℕ) (cache : Dict α ℕ) (a : α),
    depthOf deps' fuel (cache.mapKeys f hf) (f a)
      = (depthOf deps fuel cache a).map (Prod.map id (Dict.mapKeys f hf)) := by
  intro fuel
  induction fuel with
  | zero =>
    intro cache a
    simp only [depthOf, Dict.get?_mapKeys, hd, List.map_eq_nil_iff]
    split
    · rfl
    · split_ifs
      · simp [Dict.mapKeys_set]
      · rfl
  | succ fuel ih =>
    intro cache a
    simp only [depthOf, Dict.get?_mapKeys, hd, List.map_eq_nil_iff]
    split
    · rfl
    · split_ifs
      · simp [Dict.mapKeys_set]
      · rw [deepest_map hf ih]
        rcases deepest (depthOf deps fuel) 0 cache (deps a) with _ | ⟨k, cache'⟩
        · rfl
        · simp [Dict.mapKeys_set]

theorem depthMap_map (fuel : ℕ) : ∀ (l : List α) (cache : Dict α ℕ),
    depthMap deps' fuel (cache.mapKeys f hf) (l.map f)
      = (depthMap deps fuel cache l).map (Dict.mapKeys f hf)
  | [], _ => rfl
  | a :: l, cache => by
    rw [List.map_cons, depthMap, depthMap, depthOf_map hf hd]
    rcases depthOf deps fuel cache a with _ | ⟨k, cache'⟩
    · rfl
    · exact depthMap_map fuel l cache'

end Map

end Dag
