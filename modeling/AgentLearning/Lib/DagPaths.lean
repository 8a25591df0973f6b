import AgentLearning.Lib.Dag
import Mathlib.Data.List.Chain
import Mathlib.Logic.Relation
import Mathlib.Order.Bounds.Defs

/-!
# Cycles and longest chains

What the traversals of a dependency graph find. A `dfs` that stops at a node has come back to it
along what it is visiting, and one that ends leaves an order in which nothing comes back. The depth
of a node is the length of the longest chain of dependencies that ends in it, whatever was in the
cache.
-/

namespace Dag

open Relation

variable {α : Type*} {deps : α → List α}

/-- The node depends on the other. -/
def Edge (deps : α → List α) (a d : α) : Prop := d ∈ deps a

/-! ## Cycles -/

section Order

variable {l : List α} {a d : α}

theorem DepsLater.mem_of_edge : ∀ {l : List α}, DepsLater deps l → a ∈ l → Edge deps a d → d ∈ l
  | _ :: _, hl, ha, hd => by
    rcases List.mem_cons.mp ha with rfl | ha
    · exact List.mem_cons_of_mem _ (hl.1 d hd)
    · exact List.mem_cons_of_mem _ (hl.2.mem_of_edge ha hd)

theorem DepsLater.mem_of_transGen (hl : DepsLater deps l) (ha : a ∈ l)
    (h : TransGen (Edge deps) a d) : d ∈ l := by
  induction h with
  | single hd => exact hl.mem_of_edge ha hd
  | tail _ hd ih => exact hl.mem_of_edge ih hd

/-- Nothing in such an order comes back to itself. -/
theorem DepsLater.not_transGen :
    ∀ {l : List α}, DepsLater deps l → a ∈ l → ¬ TransGen (Edge deps) a a
  | b :: l, hl, ha, h => by
    by_cases hmem : a ∈ l
    · exact hl.2.not_transGen hmem h
    · obtain rfl : a = b := by simpa [hmem] using ha
      obtain ⟨d, hd, hback⟩ := TransGen.head'_iff.mp h
      rcases reflTransGen_iff_eq_or_transGen.mp hback with rfl | hback
      · exact hmem (hl.1 _ hd)
      · exact hmem (hl.2.mem_of_transGen (hl.1 d hd) hback)

end Order

section Dfs

variable [DecidableEq α]

/-- What is being visited, newest first, each a dependency of the next. -/
def Path (deps : α → List α) (visiting : List α) : Prop :=
  visiting.IsChain fun d a => Edge deps a d

omit [DecidableEq α] in
theorem Path.transGen {a b : α} {visiting : List α} (h : Path deps (a :: visiting))
    (hb : b ∈ visiting) : TransGen (Edge deps) b a := by
  have hchain : (a :: visiting).IsChain fun d a => TransGen (Edge deps) a d :=
    List.IsChain.imp (fun _ _ => .single) h
  have htrans : Trans (fun d a => TransGen (Edge deps) a d) (fun d a => TransGen (Edge deps) a d)
      (fun d a => TransGen (Edge deps) a d) := ⟨fun h h' => h'.trans h⟩
  exact hchain.rel_cons hb

theorem foldlM_cycle {fuel : ℕ} {v : List α} {c : α}
    (ih : ∀ {st : Marks α} {a : α}, DepsLater deps st.visited → st.visiting = v →
      Path deps (a :: v) → dfs deps fuel st a = .error (.cycle c) → TransGen (Edge deps) c c) :
    ∀ (l : List α) (st : Marks α), DepsLater deps st.visited → st.visiting = v →
      (∀ a ∈ l, Path deps (a :: v)) → l.foldlM (dfs deps fuel) st = .error (.cycle c) →
      TransGen (Edge deps) c c
  | [], _, _, _, _, h => by cases h
  | a :: l, st, hs, hv, hpath, h => by
    rw [List.foldlM_cons] at h
    rcases h1 : dfs deps fuel st a with e | st₁ <;> rw [h1] at h
    · exact ih hs hv (hpath a (by simp)) (h1.trans h)
    · have d := dfs_done deps fuel hs h1
      exact foldlM_cycle ih l st₁ d.sorted (d.visiting.trans hv)
        (fun a ha => hpath a (List.mem_cons_of_mem _ ha)) h

/-- A `dfs` stops at nodes that come back to themselves only. -/
theorem dfs_cycle {c : α} : ∀ (fuel : ℕ) {st : Marks α} {a : α}, DepsLater deps st.visited →
    Path deps (a :: st.visiting) → dfs deps fuel st a = .error (.cycle c) →
    TransGen (Edge deps) c c := by
  intro fuel
  induction fuel with
  | zero =>
    intro st a hs hpath h
    unfold dfs at h
    split_ifs at h with hv hg
    · cases h
      exact hpath.transGen hg
    · cases h
  | succ fuel ih =>
    intro st a hs hpath h
    rcases dfs_eq_error deps h with ⟨hg, hcycle⟩ | ⟨-, hf⟩
    · cases hcycle
      exact hpath.transGen hg
    · refine foldlM_cycle (v := a :: st.visiting) ?_ _ ⟨a :: st.visiting, st.visited⟩ hs rfl
        (fun d hd => ?_) hf
      · intro st₁ d hs₁ hv₁ hpath₁ h₁
        exact ih hs₁ (hv₁ ▸ hpath₁) h₁
      · exact List.isChain_cons_cons.mpr ⟨hd, hpath⟩

end Dfs

/-! ## Longest chains -/

section Chains

variable {r : α → α → Prop}

/-- There is a chain of so many nodes that ends in this one, each related to the one before. -/
inductive ChainTo (r : α → α → Prop) : α → ℕ → Prop
  | single (a : α) : ChainTo r a 1
  | cons {a d : α} {n : ℕ} : r a d → ChainTo r d n → ChainTo r a (n + 1)

/-- The length of the longest chain that ends in the node. -/
def Longest (r : α → α → Prop) (a : α) (k : ℕ) : Prop := IsGreatest {n | ChainTo r a n} k

theorem Longest.unique {a : α} {k k' : ℕ} (h : Longest r a k) (h' : Longest r a k') : k = k' :=
  Nat.le_antisymm (h'.2 h.1) (h.2 h'.1)

theorem chainTo_iff {a : α} {n : ℕ} :
    ChainTo r a n ↔ n = 1 ∨ ∃ d m, r a d ∧ ChainTo r d m ∧ n = m + 1 := by
  constructor
  · rintro (_ | ⟨hd, h⟩)
    · exact .inl rfl
    · exact .inr ⟨_, _, hd, h, rfl⟩
  · rintro (rfl | ⟨d, m, hd, h, rfl⟩)
    · exact .single a
    · exact .cons hd h

end Chains

/-- One more than the most of the dependencies, and one if there are none. -/
theorem longest_succ {a : α} {most : ℕ}
    (h : IsGreatest (insert 0 {n | ∃ d ∈ deps a, ChainTo (Edge deps) d n}) most) :
    Longest (Edge deps) a (1 + most) := by
  constructor
  · rcases h.1 with rfl | ⟨d, hd, hchain⟩
    · exact .single a
    · rw [Nat.add_comm]
      exact .cons hd hchain
  · rintro n (hn : ChainTo (Edge deps) a n)
    rcases chainTo_iff.mp hn with rfl | ⟨d, m, hd, hm, rfl⟩
    · omega
    · have hle : m ≤ most := h.2 (.inr ⟨d, hd, hm⟩)
      omega

section Depth

variable [DecidableEq α] {p : α → Prop}

/-- What the cache says is right, and it has nodes with `p` only. -/
def Sound (deps : α → List α) (p : α → Prop) (cache : Dict α ℕ) : Prop :=
  ∀ a k, cache.get? a = some k → p a ∧ Longest (Edge deps) a k

theorem sound_empty : Sound deps p ∅ := by
  intro a k h
  simp at h

theorem Sound.set {cache : Dict α ℕ} {a : α} {k : ℕ} (h : Sound deps p cache) (ha : p a)
    (hk : Longest (Edge deps) a k) : Sound deps p (cache.set a k) := by
  intro b j hj
  rw [Dict.get?_set] at hj
  split_ifs at hj with hab
  · cases hj
    rw [← hab]
    exact ⟨ha, hk⟩
  · exact h b j hj

theorem deepest_longest {depth : Dict α ℕ → α → Option (ℕ × Dict α ℕ)}
    (hdepth : ∀ {cache a k cache'}, Sound deps p cache → p a →
      depth cache a = some (k, cache') → Sound deps p cache' ∧ Longest (Edge deps) a k) :
    ∀ {l : List α} {most k : ℕ} {cache cache' : Dict α ℕ}, Sound deps p cache → (∀ a ∈ l, p a) →
      deepest depth most cache l = some (k, cache') →
      Sound deps p cache' ∧ IsGreatest (insert most {n | ∃ d ∈ l, ChainTo (Edge deps) d n}) k
  | [], most, _, _, _, hs, _, h => by
    cases h
    refine ⟨hs, .inl rfl, ?_⟩
    rintro n (rfl | ⟨d, hd, -⟩)
    · exact le_rfl
    · simp at hd
  | a :: l, most, k, cache, cache', hs, hp, h => by
    rw [deepest] at h
    rcases hd : depth cache a with _ | ⟨k₁, cache₁⟩ <;> rw [hd] at h
    · cases h
    · obtain ⟨hs₁, hlongest⟩ := hdepth hs (hp a (by simp)) hd
      obtain ⟨hs', hmem, hle⟩ := deepest_longest hdepth hs₁
        (fun a ha => hp a (List.mem_cons_of_mem _ ha)) h
      refine ⟨hs', ?_, ?_⟩
      · rcases hmem with rfl | ⟨d, hd, hchain⟩
        · rcases Nat.le_total k₁ most with hmost | hmost
          · exact .inl (Nat.max_eq_left hmost)
          · rw [Nat.max_eq_right hmost]
            exact .inr ⟨a, by simp, hlongest.1⟩
        · exact .inr ⟨d, List.mem_cons_of_mem _ hd, hchain⟩
      · have hmax : max most k₁ ≤ k := hle (.inl rfl)
        rintro n (rfl | ⟨d, hd, hchain⟩)
        · omega
        · rcases List.mem_cons.mp hd with rfl | hd
          · have hn : n ≤ k₁ := hlongest.2 hchain
            omega
          · exact hle (.inr ⟨d, hd, hchain⟩)

variable (hp : ∀ a, p a → ∀ d ∈ deps a, p d)

include hp

/-- Every depth is that of the longest chain, by induction on how deep the recursion goes, with the
cache as the invariant. -/
theorem depthOf_longest : ∀ (fuel : ℕ) {cache cache' : Dict α ℕ} {a : α} {k : ℕ},
    Sound deps p cache → p a → depthOf deps fuel cache a = some (k, cache') →
      Sound deps p cache' ∧ Longest (Edge deps) a k
  | fuel, cache, cache', a, k, hs, ha, h => by
    rcases depthOf_eq_some deps h
      with ⟨hc, rfl⟩ | ⟨hdeps, rfl, rfl⟩ | ⟨fuel, most, cache₁, rfl, hd, rfl, rfl⟩
    · exact ⟨hs, (hs a k hc).2⟩
    · have hlongest : Longest (Edge deps) a 1 := by
        have hnone : IsGreatest (insert 0 {n | ∃ d ∈ deps a, ChainTo (Edge deps) d n}) 0 := by
          refine ⟨.inl rfl, ?_⟩
          rintro n (rfl | ⟨d, hd, -⟩)
          · exact le_rfl
          · simp [hdeps] at hd
        exact longest_succ hnone
      exact ⟨hs.set ha hlongest, hlongest⟩
    · obtain ⟨hs₁, hmost⟩ := deepest_longest (depthOf_longest fuel) hs (hp a ha) hd
      exact ⟨hs₁.set ha (longest_succ hmost), longest_succ hmost⟩

theorem depthMap_sound {fuel : ℕ} : ∀ {as : List α} {cache cache' : Dict α ℕ},
    Sound deps p cache → (∀ a ∈ as, p a) → depthMap deps fuel cache as = some cache' →
      Sound deps p cache'
  | [], _, _, hs, _, h => by
    cases h
    exact hs
  | a :: as, cache, cache', hs, has, h => by
    rw [depthMap] at h
    rcases hd : depthOf deps fuel cache a with _ | ⟨k, cache₁⟩ <;> rw [hd] at h
    · cases h
    · exact depthMap_sound (depthOf_longest hp fuel hs (has a (by simp)) hd).1
        (fun a ha => has a (List.mem_cons_of_mem _ ha)) h

end Depth

end Dag
