import Mathlib.Data.List.Forall2
import Mathlib.Tactic.Common
import AgentLearning.Lib.Prog

/-!
# Pools of workers

Programs that share a state are run in order, or by the workers of a pool, who take their actions in
any order. `Yields` is what makes the difference vanish: on the states of an invariant, which the
program keeps, it ends in one result, whatever the others do to the state meanwhile. A pool of such
programs collects what running them in order gives.
-/

namespace Prog

variable {ι σ χ α β : Type}

/-- What a program that has ended gives or raises. -/
def outcome : Prog ι σ χ α → Option (Except χ α)
  | .ret a => some (.ok a)
  | .raise x => some (.error x)
  | .act _ _ => none

/-- One program after the other. -/
def inOrder : List (Prog ι σ χ α) → Prog ι σ χ (List α)
  | [] => Pure.pure []
  | p :: ps => do
    let a ← p
    let as ← inOrder ps
    Pure.pure (a :: as)

section Yields

variable (I : σ → Prop)

/-- The program keeps the invariant and ends in the result. -/
def Yields (result : Except χ α) : Prog ι σ χ α → Prop
  | .ret a => result = .ok a
  | .raise x => result = .error x
  | .act upd next => ∀ i s, I s → I (upd i s) ∧ Yields result (next i s)

variable {I} {result : Except χ α}

theorem Yields.pure (a : α) : Yields I (.ok a) (Pure.pure a : Prog ι σ χ α) := rfl

theorem Yields.ofExcept (result : Except χ α) :
    Yields I result (ofExcept result : Prog ι σ χ α) := by
  cases result <;> rfl

theorem Yields.atomic {f : σ → α × σ} {a : α} (h : ∀ s, I s → (f s).1 = a ∧ I (f s).2) :
    Yields I (.ok a) (Prog.atomic fun s => .ok (f s) : Prog ι σ χ α) :=
  fun _ s hs => ⟨(h s hs).2, congrArg Except.ok (h s hs).1.symm⟩

theorem Yields.bind {f : α → Prog ι σ χ β} {a : α} {result : Except χ β}
    (hf : Yields I result (f a)) : ∀ {p : Prog ι σ χ α}, Yields I (.ok a) p →
      Yields I result (p >>= f)
  | .ret _, h => by
    cases h
    exact hf
  | .raise _, h => by cases h
  | .act _ next, h => fun i s hs =>
    ⟨(h i s hs).1, Yields.bind hf (p := next i s) (h i s hs).2⟩

theorem Yields.bind_error {f : α → Prog ι σ χ β} {x : χ} :
    ∀ {p : Prog ι σ χ α}, Yields I (.error x) p → Yields I (.error x) (p >>= f)
  | .ret _, h => by cases h
  | .raise _, h => by
    cases h
    rfl
  | .act _ next, h => fun i s hs =>
    ⟨(h i s hs).1, Yields.bind_error (p := next i s) (h i s hs).2⟩

theorem Yields.run (i : ι) : ∀ {p : Prog ι σ χ α} {s : σ}, Yields I result p → I s →
    (p.run i s).1 = result ∧ I (p.run i s).2
  | .ret _, _, h, hs => ⟨h.symm, hs⟩
  | .raise _, _, h, hs => ⟨h.symm, hs⟩
  | .act _ next, s, h, hs => Yields.run i (p := next i s) (h i s hs).2 (h i s hs).1

theorem Yields.inOrder : ∀ {results : List (Except χ α)} {ps : List (Prog ι σ χ α)},
    List.Forall₂ (Yields I) results ps → Yields I (results.mapM id) (inOrder ps)
  | _, _, .nil => rfl
  | .ok a :: results, _, .cons h htail => by
    have hrest := Yields.inOrder htail
    rw [List.mapM_cons]
    refine Yields.bind ?_ h
    show Yields I ((results.mapM id).bind fun as => .ok (a :: as)) _
    rcases hresults : results.mapM id with x | as
    · rw [hresults] at hrest
      exact hrest.bind_error
    · rw [hresults] at hrest
      exact Yields.bind (f := fun as => Pure.pure (a :: as)) (a := as) (Yields.pure _) hrest
  | .error x :: _, _, .cons h _ => h.bind_error

end Yields

end Prog

/-- The workers' programs, in the order in which they were submitted. -/
structure WorkerPool (ι σ χ α : Type) where
  workers : List (Prog ι σ χ α)
  state : σ

namespace WorkerPool

open Prog (Yields Bounded)

variable {ι σ χ α : Type} (pool : WorkerPool ι σ χ α)

/-- The next action of a worker; one that has ended does nothing. -/
def step (turn : ℕ × ι) : WorkerPool ι σ χ α :=
  match pool.workers[turn.1]? with
  | some (.act upd next) =>
    { workers := pool.workers.set turn.1 (next turn.2 pool.state)
      state := upd turn.2 pool.state }
  | _ => pool

/-- The actions of the workers in the order in which they have their turns. -/
def run (schedule : List (ℕ × ι)) : WorkerPool ι σ χ α := schedule.foldl step pool

/-- Waiting for one result after the other, from the `k`-th on. A wait that is late ends with the
exception `timeout`. -/
def await (timeout : χ) (late : ℕ → Bool) : ℕ → List (Except χ α) → Except χ (List α)
  | _, [] => .ok []
  | k, result :: results => do
    let a ← if late k then .error timeout else result
    let as ← await timeout late (k + 1) results
    pure (a :: as)

/-- What is collected in the order of submission, once all have ended: the results, or the first
exception of them or of a wait. -/
def collect (timeout : χ) (late : ℕ → Bool) : Option (Except χ (List α)) :=
  (pool.workers.mapM Prog.outcome).map (await timeout late 0)

section Await

variable {timeout : χ} {late : ℕ → Bool}

/-- If no wait is late, nothing but the results matters. -/
theorem await_eq : ∀ {k : ℕ} {results : List (Except χ α)},
    (∀ j, k ≤ j → j < k + results.length → late j = false) →
      await timeout late k results = results.mapM id
  | _, [], _ => rfl
  | k, result :: results, h => by
    have hhead : late k = false := h k (Nat.le_refl k) (by simp)
    have htail : await timeout late (k + 1) results = results.mapM id := by
      refine await_eq fun j hj hlt => h j (by omega) ?_
      rw [List.length_cons]
      omega
    rw [await, hhead, htail, List.mapM_cons]
    rfl

/-- A wait that is late can only change what is collected into its exception. -/
theorem await_cases (timeout : χ) (late : ℕ → Bool) : ∀ (k : ℕ) (results : List (Except χ α)),
    await timeout late k results = results.mapM id
      ∨ (∃ j, k ≤ j ∧ j < k + results.length ∧ late j = true)
        ∧ await timeout late k results = .error timeout
  | _, [] => .inl rfl
  | k, result :: results => by
    by_cases hhead : late k = true
    · refine .inr ⟨⟨k, Nat.le_refl k, by simp, hhead⟩, ?_⟩
      rw [await, if_pos hhead]
      rfl
    · rw [await, if_neg hhead, List.mapM_cons]
      rcases result with x | a
      · exact .inl rfl
      · rcases await_cases timeout late (k + 1) results with htail | ⟨⟨j, hj, hlt, hlate⟩, htail⟩
        · exact .inl (by rw [htail]; rfl)
        · refine .inr ⟨⟨j, by omega, ?_, hlate⟩, by rw [htail]; rfl⟩
          rw [List.length_cons]
          omega

end Await

section Yields

variable {I : σ → Prop} {results : List (Except χ α)} {pool}

/-- Every worker yields its result. -/
structure Settled (I : σ → Prop) (results : List (Except χ α)) (pool : WorkerPool ι σ χ α) :
    Prop where
  state : I pool.state
  workers : List.Forall₂ (Yields I) results pool.workers

theorem forall₂_set {R : Except χ α → Prog ι σ χ α → Prop} {k : ℕ} {q : Prog ι σ χ α} :
    ∀ {results ps}, List.Forall₂ R results ps →
      (∀ result p, ps[k]? = some p → R result p → R result q) →
      List.Forall₂ R results (ps.set k q)
  | _, _, .nil, _ => .nil
  | _, _, .cons h htail, hq => by
    cases k with
    | zero => exact .cons (hq _ _ rfl h) htail
    | succ k => exact .cons h (forall₂_set htail fun result p hp => hq result p hp)

theorem Settled.step (h : pool.Settled I results) (turn : ℕ × ι) :
    (pool.step turn).Settled I results := by
  unfold WorkerPool.step
  split
  · rename_i upd next hworker
    -- what a worker owes does not depend on which state it finds, as long as it is in `I`
    obtain ⟨result, hyields⟩ : ∃ result, Yields I result (.act upd next) := by
      obtain ⟨hk, hget⟩ := List.getElem?_eq_some_iff.mp hworker
      have hlength := h.workers.length_eq
      have hyields := h.workers.get (hlength ▸ hk) hk
      rw [List.get_eq_getElem, List.get_eq_getElem] at hyields
      exact ⟨_, hget ▸ hyields⟩
    refine ⟨(hyields turn.2 pool.state h.state).1, forall₂_set h.workers ?_⟩
    intro result p hp hresult
    rw [hworker, Option.some.injEq] at hp
    subst hp
    exact (hresult turn.2 pool.state h.state).2
  · exact h

theorem Settled.run (h : pool.Settled I results) (schedule : List (ℕ × ι)) :
    (pool.run schedule).Settled I results := by
  unfold WorkerPool.run
  induction schedule generalizing pool with
  | nil => exact h
  | cons turn schedule ih => exact ih (h.step turn)

theorem mapM_outcome_of_yields : ∀ {results : List (Except χ α)} {ps : List (Prog ι σ χ α)},
    List.Forall₂ (Yields I) results ps →
      ps.mapM Prog.outcome = if ps.all Prog.ended then some results else none
  | _, _, .nil => rfl
  | result :: results, p :: ps, .cons h htail => by
    have hrest := mapM_outcome_of_yields htail
    have hhead : p.outcome = if p.ended then some result else none := by
      cases p with
      | ret a => exact congrArg some h.symm
      | raise x => exact congrArg some h.symm
      | act upd next => rfl
    rw [List.mapM_cons, hhead, hrest, List.all_cons]
    cases p.ended <;> cases ps.all Prog.ended <;> rfl

theorem Settled.collect (h : pool.Settled I results) (timeout : χ) (late : ℕ → Bool) :
    pool.collect timeout late
      = if pool.workers.all Prog.ended then some (await timeout late 0 results) else none := by
  unfold WorkerPool.collect
  rw [mapM_outcome_of_yields h.workers]
  split_ifs <;> rfl

end Yields

/-! ## How long it takes -/

section Turns

/-- The worker takes at most `n` more actions. -/
abbrev Within (n : ℕ) (p : Prog ι σ χ α) : Prop := Bounded (fun _ _ => 1) n p

theorem Within.next {n : ℕ} {upd : ι → σ → σ} {next : ι → σ → Prog ι σ χ α}
    (h : Within n (.act upd next)) (i : ι) (s : σ) : Within (n - 1) (next i s) := by
  obtain ⟨m, hm, hnext⟩ := h i s
  have hm : 1 + m ≤ n := hm
  exact hnext.mono (by omega)

theorem ended_of_within_zero {p : Prog ι σ χ α} [Nonempty ι] [Nonempty σ] (h : Within 0 p) :
    p.ended = true := by
  cases p with
  | ret a => rfl
  | raise x => rfl
  | act upd next =>
    obtain ⟨m, hm, -⟩ := h (Classical.arbitrary ι) (Classical.arbitrary σ)
    have hm : 1 + m ≤ 0 := hm
    omega

variable {pool}

theorem length_run (schedule : List (ℕ × ι)) :
    (pool.run schedule).workers.length = pool.workers.length := by
  unfold WorkerPool.run
  induction schedule generalizing pool with
  | nil => rfl
  | cons turn schedule ih =>
    rw [List.foldl_cons, ih]
    unfold WorkerPool.step
    split <;> simp

/-- A worker has one action less to take after each of its turns. -/
theorem within_run {n k : ℕ} (schedule : List (ℕ × ι))
    (h : ∀ p, pool.workers[k]? = some p → Within n p) :
    ∀ p, (pool.run schedule).workers[k]? = some p →
      Within (n - (schedule.map Prod.fst).count k) p := by
  unfold WorkerPool.run
  induction schedule generalizing pool n with
  | nil => simpa using h
  | cons turn schedule ih =>
    intro p hp
    rw [List.foldl_cons] at hp
    rw [List.map_cons, List.count_cons]
    by_cases hk : turn.1 = k
    · have hstep : ∀ p, (pool.step turn).workers[k]? = some p → Within (n - 1) p := by
        subst hk
        unfold WorkerPool.step
        split
        · rename_i upd next hworker
          intro p hp
          obtain ⟨hlt, -⟩ := List.getElem?_eq_some_iff.mp hworker
          rw [List.getElem?_set_self hlt, Option.some.injEq] at hp
          exact hp ▸ (h _ hworker).next _ _
        · rename_i hended
          intro p hp
          cases p with
          | ret a => trivial
          | raise x => trivial
          | act upd next => exact absurd hp (hended upd next)
      have := ih hstep p hp
      simpa [hk, Nat.sub_sub, Nat.add_comm] using this
    · have hstep : ∀ p, (pool.step turn).workers[k]? = some p → Within n p := by
        unfold WorkerPool.step
        split
        · simpa [List.getElem?_set_ne hk] using h
        · exact h
      simpa [hk] using ih hstep p hp

theorem ended_run [Nonempty ι] {n : ℕ} (schedule : List (ℕ × ι))
    (h : ∀ p ∈ pool.workers, Within n p)
    (hturns : ∀ k < pool.workers.length, n ≤ (schedule.map Prod.fst).count k) :
    (pool.run schedule).workers.all Prog.ended = true := by
  have : Nonempty σ := ⟨pool.state⟩
  rw [List.all_eq_true]
  intro p hp
  obtain ⟨k, hk, hget⟩ := List.mem_iff_getElem.mp hp
  have hwithin := within_run schedule (fun p hp => h p (List.mem_of_getElem? hp)) p
    (List.getElem?_eq_some_iff.mpr ⟨hk, hget⟩)
  rw [length_run] at hk
  rw [Nat.sub_eq_zero_of_le (hturns k hk)] at hwithin
  exact ended_of_within_zero hwithin

end Turns

end WorkerPool
