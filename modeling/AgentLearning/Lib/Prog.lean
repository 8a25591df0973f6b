import Mathlib.Logic.Relation
import Mathlib.Tactic.Common

/-!
# Programs of atomic actions on a shared state

A program either has ended, with a value or an exception, or is about to take one atomic action:
it reads an input from outside and the shared state, updates the state, and goes on with the
program that is left. Threads that share a state are programs whose actions are interleaved.

`Simulates` compares two programs on two kinds of state. `Safe` is the rely/guarantee judgement:
whatever the others do within the rely, every action keeps the guarantee and every end meets its
postcondition. `Bounded` bounds the cost of all the actions a program can still take. `Follows` runs
a protocol beside the program: a ghost state that the program does not have and that its actions
move by the protocol's rules. `Served` does the same in an environment that keeps to what the ghost
state lets it do, and there the program raises nothing.
-/

/-- A program over inputs `ι` and shared states `σ` that ends in an `α` or an exception `χ`. -/
inductive Prog (ι σ χ α : Type) where
  | ret (a : α)
  | raise (x : χ)
  | act (upd : ι → σ → σ) (next : ι → σ → Prog ι σ χ α)

namespace Prog

variable {ι σ χ α β : Type}

def bind : Prog ι σ χ α → (α → Prog ι σ χ β) → Prog ι σ χ β
  | .ret a, f => f a
  | .raise x, _ => .raise x
  | .act upd next, f => .act upd fun i s => (next i s).bind f

instance : Monad (Prog ι σ χ) where
  pure := .ret
  bind := bind

theorem bind_assoc {γ : Type} (f : α → Prog ι σ χ β) (g : β → Prog ι σ χ γ) :
    ∀ p : Prog ι σ χ α, (p >>= f) >>= g = p >>= fun a => f a >>= g
  | .ret _ => rfl
  | .raise _ => rfl
  | .act upd next => congrArg (Prog.act upd) (by
      funext i s
      exact bind_assoc f g (next i s))

/-- One action that runs `f` on the state; a failing `f` leaves the state and raises. -/
def atomic (f : σ → Except χ (α × σ)) : Prog ι σ χ α :=
  .act (fun _ s => match f s with | .ok (_, s') => s' | .error _ => s)
    fun _ s => match f s with | .ok (a, _) => .ret a | .error x => .raise x

/-- One action that only takes what comes from outside. -/
def await (g : ι → Except χ α) : Prog ι σ χ α :=
  .act (fun _ s => s) fun i _ => match g i with | .ok a => .ret a | .error x => .raise x

/-- What was computed without an action, or the exception it raised. -/
def ofExcept : Except χ α → Prog ι σ χ α
  | .ok a => .ret a
  | .error x => .raise x

/-- The program takes no further action. -/
def ended : Prog ι σ χ α → Bool
  | .act _ _ => false
  | _ => true

section Run

/-- The program run alone, on the same input at every action. -/
def run (i : ι) : Prog ι σ χ α → σ → Except χ α × σ
  | .ret a, s => (.ok a, s)
  | .raise x, s => (.error x, s)
  | .act upd next, s => (next i s).run i (upd i s)

@[simp]
theorem run_pure (i : ι) (a : α) (s : σ) : (Pure.pure a : Prog ι σ χ α).run i s = (.ok a, s) := rfl

@[simp]
theorem run_ofExcept (i : ι) (r : Except χ α) (s : σ) :
    (ofExcept r : Prog ι σ χ α).run i s = (r, s) := by
  cases r <;> rfl

@[simp]
theorem run_atomic_ok (i : ι) (f : σ → α × σ) (s : σ) :
    (atomic (fun s => .ok (f s)) : Prog ι σ χ α).run i s = (.ok (f s).1, (f s).2) := rfl

@[simp]
theorem run_bind (i : ι) (f : α → Prog ι σ χ β) : ∀ (p : Prog ι σ χ α) (s : σ),
    (p >>= f).run i s = match p.run i s with
      | (.ok a, s') => (f a).run i s'
      | (.error x, s') => (.error x, s')
  | .ret _, _ => rfl
  | .raise _, _ => rfl
  | .act upd next, s => run_bind i f (next i s) (upd i s)

@[simp]
theorem run_map (i : ι) (f : α → β) (p : Prog ι σ χ α) (s : σ) :
    (f <$> p).run i s = ((p.run i s).1.map f, (p.run i s).2) := by
  show (p >>= Pure.pure ∘ f).run i s = _
  rw [run_bind]
  rcases p.run i s with ⟨_ | _, _⟩ <;> rfl

end Run

section Simulates

variable {σ' : Type} (R : σ → σ' → Prop)

/-- In related states the programs take the same actions step by step: these keep the states
related, and both end alike. -/
def Simulates : Prog ι σ χ α → Prog ι σ' χ α → Prop
  | .ret a, .ret a' => a = a'
  | .raise x, .raise x' => x = x'
  | .act upd next, .act upd' next' => ∀ i s s', R s s' →
      R (upd i s) (upd' i s') ∧ Simulates (next i s) (next' i s')
  | _, _ => False

variable {R}

theorem Simulates.pure (a : α) :
    Simulates R (Pure.pure a : Prog ι σ χ α) (Pure.pure a : Prog ι σ' χ α) := rfl

theorem Simulates.ofExcept (r : Except χ α) :
    Simulates R (ofExcept r : Prog ι σ χ α) (ofExcept r : Prog ι σ' χ α) := by
  cases r <;> rfl

theorem Simulates.bind {f : α → Prog ι σ χ β} {f' : α → Prog ι σ' χ β}
    (hf : ∀ a, Simulates R (f a) (f' a)) :
    ∀ {p : Prog ι σ χ α} {p' : Prog ι σ' χ α}, Simulates R p p' →
      Simulates R (p >>= f) (p' >>= f')
  | .ret a, .ret _, rfl => hf a
  | .raise _, .raise _, h => h
  | .act _ next, .act _ next', h => fun i s s' hs => by
    have hnext : Simulates R (next i s) (next' i s') := (h i s s' hs).2
    exact ⟨(h i s s' hs).1, Simulates.bind hf hnext⟩

theorem Simulates.map {p : Prog ι σ χ α} {p' : Prog ι σ' χ α} (h : Simulates R p p')
    (g : α → β) : Simulates R (g <$> p) (g <$> p') :=
  Simulates.bind (f := Pure.pure ∘ g) (fun a => Simulates.pure (g a)) h

/-- Actions that never fail and answer alike. -/
theorem Simulates.atomic {f : σ → α × σ} {f' : σ' → α × σ'}
    (hf : ∀ s s', R s s' → (f s).1 = (f' s').1 ∧ R (f s).2 (f' s').2) :
    Simulates R (atomic fun s => .ok (f s) : Prog ι σ χ α)
      (atomic fun s => .ok (f' s) : Prog ι σ' χ α) :=
  fun _ s s' hs => ⟨(hf s s' hs).2, (hf s s' hs).1⟩

theorem Simulates.run (i : ι) : ∀ {p : Prog ι σ χ α} {p' : Prog ι σ' χ α} {s : σ} {s' : σ'},
    Simulates R p p' → R s s' →
      (p.run i s).1 = (p'.run i s').1 ∧ R (p.run i s).2 (p'.run i s').2
  | .ret _, .ret _, _, _, rfl, hs => ⟨rfl, hs⟩
  | .raise _, .raise _, _, _, rfl, hs => ⟨rfl, hs⟩
  | .act _ next, .act _ next', s, s', h, hs => by
    have hnext : Simulates R (next i s) (next' i s') := (h i s s' hs).2
    have hrun := Simulates.run i hnext (h i s s' hs).1
    exact hrun

end Simulates

section Safe

variable (R G : σ → σ → Prop) (X : χ → σ → Prop)

/-- Between its actions the others move within `R`; each of its actions is in `G`, and it ends
in `Q`, or with an exception in `X`. -/
def Safe (Q : α → σ → Prop) : Prog ι σ χ α → σ → Prop
  | .ret a, s => ∀ s', R s s' → Q a s'
  | .raise x, s => ∀ s', R s s' → X x s'
  | .act upd next, s => ∀ s', R s s' → ∀ i, G s' (upd i s') ∧ Safe Q (next i s') (upd i s')

variable {R G X} {Q : α → σ → Prop}

/-- What the others do within the rely keeps a program safe. -/
theorem Safe.stable [IsTrans σ R] {p : Prog ι σ χ α} {s s' : σ} (h : Safe R G X Q p s)
    (hs : R s s') : Safe R G X Q p s' := by
  cases p with
  | ret a => exact fun s'' h' => h s'' (IsTrans.trans _ _ _ hs h')
  | raise x => exact fun s'' h' => h s'' (IsTrans.trans _ _ _ hs h')
  | act upd next => exact fun s'' h' => h s'' (IsTrans.trans _ _ _ hs h')

theorem Safe.pure {a : α} {s : σ} (h : ∀ s', R s s' → Q a s') :
    Safe R G X Q (Pure.pure a : Prog ι σ χ α) s := h

theorem Safe.bind [Std.Refl R] {Q' : β → σ → Prop} {f : α → Prog ι σ χ β}
    (hf : ∀ a s, Q a s → Safe R G X Q' (f a) s) :
    ∀ {p : Prog ι σ χ α} {s : σ}, Safe R G X Q p s → Safe R G X Q' (p >>= f) s
  | .ret a, s, h => hf a s (h s (Std.Refl.refl s))
  | .raise _, _, h => h
  | .act _ next, _, h => fun s' hs i =>
    ⟨(h s' hs i).1, Safe.bind hf (p := next i s') (h s' hs i).2⟩

theorem Safe.atomic {f : σ → Except χ (α × σ)} {s : σ}
    (hok : ∀ s' a s'', R s s' → f s' = .ok (a, s'') → G s' s'' ∧ ∀ t, R s'' t → Q a t)
    (herr : ∀ s' x, R s s' → f s' = .error x → G s' s' ∧ ∀ t, R s' t → X x t) :
    Safe R G X Q (Prog.atomic f : Prog ι σ χ α) s := by
  intro s' hs i
  rcases hf : f s' with x | ⟨a, s''⟩
  · simp only [hf]
    exact herr s' x hs hf
  · simp only [hf]
    exact hok s' a s'' hs hf

theorem Safe.await [IsTrans σ R] [Std.Refl G] {g : ι → Except χ α} {s : σ}
    (hok : ∀ i a t, g i = .ok a → R s t → Q a t)
    (herr : ∀ i x t, g i = .error x → R s t → X x t) :
    Safe R G X Q (Prog.await g : Prog ι σ χ α) s := by
  intro s' hs i
  refine ⟨Std.Refl.refl s', ?_⟩
  rcases hg : g i with x | a
  · simp only [hg]
    exact fun t ht => herr i x t hg (IsTrans.trans _ _ _ hs ht)
  · simp only [hg]
    exact fun t ht => hok i a t hg (IsTrans.trans _ _ _ hs ht)

end Safe

section Bounded

variable (c : σ → σ → ℕ)

/-- The actions the program can still take cost at most `n`, each priced by `c` on the states
before and after it. -/
def Bounded : ℕ → Prog ι σ χ α → Prop
  | n, .act upd next => ∀ i s, ∃ m, c s (upd i s) + m ≤ n ∧ Bounded m (next i s)
  | _, _ => True

variable {c}

theorem Bounded.mono : ∀ {p : Prog ι σ χ α} {n m : ℕ}, Bounded c n p → n ≤ m → Bounded c m p
  | .ret _, _, _, _, _ => trivial
  | .raise _, _, _, _, _ => trivial
  | .act _ _, _, _, h, hnm => fun i s => by
    obtain ⟨k, hk, hb⟩ := h i s
    exact ⟨k, Nat.le_trans hk hnm, hb⟩

theorem Bounded.bind {f : α → Prog ι σ χ β} {m : ℕ} (hf : ∀ a, Bounded c m (f a)) :
    ∀ {p : Prog ι σ χ α} {n : ℕ}, Bounded c n p → Bounded c (n + m) (p >>= f)
  | .ret a, _, _ => (hf a).mono (Nat.le_add_left _ _)
  | .raise _, _, _ => trivial
  | .act _ next, n, h => fun i s => by
    obtain ⟨k, hk, hb⟩ := h i s
    exact ⟨k + m, by omega, Bounded.bind hf (p := next i s) hb⟩

theorem Bounded.bind_pure {g : α → β} {p : Prog ι σ χ α} {n : ℕ} (h : Bounded c n p) :
    Bounded c n (p >>= fun a => Pure.pure (g a)) :=
  Bounded.bind (f := fun a => Pure.pure (g a)) (m := 0) (fun _ => trivial) h

theorem Bounded.atomic {f : σ → Except χ (α × σ)} {n : ℕ}
    (hok : ∀ s a s', f s = .ok (a, s') → c s s' ≤ n) (herr : ∀ s x, f s = .error x → c s s ≤ n) :
    Bounded c n (Prog.atomic f : Prog ι σ χ α) := by
  intro i s
  refine ⟨0, ?_⟩
  rcases hf : f s with x | ⟨a, s'⟩
  · simp only [hf, Nat.add_zero]
    exact ⟨herr s x hf, trivial⟩
  · simp only [hf, Nat.add_zero]
    exact ⟨hok s a s' hf, trivial⟩

theorem Bounded.await {g : ι → Except χ α} {n : ℕ} (h : ∀ s, c s s ≤ n) :
    Bounded c n (Prog.await g : Prog ι σ χ α) := by
  intro i s
  refine ⟨0, h s, ?_⟩
  rcases hg : g i with x | a <;> simp only [hg] <;> exact trivial

end Bounded

section Follows

variable {γ : Type} (A : ι → σ → Prop) (T : γ → σ → σ → γ → Prop) (X : χ → γ → Prop)

/-- On the inputs and states in `A`, every action of the program moves the ghost state by the
protocol `T`, and it ends with one in `Q`, or with an exception in `X`. -/
def Follows (Q : α → γ → Prop) : Prog ι σ χ α → γ → Prop
  | .ret a, g => Q a g
  | .raise x, g => X x g
  | .act upd next, g => ∀ i s, A i s → ∃ g', T g s (upd i s) g' ∧ Follows Q (next i s) g'

variable {A T X} {Q : α → γ → Prop}

theorem Follows.pure {a : α} {g : γ} (h : Q a g) :
    Follows A T X Q (Pure.pure a : Prog ι σ χ α) g := h

theorem Follows.bind {Q' : β → γ → Prop} {f : α → Prog ι σ χ β}
    (hf : ∀ a g, Q a g → Follows A T X Q' (f a) g) :
    ∀ {p : Prog ι σ χ α} {g : γ}, Follows A T X Q p g → Follows A T X Q' (p >>= f) g
  | .ret a, g, h => hf a g h
  | .raise _, _, h => h
  | .act _ next, _, h => fun i s ha => by
    obtain ⟨g', hT, hnext⟩ := h i s ha
    exact ⟨g', hT, Follows.bind hf (p := next i s) hnext⟩

theorem Follows.bind_pure {Q' : β → γ → Prop} {f : α → β} {p : Prog ι σ χ α} {g : γ}
    (h : Follows A T X (fun a => Q' (f a)) p g) :
    Follows A T X Q' (p >>= fun a => Pure.pure (f a)) g :=
  Follows.bind (f := fun a => Pure.pure (f a)) (fun _ _ h => h) h

theorem Follows.atomic {f : σ → Except χ (α × σ)} {g : γ}
    (hok : ∀ i s a s', A i s → f s = .ok (a, s') → ∃ g', T g s s' g' ∧ Q a g')
    (herr : ∀ i s x, A i s → f s = .error x → ∃ g', T g s s g' ∧ X x g') :
    Follows A T X Q (Prog.atomic f : Prog ι σ χ α) g := by
  intro i s ha
  rcases hf : f s with x | ⟨a, s'⟩
  · simp only [hf]
    exact herr i s x ha hf
  · simp only [hf]
    exact hok i s a s' ha hf

theorem Follows.await {k : ι → Except χ α} {g : γ} (hT : ∀ s, T g s s g)
    (hok : ∀ i s a, A i s → k i = .ok a → Q a g)
    (herr : ∀ i s x, A i s → k i = .error x → X x g) :
    Follows A T X Q (Prog.await k : Prog ι σ χ α) g := by
  intro i s ha
  refine ⟨g, hT s, ?_⟩
  rcases hk : k i with x | a
  · simp only [hk]
    exact herr i s x ha hk
  · simp only [hk]
    exact hok i s a ha hk

end Follows

section Served

variable {γ : Type} (A : γ → ι → σ → Prop) (T : γ → σ → σ → γ → Prop)

/-- On the inputs and states that the ghost state allows, every action moves the ghost state by `T`,
and the program ends with a value in `Q`. -/
def Served (Q : α → γ → Prop) : Prog ι σ χ α → γ → Prop
  | .ret a, g => Q a g
  | .raise _, _ => False
  | .act upd next, g => ∀ i s, A g i s → ∃ g', T g s (upd i s) g' ∧ Served Q (next i s) g'

variable {A T} {Q : α → γ → Prop}

theorem Served.pure {a : α} {g : γ} (h : Q a g) :
    Served A T Q (Pure.pure a : Prog ι σ χ α) g := h

theorem Served.bind {Q' : β → γ → Prop} {f : α → Prog ι σ χ β}
    (hf : ∀ a g, Q a g → Served A T Q' (f a) g) :
    ∀ {p : Prog ι σ χ α} {g : γ}, Served A T Q p g → Served A T Q' (p >>= f) g
  | .ret a, g, h => hf a g h
  | .act _ next, _, h => fun i s ha => by
    obtain ⟨g', hT, hnext⟩ := h i s ha
    exact ⟨g', hT, Served.bind hf (p := next i s) hnext⟩

theorem Served.atomic {f : σ → Except χ (α × σ)} {g : γ}
    (h : ∀ i s, A g i s → ∃ a s' g', f s = .ok (a, s') ∧ T g s s' g' ∧ Q a g') :
    Served A T Q (Prog.atomic f : Prog ι σ χ α) g := by
  intro i s ha
  obtain ⟨a, s', g', hf, hT, hQ⟩ := h i s ha
  simp only [hf]
  exact ⟨g', hT, hQ⟩

theorem Served.await {k : ι → Except χ α} {g : γ}
    (h : ∀ i s, A g i s → T g s s g ∧ ∃ a, k i = .ok a ∧ Q a g) :
    Served A T Q (Prog.await k : Prog ι σ χ α) g := by
  intro i s ha
  obtain ⟨hT, a, hk, hQ⟩ := h i s ha
  refine ⟨g, hT, ?_⟩
  simp only [hk]
  exact hQ

end Served

end Prog
