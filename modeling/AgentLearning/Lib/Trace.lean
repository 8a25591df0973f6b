import Mathlib.Data.List.Induction
import Mathlib.Logic.Function.Basic
import Mathlib.Tactic.Common

/-!
# Traces of a machine

A machine takes an input in a state, gives an output and goes to the next state. A run is kept as
the list of its events, each with the state before and the state after it. Beside the rule that an
invariant holds along a run, there is a vocabulary for what a run says about the past: what happened
since the last event of a kind, what each key was last changed to, and what stands between any two
events of a kind. Each notion has one lemma, which says what a further event does to it.
-/

section Stretch

variable {α : Type*} (p : α → Bool)

/-- What comes after the last element with `p`, or everything if there is none. -/
def sinceLast (l : List α) : List α := (l.reverse.takeWhile fun x => !p x).reverse

@[simp]
theorem sinceLast_nil : sinceLast p [] = [] := rfl

theorem sinceLast_concat (l : List α) (x : α) :
    sinceLast p (l ++ [x]) = if p x then [] else sinceLast p l ++ [x] := by
  unfold sinceLast
  rw [List.reverse_append, List.reverse_singleton, List.singleton_append, List.takeWhile_cons]
  cases p x <;> simp

/-- The number of elements with `q` after the last one with `p`. -/
def countSince (q : α → Bool) (l : List α) : ℕ := (sinceLast p l).countP q

@[simp]
theorem countSince_nil (q : α → Bool) : countSince p q [] = 0 := rfl

theorem countSince_concat (q : α → Bool) (l : List α) (x : α) :
    countSince p q (l ++ [x])
      = if p x then 0 else countSince p q l + if q x then 1 else 0 := by
  unfold countSince
  rw [sinceLast_concat]
  split_ifs <;> simp_all

theorem countSince_le_length (q : α → Bool) (l : List α) : countSince p q l ≤ l.length := by
  unfold countSince sinceLast
  calc (l.reverse.takeWhile fun x => !p x).reverse.countP q
      ≤ (l.reverse.takeWhile fun x => !p x).reverse.length := List.countP_le_length
    _ = (l.reverse.takeWhile fun x => !p x).length := List.length_reverse
    _ ≤ l.reverse.length := (List.takeWhile_sublist _).length_le
    _ = l.length := List.length_reverse

/-- The last element with `p`. -/
def lastWhere (l : List α) : Option α := l.reverse.find? p

theorem lastWhere_concat (l : List α) (x : α) :
    lastWhere p (l ++ [x]) = if p x then some x else lastWhere p l := by
  unfold lastWhere
  rw [List.reverse_append, List.reverse_singleton, List.singleton_append, List.find?_cons]
  cases p x <;> rfl

variable (Q : α → Prop)

/-- There is an element with `Q` after the last one with `p`. -/
def OccursSince (l : List α) : Prop := ∃ x ∈ sinceLast p l, Q x

/-- After every element with `p` there is one with `Q`. -/
def FollowedBy (l : List α) : Prop := ∀ l₁ x l₂, l = l₁ ++ x :: l₂ → p x → ∃ y ∈ l₂, Q y

/-- Between any two elements with `p` there is one with `Q`. -/
def Separated (l : List α) : Prop :=
  ∀ l₁ x l₂ x' l₃, l = l₁ ++ x :: (l₂ ++ x' :: l₃) → p x → p x' → ∃ y ∈ l₂, Q y

/-- From every element with `start` on, and before the next with `stop`, at most one has `p`. -/
def OnceWithin (start stop : α → Bool) (l : List α) : Prop :=
  ∀ l₁ x l₂ l₃, l = l₁ ++ x :: (l₂ ++ l₃) → start x → (∀ y ∈ l₂, stop y = false) →
    (x :: l₂).countP p ≤ 1

end Stretch

section Changes

variable {α κ V : Type*} [DecidableEq κ]

/-- What the last changes of the keys were, by what each element changes. -/
def lastChanges (change : α → Option (κ × Option V)) (l : List α) : κ → Option V :=
  l.foldl (fun table x => match change x with
    | none => table
    | some (k, v) => Function.update table k v) fun _ => none

variable {change : α → Option (κ × Option V)} {l : List α} {x : α}

theorem lastChanges_concat_none (h : change x = none) :
    lastChanges change (l ++ [x]) = lastChanges change l := by
  rw [lastChanges, List.foldl_append, List.foldl_cons, h]
  rfl

theorem lastChanges_concat_some {k : κ} {v : Option V} (h : change x = some (k, v)) :
    lastChanges change (l ++ [x]) = Function.update (lastChanges change l) k v := by
  rw [lastChanges, List.foldl_append, List.foldl_cons, h]
  rfl

end Changes

section Split

variable {α : Type*} {p : α → Bool} {Q : α → Prop}

theorem pairwise_append_singleton {R : α → α → Prop} {l : List α} {x : α} :
    (l ++ [x]).Pairwise R ↔ l.Pairwise R ∧ ∀ y ∈ l, R y x := by
  simp [List.pairwise_append]

/-- An element of a list with one more is the new one, or an element of the list. -/
theorem concat_eq_append_cons {l : List α} {y : α} {l₁ : List α} {x : α} {l₂ : List α} :
    l ++ [y] = l₁ ++ x :: l₂ ↔
      (l = l₁ ∧ y = x ∧ l₂ = []) ∨ ∃ l₂', l₂ = l₂' ++ [y] ∧ l = l₁ ++ x :: l₂' := by
  constructor
  · intro h
    rcases List.eq_nil_or_concat l₂ with rfl | ⟨l₂', z, rfl⟩
    · obtain ⟨h₁, h₂⟩ := List.append_inj' h rfl
      exact .inl ⟨h₁, List.singleton_inj.mp h₂, rfl⟩
    · rw [List.concat_eq_append, ← List.cons_append, ← List.append_assoc] at h
      obtain ⟨h₁, h₂⟩ := List.append_inj' h rfl
      rw [List.singleton_inj] at h₂
      exact .inr ⟨l₂', by rw [List.concat_eq_append, h₂], h₁⟩
  · rintro (⟨rfl, rfl, rfl⟩ | ⟨l₂', rfl, rfl⟩)
    · rfl
    · simp

theorem occursSince_concat {l : List α} {y : α} :
    OccursSince p Q (l ++ [y]) ↔ ¬ p y ∧ (Q y ∨ OccursSince p Q l) := by
  unfold OccursSince
  rw [sinceLast_concat]
  split_ifs with h
  · simp [h]
  · simp only [List.mem_append, List.mem_singleton, or_and_right, exists_or, exists_eq_left,
      or_comm, h, Bool.false_eq_true, not_false_eq_true, true_and]

theorem followedBy_concat {l : List α} {y : α} :
    FollowedBy p Q (l ++ [y]) ↔ ¬ p y ∧ (Q y ∨ FollowedBy p Q l) := by
  constructor
  · intro h
    refine ⟨fun hy => ?_, or_iff_not_imp_left.mpr fun hq l₁ x l₂ heq hx => ?_⟩
    · obtain ⟨z, hz, -⟩ := h l y [] rfl hy
      simp at hz
    · obtain ⟨z, hz, hzq⟩ := h l₁ x (l₂ ++ [y]) (by simp [heq]) hx
      rcases List.mem_append.mp hz with hz | hz
      · exact ⟨z, hz, hzq⟩
      · rw [List.mem_singleton.mp hz] at hzq
        exact absurd hzq hq
  · rintro ⟨hy, hq⟩ l₁ x l₂ heq hx
    rcases concat_eq_append_cons.mp heq with ⟨-, rfl, -⟩ | ⟨l₂', rfl, hl⟩
    · exact absurd hx hy
    · rcases hq with hq | hq
      · exact ⟨y, by simp, hq⟩
      · obtain ⟨z, hz, hzq⟩ := hq l₁ x l₂' hl hx
        exact ⟨z, List.mem_append_left _ hz, hzq⟩

theorem separated_nil : Separated p Q [] := by
  intro l₁ x l₂ x' l₃ h
  simp at h

theorem separated_concat {l : List α} {y : α} :
    Separated p Q (l ++ [y]) ↔ Separated p Q l ∧ (p y → FollowedBy p Q l) := by
  constructor
  · intro h
    refine ⟨fun l₁ x l₂ x' l₃ heq => h l₁ x l₂ x' (l₃ ++ [y]) (by simp [heq]), ?_⟩
    intro hy l₁ x l₂ heq hx
    exact h l₁ x l₂ y [] (by simp [heq]) hx hy
  · rintro ⟨h, hlast⟩ l₁ x l₂ x' l₃ heq hx hx'
    rw [← List.cons_append, ← List.append_assoc] at heq
    rcases concat_eq_append_cons.mp heq with ⟨hl, rfl, -⟩ | ⟨l₃', rfl, hl⟩
    · exact hlast hx' l₁ x l₂ hl hx
    · exact h l₁ x l₂ x' l₃' (by simp [hl]) hx hx'

end Split

namespace Trace

variable {σ ι ο : Type*}

/-- One step of a run. -/
structure Event (σ ι ο : Type*) where
  before : σ
  input : ι
  output : ο
  after : σ

variable (step : σ → ι → ο × σ)

/-- The event of one input. -/
def event (s : σ) (i : ι) : Event σ ι ο where
  before := s
  input := i
  output := (step s i).1
  after := (step s i).2

section Projections

variable (s : σ) (i : ι)

@[simp]
theorem event_before : (event step s i).before = s := rfl

@[simp]
theorem event_input : (event step s i).input = i := rfl

@[simp]
theorem event_output : (event step s i).output = (step s i).1 := rfl

@[simp]
theorem event_after : (event step s i).after = (step s i).2 := rfl

end Projections

/-- The events of a run. -/
def events (s : σ) : List ι → List (Event σ ι ο)
  | [] => []
  | i :: is => event step s i :: events (step s i).2 is

/-- The state a run ends in. -/
def final (s : σ) (is : List ι) : σ := is.foldl (fun s i => (step s i).2) s

@[simp]
theorem events_nil (s : σ) : events step s [] = [] := rfl

@[simp]
theorem final_nil (s : σ) : final step s [] = s := rfl

theorem final_cons (s : σ) (i : ι) (is : List ι) :
    final step s (i :: is) = final step (step s i).2 is := rfl

theorem final_append (s : σ) (is js : List ι) :
    final step s (is ++ js) = final step (final step s is) js :=
  List.foldl_append ..

theorem final_concat (s : σ) (is : List ι) (i : ι) :
    final step s (is ++ [i]) = (step (final step s is) i).2 :=
  final_append step s is [i]

theorem events_append : ∀ (is : List ι) (s : σ) (js : List ι),
    events step s (is ++ js) = events step s is ++ events step (final step s is) js
  | [], _, _ => rfl
  | i :: is, s, js => by
    rw [List.cons_append, events, events, events_append is, List.cons_append]
    rfl

theorem events_concat (s : σ) (is : List ι) (i : ι) :
    events step s (is ++ [i]) = events step s is ++ [event step (final step s is) i] :=
  events_append step is s [i]

theorem map_input_events : ∀ (is : List ι) (s : σ), (events step s is).map Event.input = is
  | [], _ => rfl
  | i :: is, s => by rw [events, List.map_cons, map_input_events is, event_input]

variable {step}

/-- What holds at first and is kept by every step holds along a run. -/
theorem final_induct {P : σ → Prop} {s : σ} (h : P s) {is : List ι}
    (hstep : ∀ s, ∀ i ∈ is, P s → P (step s i).2) : P (final step s is) := by
  induction is generalizing s with
  | nil => exact h
  | cons i is ih =>
    exact ih (hstep s i (by simp) h) fun s j hj => hstep s j (List.mem_cons_of_mem i hj)

/-- A relation of the state to all that has happened, kept by every further event. -/
theorem history_induct {R : List (Event σ ι ο) → σ → Prop} {s : σ} (h : R [] s) {is : List ι}
    (hstep : ∀ tr s, ∀ i ∈ is, R tr s → R (tr ++ [event step s i]) (step s i).2) :
    R (events step s is) (final step s is) := by
  induction is using List.reverseRecOn with
  | nil => exact h
  | append_singleton is i ih =>
    rw [events_concat, final_concat]
    refine hstep _ _ i (by simp) (ih fun tr s j hj => ?_)
    exact hstep tr s j (List.mem_append_left _ hj)

/-- Every event of a run is a step from a state that a part of the run leads to. -/
theorem exists_of_mem_events {s : σ} {is : List ι} {e : Event σ ι ο}
    (h : e ∈ events step s is) :
    ∃ is₁ i is₂, is = is₁ ++ i :: is₂ ∧ e = event step (final step s is₁) i := by
  induction is generalizing s with
  | nil => simp at h
  | cons i is ih =>
    rw [events, List.mem_cons] at h
    rcases h with rfl | h
    · exact ⟨[], i, is, rfl, rfl⟩
    · obtain ⟨is₁, j, is₂, rfl, rfl⟩ := ih h
      exact ⟨i :: is₁, j, is₂, rfl, rfl⟩

/-- What holds at first and is kept by every step holds before and after each event of a run. -/
theorem forall_mem_events {P : σ → Prop} {s : σ} (h : P s) {is : List ι}
    (hstep : ∀ s, ∀ i ∈ is, P s → P (step s i).2) :
    ∀ e ∈ events step s is, P e.before ∧ P e.after := by
  intro e he
  obtain ⟨is₁, i, is₂, rfl, rfl⟩ := exists_of_mem_events he
  have hbefore : P (final step s is₁) :=
    final_induct h fun s j hj => hstep s j (List.mem_append_left _ hj)
  exact ⟨hbefore, hstep _ i (by simp) hbefore⟩

/-- A part of the events of a run is the run of a part of its inputs. -/
theorem exists_of_events_eq_append {s : σ} {is : List ι} {tr₁ tr₂ : List (Event σ ι ο)}
    (h : events step s is = tr₁ ++ tr₂) :
    ∃ is₁ is₂, is = is₁ ++ is₂ ∧ tr₁ = events step s is₁
      ∧ tr₂ = events step (final step s is₁) is₂ := by
  induction tr₁ generalizing s is with
  | nil => exact ⟨[], is, rfl, rfl, h.symm⟩
  | cons e tr₁ ih =>
    rcases is with _ | ⟨i, is⟩
    · simp at h
    · rw [events, List.cons_append, List.cons.injEq] at h
      obtain ⟨rfl, htail⟩ := h
      obtain ⟨is₁, is₂, rfl, rfl, rfl⟩ := ih htail
      exact ⟨i :: is₁, is₂, rfl, rfl, rfl⟩

theorem exists_of_events_eq_append_cons {s : σ} {is : List ι} {tr₁ tr₂ : List (Event σ ι ο)}
    {e : Event σ ι ο} (h : events step s is = tr₁ ++ e :: tr₂) :
    ∃ is₁ i is₂, is = is₁ ++ i :: is₂ ∧ tr₁ = events step s is₁
      ∧ e = event step (final step s is₁) i := by
  obtain ⟨is₁, is₂, rfl, rfl, htail⟩ := exists_of_events_eq_append h
  rcases is₂ with _ | ⟨i, is₂⟩
  · simp at htail
  · rw [events, List.cons.injEq] at htail
    exact ⟨is₁, i, is₂, rfl, rfl, htail.1⟩

/-- What holds at first and is kept by every event of a run holds at its end. -/
theorem final_induct_events {P : σ → Prop} {s : σ} (h : P s) {is : List ι}
    (hevents : ∀ e ∈ events step s is, ∀ s i, e = event step s i → P s → P (step s i).2) :
    P (final step s is) := by
  induction is generalizing s with
  | nil => exact h
  | cons i is ih =>
    rw [events, List.forall_mem_cons] at hevents
    exact ih (hevents.1 s i rfl h) hevents.2

theorem events_subset (step : σ → ι → ο × σ) (s : σ) {is js : List ι} (h : is <+: js) :
    events step s is ⊆ events step s js := by
  obtain ⟨ks, rfl⟩ := h
  rw [events_append]
  exact List.subset_append_left ..

/-! ## Runs against a clock -/

section Clock

variable {T : Type*} [LE T] (readings : ι → List T)

/-- The readings of the clock never go back, neither within a step nor from one to the next. -/
def Clocked (is : List ι) : Prop := (is.flatMap readings).Pairwise (· ≤ ·)

variable {readings}

theorem clocked_cons {i : ι} {is : List ι} : Clocked readings (i :: is) ↔
    (readings i).Pairwise (· ≤ ·) ∧ Clocked readings is
      ∧ ∀ x ∈ readings i, ∀ j ∈ is, ∀ y ∈ readings j, x ≤ y := by
  rw [Clocked, List.flatMap_cons, List.pairwise_append, Clocked]
  simp only [List.mem_flatMap, forall_exists_index, and_imp]
  exact Iff.rfl.and (Iff.rfl.and ⟨fun h x hx j hj y hy => h x hx y j hj hy,
    fun h x hx y j hj hy => h x hx j hj y hy⟩)

theorem Clocked.within {is : List ι} (h : Clocked readings is) {i : ι} (hi : i ∈ is) :
    (readings i).Pairwise (· ≤ ·) := by
  obtain ⟨is₁, is₂, rfl⟩ := List.append_of_mem hi
  rw [Clocked, List.flatMap_append, List.pairwise_append] at h
  exact (clocked_cons.mp h.2.1).1

theorem Clocked.le_of_append {is js : List ι} (h : Clocked readings (is ++ js)) {i j : ι}
    (hi : i ∈ is) (hj : j ∈ js) : ∀ x ∈ readings i, ∀ y ∈ readings j, x ≤ y := by
  intro x hx y hy
  rw [Clocked, List.flatMap_append, List.pairwise_append] at h
  exact h.2.2 x (List.mem_flatMap.mpr ⟨i, hi, hx⟩) y (List.mem_flatMap.mpr ⟨j, hj, hy⟩)

/-- A relation of the state to all that has happened, where a further event comes after all
others. -/
theorem clocked_induct {R : List (Event σ ι ο) → σ → Prop} {s : σ} (h : R [] s) {is : List ι}
    (hclock : Clocked readings is)
    (hstep : ∀ tr s, ∀ i ∈ is,
      (∀ e ∈ tr, ∀ x ∈ readings e.input, ∀ y ∈ readings i, x ≤ y) →
      (readings i).Pairwise (· ≤ ·) → R tr s → R (tr ++ [event step s i]) (step s i).2) :
    R (events step s is) (final step s is) := by
  induction is using List.reverseRecOn with
  | nil => exact h
  | append_singleton is i ih =>
    rw [Clocked, List.flatMap_append, List.flatMap_singleton, List.pairwise_append] at hclock
    obtain ⟨hbefore, hwithin, hbetween⟩ := hclock
    rw [events_concat, final_concat]
    refine hstep _ _ i (by simp) (fun e he x hx y hy => ?_) hwithin (ih hbefore ?_)
    · obtain ⟨is₁, j, is₂, rfl, rfl⟩ := exists_of_mem_events he
      exact hbetween x (List.mem_flatMap.mpr ⟨j, by simp, hx⟩) y hy
    · exact fun tr s j hj => hstep tr s j (List.mem_append_left _ hj)

end Clock

/-! ## Inputs that are left out -/

/-- If two states stay alike, for what is still to come, when one of them takes a step without `p`,
and answer alike when both take a step with `p`, then a run that leaves out the steps without `p`
gets the answers of the others. -/
theorem filter_run {R : σ → σ → List ι → Prop} {p : ι → Bool}
    (hskip : ∀ s s' i is, R s s' (i :: is) → p i = false → R (step s i).2 s' is)
    (hkeep : ∀ s s' i is, R s s' (i :: is) → p i = true →
      (step s i).1 = (step s' i).1 ∧ R (step s i).2 (step s' i).2 is)
    (is : List ι) {s s' : σ} (h : R s s' is) :
    ((events step s is).filter fun e => p e.input).map Event.output
      = (events step s' (is.filter p)).map Event.output := by
  induction is generalizing s s' with
  | nil => rfl
  | cons i is ih =>
    rw [events]
    by_cases hi : p i = true
    · obtain ⟨hout, hnext⟩ := hkeep s s' i is h hi
      rw [List.filter_cons_of_pos (by rwa [event_input]), List.filter_cons_of_pos hi, events,
        List.map_cons, List.map_cons, ih hnext, event_output, event_output, hout]
    · have hi' : p i = false := by simpa using hi
      rw [List.filter_cons_of_neg (by rwa [event_input]), List.filter_cons_of_neg hi]
      exact ih (hskip s s' i is h hi')

/-! ## Parts of the state that have nothing to do with each other -/

section Isolated

variable {κ ω : Type*} [DecidableEq κ] {key : ι → κ} {k : κ} (view : σ → ω)

/-- If a step on another key leaves what is seen of the state for `k`, and a step on `k` depends on
that only, then the other steps of a run change nothing for `k`. -/
theorem isolated_run (hother : ∀ s i, key i ≠ k → view (step s i).2 = view s)
    (hself : ∀ s s' i, key i = k → view s = view s' →
      (step s i).1 = (step s' i).1 ∧ view (step s i).2 = view (step s' i).2)
    (is : List ι) {s s' : σ} (h : view s = view s') :
    ((events step s is).filter fun e => key e.input = k).map Event.output
        = (events step s' (is.filter fun i => key i = k)).map Event.output
      ∧ view (final step s is) = view (final step s' (is.filter fun i => key i = k)) := by
  induction is generalizing s s' with
  | nil => exact ⟨rfl, h⟩
  | cons i is ih =>
    rw [events, final_cons]
    by_cases hi : key i = k
    · obtain ⟨hout, hview⟩ := hself s s' i hi h
      obtain ⟨ihout, ihview⟩ := ih hview
      simp only [List.filter_cons, event_input, hi, decide_true, if_true, events, final_cons,
        List.map_cons, event_output, hout, ihout]
      exact ⟨trivial, ihview⟩
    · obtain ⟨ihout, ihview⟩ := ih ((hother s i hi).trans h)
      simp only [List.filter_cons, event_input, hi, decide_false, Bool.false_eq_true, if_false]
      exact ⟨ihout, ihview⟩

end Isolated

end Trace
