import Mathlib.Data.List.FinRange
import Mathlib.Data.List.Pairwise
import Mathlib.Data.List.Sort
import AgentLearning.Lib.Ranking

/-!
# Sorting by comparisons that may fail

A comparison sort is, for each length, a program that asks for comparisons of two places and then
gives the order of the places. If the comparisons may raise, the sort raises where one that it asks
for does. Which ones it asks for is its own affair; but elements that two orders, both in agreement
with all comparisons that do not raise, put the other way round cannot be sorted without one that
raises.
-/

/-- A program that asks whether one element is less than another, and then returns. -/
inductive CompareProg (α β : Type*)
  | ret (b : β)
  | ask (x y : α) (next : Bool → CompareProg α β)

namespace CompareProg

variable {α β γ ε : Type*}

def bind (f : β → CompareProg α γ) : CompareProg α β → CompareProg α γ
  | .ret b => f b
  | .ask x y next => .ask x y fun less => (next less).bind f

/-- The result where each comparison has an answer. -/
def eval (lt : α → α → Bool) : CompareProg α β → β
  | .ret b => b
  | .ask x y next => (next (lt x y)).eval lt

/-- The result where comparisons may raise. -/
def run (lt : α → α → Except ε Bool) : CompareProg α β → Except ε β
  | .ret b => .ok b
  | .ask x y next =>
    match lt x y with
    | .ok less => (next less).run lt
    | .error e => .error e

theorem eval_bind (lt : α → α → Bool) (f : β → CompareProg α γ) (p : CompareProg α β) :
    (p.bind f).eval lt = (f (p.eval lt)).eval lt := by
  induction p with
  | ret b => rfl
  | ask x y next ih => exact ih (lt x y)

theorem run_eq_ok {lt : α → α → Except ε Bool} {lt' : α → α → Bool}
    (h : ∀ x y, lt x y = .ok (lt' x y)) (p : CompareProg α β) : p.run lt = .ok (p.eval lt') := by
  induction p with
  | ret b => rfl
  | ask x y next ih =>
    rw [run, h]
    exact ih (lt' x y)

/-- What a run returns, any answers return that agree with the comparisons that do not raise. -/
theorem eval_eq_of_run {lt : α → α → Except ε Bool} {lt' : α → α → Bool}
    (h : ∀ x y less, lt x y = .ok less → lt' x y = less) {p : CompareProg α β} {b : β}
    (hrun : p.run lt = .ok b) : p.eval lt' = b := by
  induction p with
  | ret b' =>
    cases hrun
    rfl
  | ask x y next ih =>
    rw [run] at hrun
    rcases hlt : lt x y with e | less
    · rw [hlt] at hrun
      cases hrun
    · rw [hlt] at hrun
      rw [eval, h x y less hlt]
      exact ih less hrun

end CompareProg

/-- A stable sort by comparisons: for each length, a program that gives the order of the places. -/
structure ComparisonSort where
  program (n : ℕ) : CompareProg (Fin n) (List (Fin n))
  eval_program : ∀ {n : ℕ} {κ : Type} [LinearOrder κ] (key : Fin n → κ),
    (program n).eval (fun i j => key i < key j)
      = (List.finRange n).insertionSort fun i j => key i ≤ key j

namespace ComparisonSort

/-! ## An instance -/

section Insertion

variable {α κ : Type*} [LinearOrder κ] (key : α → κ)

def insert (x : α) : List α → CompareProg α (List α)
  | [] => .ret [x]
  | y :: l => .ask y x fun less =>
    if less then (insert x l).bind fun l' => .ret (y :: l') else .ret (x :: y :: l)

def insertAll : List α → CompareProg α (List α)
  | [] => .ret []
  | x :: l => (insertAll l).bind (insert x)

theorem eval_insert (x : α) (l : List α) :
    (insert x l).eval (fun y z => key y < key z)
      = l.orderedInsert (fun y z => key y ≤ key z) x := by
  induction l with
  | nil => rfl
  | cons y l ih =>
    rw [insert, CompareProg.eval, List.orderedInsert_cons]
    by_cases h : key y < key x
    · rw [if_pos (by simpa using h), if_neg (not_le.mpr h), CompareProg.eval_bind, ih]
      rfl
    · rw [if_neg (by simpa using h), if_pos (not_lt.mp h)]
      rfl

theorem eval_insertAll (l : List α) :
    (insertAll l).eval (fun y z => key y < key z) = l.insertionSort fun y z => key y ≤ key z := by
  induction l with
  | nil => rfl
  | cons x l ih => rw [insertAll, CompareProg.eval_bind, ih, eval_insert, List.insertionSort_cons]

end Insertion

/-- Insertion sort. -/
def insertion : ComparisonSort where
  program n := insertAll (List.finRange n)
  eval_program key := eval_insertAll key _

/-! ## Lists -/

variable {α ε : Type*} (S : ComparisonSort) {l : List α} {lt : α → α → Except ε Bool}

/-- The list in the order that the sort finds with these comparisons of its elements. -/
def sortBy (lt : α → α → Except ε Bool) (l : List α) : Except ε (List α) :=
  ((S.program l.length).run fun i j => lt (l.get i) (l.get j)).map fun order => order.map l.get

/-- Without a comparison that raises, the list is sorted by the key, and stably. -/
theorem sortBy_eq_ok {κ : Type} [LinearOrder κ] {key : α → κ}
    (h : ∀ x ∈ l, ∀ y ∈ l, lt x y = .ok (decide (key x < key y))) :
    S.sortBy lt l = .ok (l.insertionSort fun x y => key x ≤ key y) := by
  have hrun : (S.program l.length).run (fun i j => lt (l.get i) (l.get j))
      = .ok ((S.program l.length).eval fun i j => key (l.get i) < key (l.get j)) :=
    CompareProg.run_eq_ok (fun i j => h _ (l.get_mem i) _ (l.get_mem j)) _
  rw [S.eval_program fun i => key (l.get i)] at hrun
  have hmap := List.map_insertionSort (fun i j => key (l.get i) ≤ key (l.get j))
    (fun x y => key x ≤ key y) l.get (List.finRange l.length) fun _ _ _ _ => Iff.rfl
  unfold sortBy
  rw [hrun, Except.map, hmap, ← List.ofFn_eq_map, List.ofFn_get]

/-- The keys order the list in agreement with the comparisons that do not raise. -/
def Extends {κ : Type} [LinearOrder κ] (key : α → κ) (lt : α → α → Except ε Bool) : Prop :=
  ∀ x y less, lt x y = .ok less → decide (key x < key y) = less

/-- What the sort returns is in the order of any such key, and has all places. -/
theorem pairwise_of_run {κ : Type} [LinearOrder κ] {key : α → κ} (hkey : Extends key lt)
    {order : List (Fin l.length)}
    (hrun : (S.program l.length).run (fun i j => lt (l.get i) (l.get j)) = .ok order) :
    (order.Pairwise fun i j => key (l.get i) ≤ key (l.get j)) ∧ ∀ i, i ∈ order := by
  have heval : (S.program l.length).eval (fun i j => key (l.get i) < key (l.get j)) = order :=
    CompareProg.eval_eq_of_run (fun i j => hkey _ _) hrun
  rw [S.eval_program fun i => key (l.get i)] at heval
  subst heval
  refine ⟨List.pairwise_insertionSort _ _, fun i => ?_⟩
  rw [List.mem_insertionSort]
  exact List.mem_finRange i

/-- Elements that two such orders put the other way round make every sort raise. -/
theorem sortBy_eq_error {κ κ' : Type} [LinearOrder κ] [LinearOrder κ'] {key : α → κ}
    {key' : α → κ'} (hkey : Extends key lt) (hkey' : Extends key' lt) {x y : α} (hx : x ∈ l)
    (hy : y ∈ l) (hlt : key x < key y) (hlt' : key' y < key' x) :
    ∃ e, S.sortBy lt l = .error e := by
  rcases hrun : (S.program l.length).run fun i j => lt (l.get i) (l.get j) with e | order
  · refine ⟨e, ?_⟩
    unfold sortBy
    rw [hrun]
    rfl
  exfalso
  obtain ⟨hsorted, hmem⟩ := S.pairwise_of_run hkey hrun
  obtain ⟨hsorted', -⟩ := S.pairwise_of_run hkey' hrun
  obtain ⟨i, rfl⟩ := List.get_of_mem hx
  obtain ⟨j, rfl⟩ := List.get_of_mem hy
  -- one of the places comes first, and both keys follow the places
  let Follow (i j : Fin l.length) : Prop :=
    (key (l.get i) ≤ key (l.get j) ∧ key' (l.get i) ≤ key' (l.get j))
      ∨ (key (l.get j) ≤ key (l.get i) ∧ key' (l.get j) ≤ key' (l.get i))
  have hsymm : Std.Symm Follow := ⟨fun _ _ h => h.symm⟩
  have hplaces : order.Pairwise Follow := (hsorted.and hsorted').imp fun h => .inl h
  have hne : i ≠ j := by
    rintro rfl
    exact lt_irrefl _ hlt
  rcases hplaces.forall (hmem i) (hmem j) hne with ⟨-, h⟩ | ⟨h, -⟩
  · exact absurd hlt' (not_lt.mpr h)
  · exact absurd hlt (not_lt.mpr h)

end ComparisonSort
