import Mathlib.Data.List.Sort

/-!
# Order statistics

The elements of a list in rising order, by their place from 0. Which value stands in a place is
decided by counting: the value at place `k` is at most `v` exactly if more than `k` elements are.
So it is the same for every order of the list, and the only value of the list that not more than
`k` elements are below and more than `k` elements are up to.
-/

/-- What holds of the smaller element if it holds of the larger one holds of the element at a place
of a sorted list exactly if it holds of more elements than stand before that place. -/
theorem holds_getElem?_iff {α : Type*} [Preorder α] {p : α → Prop} [DecidablePred p]
    (hp : ∀ x y, x ≤ y → p y → p x) {l : List α} (hsorted : l.Pairwise (· ≤ ·)) {k : ℕ} {x : α}
    (h : l[k]? = some x) : p x ↔ k < l.countP p := by
  induction l generalizing k with
  | nil => simp at h
  | cons y l ih =>
    obtain ⟨hfirst, hrest⟩ := List.pairwise_cons.mp hsorted
    have hnone (hy : ¬ p y) : l.countP p = 0 := by
      rw [List.countP_eq_zero]
      intro z hz hpz
      exact hy (hp y z (hfirst z hz) (by simpa using hpz))
    rw [List.countP_cons]
    rcases k with _ | k
    · obtain rfl : y = x := by simpa using h
      by_cases hy : p y
      · simp [hy]
      · simp [hy, hnone hy]
    · rw [List.getElem?_cons_succ] at h
      rw [ih hrest h]
      by_cases hy : p y
      · simp [hy]
      · simp [hy, hnone hy]

section OrderStatistic

variable {α : Type*} [LinearOrder α] {l l' : List α} {k k' : ℕ} {x y : α}

/-- The element at place `k` of the list in rising order. -/
def orderStatistic (l : List α) (k : ℕ) : Option α := (l.insertionSort (· ≤ ·))[k]?

theorem orderStatistic_perm (h : l.Perm l') : orderStatistic l k = orderStatistic l' k := by
  have hsort : l.insertionSort (· ≤ ·) = l'.insertionSort (· ≤ ·) := by
    refine List.Perm.eq_of_pairwise (fun a b _ _ => le_antisymm) (List.pairwise_insertionSort _ l)
      (List.pairwise_insertionSort _ l') ?_
    exact (List.perm_insertionSort _ l).trans (h.trans (List.perm_insertionSort _ l').symm)
  rw [orderStatistic, orderStatistic, hsort]

theorem orderStatistic_isSome : (orderStatistic l k).isSome ↔ k < l.length := by
  simp [orderStatistic]

theorem mem_of_orderStatistic (h : orderStatistic l k = some x) : x ∈ l :=
  (List.mem_insertionSort _).mp (List.mem_of_getElem? h)

theorem orderStatistic_le_iff (h : orderStatistic l k = some x) (v : α) :
    x ≤ v ↔ k < l.countP (· ≤ v) := by
  rw [← (List.perm_insertionSort (· ≤ ·) l).countP_eq]
  exact holds_getElem?_iff (fun _ _ hle hv => hle.trans hv) (List.pairwise_insertionSort _ l) h

theorem orderStatistic_lt_iff (h : orderStatistic l k = some x) (v : α) :
    x < v ↔ k < l.countP (· < v) := by
  rw [← (List.perm_insertionSort (· ≤ ·) l).countP_eq]
  exact holds_getElem?_iff (fun _ _ hle hv => hle.trans_lt hv) (List.pairwise_insertionSort _ l) h

theorem orderStatistic_mono (hk : k ≤ k') (h : orderStatistic l k = some x)
    (h' : orderStatistic l k' = some y) : x ≤ y := by
  rw [orderStatistic_le_iff h]
  exact hk.trans_lt ((orderStatistic_le_iff h' y).mp le_rfl)

/-- The value at a place is told by how many elements are below it and up to it. -/
theorem orderStatistic_eq_some_iff :
    orderStatistic l k = some x ↔ l.countP (· < x) ≤ k ∧ k < l.countP (· ≤ x) := by
  constructor
  · intro h
    exact ⟨not_lt.mp fun hlt => lt_irrefl x ((orderStatistic_lt_iff h x).mpr hlt),
      (orderStatistic_le_iff h x).mp le_rfl⟩
  · rintro ⟨hbelow, hupto⟩
    have hk : k < l.length := hupto.trans_le List.countP_le_length
    obtain ⟨y, hy⟩ := Option.isSome_iff_exists.mp (orderStatistic_isSome.mpr hk)
    have hle : y ≤ x := (orderStatistic_le_iff hy x).mpr hupto
    have hge : ¬ y < x := fun hlt => not_lt.mpr hbelow ((orderStatistic_lt_iff hy x).mp hlt)
    rw [hy, le_antisymm hle (not_lt.mp hge)]

/-- Two places have the same value exactly if some value takes up both. -/
theorem orderStatistic_eq_iff (hk : k ≤ k') (hlength : k' < l.length) :
    orderStatistic l k = orderStatistic l k'
      ↔ ∃ v ∈ l, l.countP (· < v) ≤ k ∧ k' < l.countP (· ≤ v) := by
  constructor
  · intro heq
    obtain ⟨v, hv⟩ := Option.isSome_iff_exists.mp (orderStatistic_isSome.mpr hlength)
    exact ⟨v, mem_of_orderStatistic hv, (orderStatistic_eq_some_iff.mp (heq.trans hv)).1,
      (orderStatistic_eq_some_iff.mp hv).2⟩
  · rintro ⟨v, -, hbelow, hupto⟩
    rw [orderStatistic_eq_some_iff.mpr ⟨hbelow, hk.trans_lt hupto⟩,
      orderStatistic_eq_some_iff.mpr ⟨hbelow.trans hk, hupto⟩]

end OrderStatistic
