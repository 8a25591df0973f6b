import Mathlib.Algebra.BigOperators.Group.List.Basic
import Mathlib.Algebra.Ring.Nat
import Mathlib.Data.Nat.Cast.Basic
import Mathlib.Data.List.Induction
import AgentLearning.Lib.Dict

/-!
# Folding a list by a key

A loop that adds each element of a list to the entry its key has in a dictionary. The entry of a key
is then the fold over the elements with this key, so it does not depend on the others; what is
additive in the entries adds up to the same over the dictionary as over the list; and where the
order of adding does not matter, the order of the list does not.
-/

namespace Dict

section FoldBy

variable {ι κ ν : Type*} [DecidableEq κ] (key : ι → κ) (init : κ → ν) (step : ν → ι → ν)

/-- `d[key] = step(d.get(key, init), i)`. -/
def addBy (d : Dict κ ν) (i : ι) : Dict κ ν :=
  d.set (key i) (step ((d.get? (key i)).getD (init (key i))) i)

/-- What a loop over the list makes of an empty dictionary. -/
def foldBy (l : List ι) : Dict κ ν := l.foldl (addBy key init step) ∅

theorem foldBy_concat (l : List ι) (i : ι) :
    foldBy key init step (l ++ [i]) = addBy key init step (foldBy key init step l) i := by
  rw [foldBy, List.foldl_append]
  rfl

theorem get?_foldBy (l : List ι) (k : κ) : (foldBy key init step l).get? k
    = if k ∈ l.map key then some ((l.filter fun i => key i = k).foldl step (init k))
      else none := by
  induction l using List.reverseRecOn with
  | nil => rfl
  | append_singleton l i ih =>
    rw [foldBy_concat, addBy, get?_set, List.filter_append, List.foldl_append]
    by_cases hk : key i = k
    · subst hk
      have hfilter : (l.filter fun j => key j = key i).foldl step (init (key i))
          = ((foldBy key init step l).get? (key i)).getD (init (key i)) := by
        rw [ih]
        split_ifs with hmem
        · rfl
        · have hnone : (l.filter fun j => key j = key i) = [] := by
            rw [List.filter_eq_nil_iff]
            intro j hj hji
            exact hmem (List.mem_map.mpr ⟨j, hj, by simpa using hji⟩)
          rw [hnone]
          rfl
      simp [hfilter]
    · have hsame : k ∈ (l ++ [i]).map key ↔ k ∈ l.map key := by
        simp [Ne.symm hk]
      rw [if_neg hk, ih, if_congr hsame rfl rfl]
      simp [hk]

theorem mem_keys_foldBy {l : List ι} {k : κ} :
    k ∈ (foldBy key init step l).keys ↔ k ∈ l.map key := by
  rw [mem_keys_iff, get?_foldBy]
  split_ifs with h <;> simp [h]

/-- The order of the list does not matter where that of the elements with one key does not. -/
theorem get?_foldBy_perm (hcomm : ∀ v i j, key i = key j → step (step v i) j = step (step v j) i)
    {l l' : List ι} (h : l.Perm l') (k : κ) :
    (foldBy key init step l).get? k = (foldBy key init step l').get? k := by
  rw [get?_foldBy, get?_foldBy, if_congr (h.map key).mem_iff rfl rfl]
  have hfold : (l.filter fun i => key i = k).foldl step (init k)
      = (l'.filter fun i => key i = k).foldl step (init k) := by
    refine (h.filter _).foldl_eq' (fun i hi j hj v => ?_) _
    have hik : key i = k := by simpa using (List.mem_filter.mp hi).2
    have hjk : key j = k := by simpa using (List.mem_filter.mp hj).2
    exact hcomm v i j (hik.trans hjk.symm)
  rw [hfold]

section Sum

variable {M : Type*} [AddCommMonoid M] (amount : ν → M)

theorem sum_values_set (d : Dict κ ν) (k : κ) (default v : ν) (a : M)
    (hdefault : amount default = 0)
    (hv : amount v = amount ((d.get? k).getD default) + a) :
    ((d.set k v).values.map amount).sum = (d.values.map amount).sum + a := by
  have h : ∀ l : List (κ × ν), amount v = amount ((getEntry k l).getD default) + a →
      ((setEntry k v l).map fun e => amount e.2).sum = (l.map fun e => amount e.2).sum + a := by
    intro l
    induction l with
    | nil =>
      intro hv
      simp [setEntry, hv, getEntry, hdefault]
    | cons e l ih =>
      intro hv
      rw [getEntry] at hv
      rw [setEntry]
      by_cases hk : e.1 = k
      · rw [if_pos hk] at hv
        rw [if_pos hk]
        simp [hv, add_assoc, add_comm]
      · rw [if_neg hk] at hv
        rw [if_neg hk, List.map_cons, List.sum_cons, ih hv, List.map_cons, List.sum_cons, add_assoc]
  have hsum := h d.entries hv
  simpa [values, set, List.map_map, Function.comp_def] using hsum

/-- What each element adds to the entry of its key adds up over the dictionary. -/
theorem sum_values_foldBy (weight : ι → M) (hinit : ∀ k, amount (init k) = 0)
    (hstep : ∀ v i, amount (step v i) = amount v + weight i) (l : List ι) :
    ((foldBy key init step l).values.map amount).sum = (l.map weight).sum := by
  induction l using List.reverseRecOn with
  | nil => rfl
  | append_singleton l i ih =>
    rw [foldBy_concat, addBy, sum_values_set amount _ _ _ _ _ (hinit (key i)) (hstep _ i), ih]
    simp

end Sum

end FoldBy

/-! ## Groups and counts -/

section GroupBy

variable {ι κ : Type*} [DecidableEq κ] (key : ι → κ)

/-- `d.setdefault(key, []).append(i)`. -/
def groupBy : List ι → Dict κ (List ι) := foldBy key (fun _ => []) fun group i => group ++ [i]

/-- `d[key] = d.get(key, 0) + 1`. -/
def countBy : List ι → Dict κ ℕ := foldBy key (fun _ => 0) fun n _ => n + 1

theorem get?_groupBy (l : List ι) (k : κ) : (groupBy key l).get? k
    = if k ∈ l.map key then some (l.filter fun i => key i = k) else none := by
  have happend : ∀ group l : List ι, l.foldl (fun group i => group ++ [i]) group = group ++ l :=
    fun group l => by
      induction l generalizing group with
      | nil => simp
      | cons i l ih => simp [ih]
  rw [groupBy, get?_foldBy, happend, List.nil_append]

theorem get?_countBy (l : List ι) (k : κ) : (countBy key l).get? k
    = if k ∈ l.map key then some (l.countP fun i => key i = k) else none := by
  have hlength : ∀ (n : ℕ) (l : List ι), l.foldl (fun n _ => n + 1) n = n + l.length :=
    fun n l => by
      induction l generalizing n with
      | nil => rfl
      | cons i l ih => rw [List.foldl_cons, ih, List.length_cons, Nat.add_right_comm, Nat.add_assoc]
  rw [countBy, get?_foldBy, hlength, Nat.zero_add, List.countP_eq_length_filter]

theorem mem_entries_groupBy {l group : List ι} {k : κ} :
    (k, group) ∈ (groupBy key l).entries
      ↔ k ∈ l.map key ∧ group = l.filter fun i => key i = k := by
  rw [← get?_eq_some_iff, get?_groupBy]
  split_ifs with h <;> simp [h, eq_comm]

theorem ne_nil_of_mem_values_groupBy {l group : List ι} (h : group ∈ (groupBy key l).values) :
    group ≠ [] := by
  obtain ⟨⟨k, group⟩, hmem, rfl⟩ := List.mem_map.mp h
  obtain ⟨hk, rfl⟩ := (mem_entries_groupBy key).mp hmem
  obtain ⟨i, hi, rfl⟩ := List.mem_map.mp hk
  exact List.ne_nil_of_mem (List.mem_filter.mpr ⟨hi, by simp⟩)

/-- A sum over the groups is the sum over the list. -/
theorem sum_groupBy {M : Type*} [AddCommMonoid M] (weight : ι → M) (l : List ι) :
    ((groupBy key l).values.map fun group => (group.map weight).sum).sum = (l.map weight).sum :=
  sum_values_foldBy key _ _ (fun group : List ι => (group.map weight).sum) weight (fun _ => rfl)
    (fun group i => by simp) l

theorem sum_countBy (l : List ι) : (countBy key l).values.sum = l.length := by
  have h := sum_values_foldBy key (fun _ => 0) (fun n _ => n + 1) id (fun _ => 1) (fun _ => rfl)
    (fun _ _ => rfl) l
  simpa [countBy] using h

end GroupBy

theorem nodup_keys {κ ν : Type*} [DecidableEq κ] (d : Dict κ ν) : d.keys.Nodup := d.nodup

/-- Dictionaries with the same lookups have the same entries. -/
theorem entries_perm {κ ν : Type*} [DecidableEq κ] {d d' : Dict κ ν}
    (h : ∀ k, d.get? k = d'.get? k) : d.entries.Perm d'.entries := by
  refine (List.perm_ext_iff_of_nodup d.nodup.of_map d'.nodup.of_map).mpr ?_
  rintro ⟨k, v⟩
  rw [← get?_eq_some_iff, ← get?_eq_some_iff, h]

end Dict
