import Mathlib.Algebra.BigOperators.Group.Finset.Basic
import Mathlib.Data.List.Perm.Subperm
import AgentLearning.Lib.FoldBy

/-!
# Overwriting by a key

A loop that overwrites the entry of a key leaves, for each key, what the last element with it gives.
Another order of the list may leave another element, and nothing restricts which: any choice of an
element for each key is what some order leaves.
-/

namespace Dict

section Overwrite

variable {ι κ ν : Type*} [DecidableEq κ] (key : ι → κ)

/-- The last element with the key. -/
def lastBy (l : List ι) (k : κ) : Option ι := (l.filter fun i => key i = k).getLast?

theorem lastBy_append (l l' : List ι) (k : κ) :
    lastBy key (l ++ l') k = (lastBy key l' k).or (lastBy key l k) := by
  unfold lastBy
  rw [List.filter_append, List.getLast?_append]

theorem lastBy_eq_none {l : List ι} {k : κ} (hk : k ∉ l.map key) : lastBy key l k = none := by
  unfold lastBy
  rw [List.getLast?_eq_none_iff, List.filter_eq_nil_iff]
  intro i hi hkey
  exact hk (List.mem_map.mpr ⟨i, hi, by simpa using hkey⟩)

theorem exists_lastBy {l : List ι} {k : κ} (hk : k ∈ l.map key) :
    ∃ i ∈ l, key i = k ∧ lastBy key l k = some i := by
  obtain ⟨j, hj, rfl⟩ := List.mem_map.mp hk
  have hne : (l.filter fun i => key i = key j) ≠ [] :=
    List.ne_nil_of_mem (List.mem_filter.mpr ⟨hj, by simp⟩)
  obtain ⟨hmem, hkey⟩ := List.mem_filter.mp (List.getLast_mem hne)
  exact ⟨_, hmem, by simpa using hkey, List.getLast?_eq_some_getLast hne⟩

/-- What `d[key] = f(i)`, for each element of a list, makes of an empty dictionary. -/
def overwriteBy (f : ι → ν) (l : List ι) : Dict κ ν := l.foldl (fun d i => d.set (key i) (f i)) ∅

theorem get?_overwriteBy (f : ι → ν) (l : List ι) (k : κ) :
    (overwriteBy key f l).get? k = (lastBy key l k).map f := by
  induction l using List.reverseRecOn with
  | nil => rfl
  | append_singleton l i ih =>
    have hconcat : overwriteBy key f (l ++ [i]) = (overwriteBy key f l).set (key i) (f i) := by
      unfold overwriteBy
      rw [List.foldl_append]
      rfl
    rw [hconcat, get?_set, lastBy_append, ih]
    by_cases hk : key i = k <;> simp [hk, lastBy]

theorem mem_keys_overwriteBy {f : ι → ν} {l : List ι} {k : κ} :
    k ∈ (overwriteBy key f l).keys ↔ k ∈ l.map key := by
  rw [mem_keys_iff, get?_overwriteBy]
  constructor
  · intro h
    by_contra hk
    rw [lastBy_eq_none key hk] at h
    cases h
  · intro hk
    obtain ⟨i, -, -, hlast⟩ := exists_lastBy key hk
    rw [hlast]
    rfl

/-- For any choice of an element for each key there is an order of the list in which these are the
last. -/
theorem exists_perm_lastBy {l : List ι} (c : κ → ι)
    (hc : ∀ k ∈ l.map key, c k ∈ l ∧ key (c k) = k) :
    ∃ l', l.Perm l' ∧ ∀ k ∈ l.map key, lastBy key l' k = some (c k) := by
  set ks := (l.map key).dedup with hks
  have hmem (k) : k ∈ ks ↔ k ∈ l.map key := List.mem_dedup
  have hnodup : (ks.map c).Nodup := by
    refine (List.nodup_dedup _).map_on fun k hk k' hk' h => ?_
    rw [← (hc k ((hmem k).mp hk)).2, h, (hc k' ((hmem k').mp hk')).2]
  have hsubset : ks.map c ⊆ l := by
    intro i hi
    obtain ⟨k, hk, rfl⟩ := List.mem_map.mp hi
    exact (hc k ((hmem k).mp hk)).1
  -- the chosen elements come last
  obtain ⟨chosen, hchosen, hsub⟩ := List.subperm_of_subset hnodup hsubset
  obtain ⟨rest, hrest⟩ := hsub.exists_perm_append
  refine ⟨rest ++ ks.map c, (hrest.trans (hchosen.append_right _)).trans List.perm_append_comm,
    fun k hk => ?_⟩
  obtain ⟨i, hi, hkey, hlast⟩ := exists_lastBy key (l := ks.map c) (k := k)
    (List.mem_map.mpr ⟨c k, List.mem_map.mpr ⟨k, (hmem k).mpr hk, rfl⟩, (hc k hk).2⟩)
  obtain ⟨k', hk', rfl⟩ := List.mem_map.mp hi
  rw [(hc k' ((hmem k').mp hk')).2] at hkey
  rw [lastBy_append, hlast, hkey]
  rfl

end Overwrite

/-! ## Sums over the entries -/

section Sum

variable {κ M : Type*} [DecidableEq κ] [AddCommMonoid M] (d : Dict κ M)

theorem card_keys {ν : Type*} (d : Dict κ ν) : d.keys.toFinset.card = d.entries.length := by
  rw [List.toFinset_card_of_nodup d.nodup_keys, keys, List.length_map]

theorem sum_values : d.values.sum = ∑ k ∈ d.keys.toFinset, (d.get? k).getD 0 := by
  rw [List.sum_toFinset _ d.nodup_keys]
  unfold values keys
  rw [List.map_map]
  refine congrArg List.sum (List.map_congr_left fun e he => ?_)
  rw [Function.comp_apply, (get?_eq_some_iff d).mpr he]
  rfl

end Sum

end Dict
