import Mathlib.Data.List.Nodup
import Mathlib.Data.List.Perm.Basic

/-!
# Tables with a primary key

A table is a list of rows with distinct keys, in the order they were inserted; a row that replaces
one with its key goes to the end. `find?` looks a row up by its key, and says of every statement
what it does.
-/

structure Table {ρ κ : Type*} (key : ρ → κ) where
  rows : List ρ := []
  nodup : (rows.map key).Nodup := by simp

namespace Table

variable {ρ κ : Type*} {key : ρ → κ}

instance : EmptyCollection (Table key) := ⟨{}⟩

instance : Inhabited (Table key) := ⟨∅⟩

@[simp]
theorem rows_empty : (∅ : Table key).rows = [] := rfl

theorem nodup_rows (t : Table key) : t.rows.Nodup := t.nodup.of_map key

/-- `DELETE FROM … WHERE p`. -/
def deleteWhere (t : Table key) (p : ρ → Bool) : Table key where
  rows := t.rows.filter fun r => !p r
  nodup := t.nodup.sublist (List.filter_sublist.map key)

/-- `UPDATE … SET f WHERE p`, on columns that are not in the key. -/
def updateWhere (t : Table key) (p : ρ → Bool) (f : ρ → ρ) (hf : ∀ r, key (f r) = key r) :
    Table key where
  rows := t.rows.map fun r => if p r then f r else r
  nodup := by
    have hkey : (key ∘ fun r => if p r then f r else r) = key := by
      funext r
      simp only [Function.comp_apply]
      split_ifs
      · exact hf r
      · rfl
    rw [List.map_map, hkey]
    exact t.nodup

variable [DecidableEq κ]

/-- `SELECT … WHERE key = k`. -/
def find? (t : Table key) (k : κ) : Option ρ := t.rows.find? fun r => key r = k

/-- `INSERT OR REPLACE`. -/
def insertOrReplace (t : Table key) (r : ρ) : Table key where
  rows := (t.rows.filter fun r' => key r' ≠ key r) ++ [r]
  nodup := by
    rw [List.map_append, List.map_singleton, List.nodup_append]
    refine ⟨t.nodup.sublist (List.filter_sublist.map key), by simp, ?_⟩
    rintro k hk _ hr rfl
    rw [List.mem_singleton] at hr
    obtain ⟨r', hr', hk⟩ := List.mem_map.mp hk
    simpa [hk, hr] using (List.mem_filter.mp hr').2

variable (t : Table key)

theorem find?_eq_some_iff {k : κ} {r : ρ} : t.find? k = some r ↔ r ∈ t.rows ∧ key r = k := by
  constructor
  · intro h
    exact ⟨List.mem_of_find?_eq_some h, by simpa using List.find?_some h⟩
  · rintro ⟨hr, rfl⟩
    rcases h : t.find? (key r) with _ | r'
    · have := List.find?_eq_none.mp h r hr
      simp at this
    · have hr' := List.mem_of_find?_eq_some h
      have hk : key r' = key r := by simpa using List.find?_some h
      exact congrArg some (List.inj_on_of_nodup_map t.nodup hr' hr hk)

theorem mem_rows_iff {r : ρ} : r ∈ t.rows ↔ t.find? (key r) = some r := by
  simp [find?_eq_some_iff]

theorem key_of_find? {k : κ} {r : ρ} (h : t.find? k = some r) : key r = k :=
  (t.find?_eq_some_iff.mp h).2

@[simp]
theorem find?_empty (k : κ) : (∅ : Table key).find? k = none := rfl

theorem find?_insertOrReplace (r : ρ) (k : κ) :
    (t.insertOrReplace r).find? k = if key r = k then some r else t.find? k := by
  refine Option.ext fun r' => ?_
  rw [find?_eq_some_iff]
  simp only [insertOrReplace, List.mem_append, List.mem_filter, List.mem_singleton,
    decide_eq_true_eq]
  split_ifs with h
  · constructor
    · rintro ⟨⟨-, hne⟩ | rfl, hk⟩
      · exact absurd (hk.trans h.symm) hne
      · rfl
    · rintro ⟨rfl⟩
      exact ⟨.inr rfl, h⟩
  · rw [find?_eq_some_iff]
    constructor
    · rintro ⟨⟨hr', -⟩ | rfl, hk⟩
      · exact ⟨hr', hk⟩
      · exact absurd hk h
    · rintro ⟨hr', rfl⟩
      exact ⟨.inl ⟨hr', Ne.symm h⟩, rfl⟩

theorem find?_deleteWhere (p : ρ → Bool) (k : κ) :
    (t.deleteWhere p).find? k = (t.find? k).filter fun r => !p r := by
  refine Option.ext fun r => ?_
  rw [find?_eq_some_iff, Option.filter_eq_some_iff, find?_eq_some_iff]
  simp only [deleteWhere, List.mem_filter]
  tauto

theorem find?_updateWhere (p : ρ → Bool) (f : ρ → ρ) (hf : ∀ r, key (f r) = key r) (k : κ) :
    (t.updateWhere p f hf).find? k = (t.find? k).map fun r => if p r then f r else r := by
  refine Option.ext fun r => ?_
  rw [find?_eq_some_iff, Option.map_eq_some_iff]
  simp only [updateWhere, List.mem_map, find?_eq_some_iff]
  constructor
  · rintro ⟨⟨r', hr', rfl⟩, rfl⟩
    refine ⟨r', ⟨hr', ?_⟩, rfl⟩
    split_ifs
    · exact (hf r').symm
    · rfl
  · rintro ⟨r', ⟨hr', rfl⟩, rfl⟩
    refine ⟨⟨r', hr', rfl⟩, ?_⟩
    split_ifs
    · exact hf r'
    · rfl

/-- `DELETE FROM … WHERE key = k`. -/
def erase (k : κ) : Table key := t.deleteWhere fun r => key r = k

theorem find?_erase (k k' : κ) : (t.erase k).find? k' = if k = k' then none else t.find? k' := by
  rw [erase, find?_deleteWhere]
  rcases h : t.find? k' with _ | r
  · simp
  · rw [Option.filter_some, t.key_of_find? h]
    by_cases hk : k = k'
    · simp [hk]
    · simp [hk, Ne.symm hk]

end Table
