import Mathlib.Data.List.Nodup
import Mathlib.Logic.Function.Basic

/-!
# Insertion-ordered dictionaries

A dictionary is the list of its entries in the order their keys were first set, no key twice.
Setting a key that is there keeps its place and changes its value; setting a new key appends it,
also when it was there before and was erased.
The raw functions on entry lists are kept apart, for types that cannot carry the condition.
-/

section Entries

variable {κ ν : Type*} [DecidableEq κ]

/-- The value of the first entry with this key. -/
def getEntry (k : κ) : List (κ × ν) → Option ν
  | [] => none
  | (k', v) :: l => if k' = k then some v else getEntry k l

/-- Replaces the entry of this key in place, or appends it. -/
def setEntry (k : κ) (v : ν) : List (κ × ν) → List (κ × ν)
  | [] => [(k, v)]
  | (k', v') :: l => if k' = k then (k, v) :: l else (k', v') :: setEntry k v l

theorem getEntry_setEntry (k k' : κ) (v : ν) :
    ∀ l : List (κ × ν), getEntry k' (setEntry k v l) = if k = k' then some v else getEntry k' l
  | [] => by simp [setEntry, getEntry]
  | (k₀, v₀) :: l => by
    have ih := getEntry_setEntry k k' v l
    simp only [setEntry]
    split_ifs with h h'
    · subst h; subst h'
      simp [getEntry]
    · subst h
      simp [getEntry, h']
    · simp only [getEntry, ih]
      split_ifs <;> simp_all
    · simp only [getEntry, ih]
      split_ifs <;> rfl

theorem keys_setEntry (k : κ) (v : ν) :
    ∀ l : List (κ × ν), (setEntry k v l).map Prod.fst
      = if k ∈ l.map Prod.fst then l.map Prod.fst else l.map Prod.fst ++ [k]
  | [] => by simp [setEntry]
  | (k', v') :: l => by
    have ih := keys_setEntry k v l
    simp only [setEntry]
    by_cases h : k' = k
    · simp [h]
    · have h' : k ≠ k' := fun e => h e.symm
      simp only [if_neg h, List.map_cons, ih, List.mem_cons, h', false_or]
      split_ifs <;> simp

theorem mem_keys_iff_isSome_getEntry (k : κ) :
    ∀ l : List (κ × ν), k ∈ l.map Prod.fst ↔ (getEntry k l).isSome
  | [] => by simp [getEntry]
  | (k', v) :: l => by
    rw [List.map_cons, List.mem_cons, mem_keys_iff_isSome_getEntry k l, getEntry]
    by_cases hk : k' = k
    · simp [hk]
    · simp [hk, Ne.symm hk]

theorem mem_of_getEntry {k : κ} {v : ν} :
    ∀ {l : List (κ × ν)}, getEntry k l = some v → (k, v) ∈ l
  | [], h => by simp [getEntry] at h
  | (k', v') :: l, h => by
    rw [getEntry] at h
    split_ifs at h with hk
    · cases h
      simp [hk]
    · exact List.mem_cons_of_mem _ (mem_of_getEntry h)

end Entries

/-- Entries in insertion order, no key twice. -/
structure Dict (κ ν : Type*) where
  entries : List (κ × ν)
  nodup : (entries.map Prod.fst).Nodup

namespace Dict

variable {κ ν : Type*}

instance : EmptyCollection (Dict κ ν) := ⟨⟨[], by simp⟩⟩

instance : Inhabited (Dict κ ν) := ⟨∅⟩

@[ext]
theorem ext {d d' : Dict κ ν} (h : d.entries = d'.entries) : d = d' := by
  cases d
  cases d'
  cases h
  rfl

def keys (d : Dict κ ν) : List κ := d.entries.map Prod.fst

def values (d : Dict κ ν) : List ν := d.entries.map Prod.snd

@[simp]
theorem entries_empty : (∅ : Dict κ ν).entries = [] := rfl

variable [DecidableEq κ]

def get? (d : Dict κ ν) (k : κ) : Option ν := getEntry k d.entries

def set (d : Dict κ ν) (k : κ) (v : ν) : Dict κ ν where
  entries := setEntry k v d.entries
  nodup := by
    rw [keys_setEntry]
    split_ifs with h
    · exact d.nodup
    · exact List.nodup_append.mpr ⟨d.nodup, by simp, by
        intro a ha b hb e
        rw [List.mem_singleton] at hb
        exact h (hb ▸ e ▸ ha)⟩

@[simp]
theorem get?_empty (k : κ) : (∅ : Dict κ ν).get? k = none := rfl

theorem get?_set (d : Dict κ ν) (k k' : κ) (v : ν) :
    (d.set k v).get? k' = if k = k' then some v else d.get? k' :=
  getEntry_setEntry k k' v d.entries

@[simp]
theorem get?_set_self (d : Dict κ ν) (k : κ) (v : ν) : (d.set k v).get? k = some v := by
  simp [get?_set]

theorem get?_set_ne (d : Dict κ ν) {k k' : κ} (v : ν) (h : k ≠ k') :
    (d.set k v).get? k' = d.get? k' := by
  simp [get?_set, h]

theorem mem_keys_iff (d : Dict κ ν) (k : κ) : k ∈ d.keys ↔ (d.get? k).isSome :=
  mem_keys_iff_isSome_getEntry k d.entries

theorem get?_eq_some_iff (d : Dict κ ν) {k : κ} {v : ν} :
    d.get? k = some v ↔ (k, v) ∈ d.entries := by
  have h : ∀ l : List (κ × ν), (l.map Prod.fst).Nodup →
      (getEntry k l = some v ↔ (k, v) ∈ l) := by
    intro l
    induction l with
    | nil => simp [getEntry]
    | cons e l ih =>
      obtain ⟨k', v'⟩ := e
      intro hnd
      rw [List.map_cons, List.nodup_cons] at hnd
      rw [getEntry, List.mem_cons, Prod.mk.injEq]
      by_cases hk : k' = k
      · subst hk
        have hnot : (k', v) ∉ l := fun hmem => hnd.1 (List.mem_map.mpr ⟨_, hmem, rfl⟩)
        simp [hnot, eq_comm]
      · simp [hk, Ne.symm hk, ih hnd.2]
  exact h d.entries d.nodup

section Keyed

/-! Dictionaries whose values have their key in them. -/

variable {d : Dict κ ν} {key : ν → κ}

theorem keyed_set (h : ∀ k v, d.get? k = some v → key v = k) (v : ν) (k : κ) (v' : ν)
    (hv' : (d.set (key v) v).get? k = some v') : key v' = k := by
  rw [get?_set] at hv'
  split_ifs at hv' with hk
  · cases hv'
    exact hk
  · exact h k v' hv'

theorem mem_values_iff (h : ∀ k v, d.get? k = some v → key v = k) {v : ν} :
    v ∈ d.values ↔ d.get? (key v) = some v := by
  rw [get?_eq_some_iff, values, List.mem_map]
  constructor
  · rintro ⟨⟨k, v'⟩, hmem, rfl⟩
    obtain rfl := h k v' (d.get?_eq_some_iff.mpr hmem)
    exact hmem
  · exact fun hmem => ⟨_, hmem, rfl⟩

theorem nodup_map_values (h : ∀ k v, d.get? k = some v → key v = k) :
    (d.values.map key).Nodup := by
  have hkeys : d.values.map key = d.keys := by
    rw [values, keys, List.map_map, List.map_congr_left]
    intro e hmem
    exact h e.1 e.2 (d.get?_eq_some_iff.mpr hmem)
  rw [hkeys]
  exact d.nodup

end Keyed

theorem keys_set (d : Dict κ ν) (k : κ) (v : ν) :
    (d.set k v).keys = if k ∈ d.keys then d.keys else d.keys ++ [k] := keys_setEntry k v d.entries

theorem entries_set_of_notMem {d : Dict κ ν} {k : κ} (v : ν) (hk : k ∉ d.keys) :
    (d.set k v).entries = d.entries ++ [(k, v)] := by
  have h : ∀ l : List (κ × ν), k ∉ l.map Prod.fst → setEntry k v l = l ++ [(k, v)] := by
    intro l
    induction l with
    | nil => simp [setEntry]
    | cons e l ih =>
      intro hnot
      rw [List.map_cons, List.mem_cons, not_or] at hnot
      rw [setEntry, if_neg (Ne.symm hnot.1), ih hnot.2, List.cons_append]
  exact h d.entries hk

theorem set_set (d : Dict κ ν) (k : κ) (v v' : ν) : (d.set k v).set k v' = d.set k v' := by
  have h : ∀ l : List (κ × ν), setEntry k v' (setEntry k v l) = setEntry k v' l := by
    intro l
    induction l with
    | nil => simp [setEntry]
    | cons e l ih =>
      rw [setEntry, setEntry]
      by_cases hk : e.1 = k
      · simp [hk, setEntry]
      · simp [hk, setEntry, ih]
  exact Dict.ext (h d.entries)

/-- Setting a key to the value it has changes nothing. -/
theorem set_eq_self {d : Dict κ ν} {k : κ} {v : ν} (h : d.get? k = some v) : d.set k v = d := by
  have key : ∀ l : List (κ × ν), getEntry k l = some v → setEntry k v l = l := by
    intro l
    induction l with
    | nil => simp [getEntry]
    | cons e l ih =>
      obtain ⟨k', v'⟩ := e
      rw [getEntry, setEntry]
      by_cases hk : k' = k
      · simp only [hk, if_true, Option.some.injEq]
        rintro rfl
        rfl
      · simp only [if_neg hk]
        exact fun hl => by rw [ih hl]
  exact Dict.ext (key d.entries h)

/-- Removes the entry of this key, if there is one. -/
def erase (d : Dict κ ν) (k : κ) : Dict κ ν where
  entries := d.entries.filter fun e => e.1 ≠ k
  nodup := d.nodup.sublist (List.filter_sublist.map _)

theorem get?_erase (d : Dict κ ν) (k k' : κ) :
    (d.erase k).get? k' = if k = k' then none else d.get? k' := by
  have h : ∀ l : List (κ × ν), getEntry k' (l.filter fun e => e.1 ≠ k)
      = if k = k' then none else getEntry k' l := by
    intro l
    induction l with
    | nil => simp [getEntry]
    | cons e l ih =>
      rw [List.filter_cons, getEntry]
      by_cases he : e.1 = k
      · simp only [he, ne_eq, not_true_eq_false, decide_false, Bool.false_eq_true, if_false, ih]
        split_ifs <;> rfl
      · simp only [he, ne_eq, not_false_eq_true, decide_true, if_true, getEntry, ih]
        split_ifs <;> simp_all
  exact h d.entries

theorem keyed_erase {d : Dict κ ν} {key : ν → κ} (h : ∀ k v, d.get? k = some v → key v = k)
    (k' k : κ) (v : ν) (hv : (d.erase k').get? k = some v) : key v = k := by
  rw [get?_erase] at hv
  split_ifs at hv
  exact h k v hv

theorem get?_foldl_erase (k : κ) : ∀ (l : List κ) (d : Dict κ ν),
    (l.foldl erase d).get? k = if k ∈ l then none else d.get? k
  | [], d => by simp
  | k' :: l, d => by
    rw [List.foldl_cons, get?_foldl_erase k l, get?_erase]
    by_cases hk : k' = k
    · simp [hk]
    · simp [hk, Ne.symm hk]

theorem keys_erase (d : Dict κ ν) (k : κ) : (d.erase k).keys = d.keys.filter (· ≠ k) := by
  rw [keys, keys, erase, List.filter_map]
  rfl

theorem keys_foldl_erase : ∀ (l : List κ) (d : Dict κ ν),
    (l.foldl erase d).keys = d.keys.filter (· ∉ l)
  | [], d => by simp
  | k :: l, d => by
    rw [List.foldl_cons, keys_foldl_erase l, keys_erase, List.filter_filter]
    refine List.filter_congr fun x _ => ?_
    simp [Bool.and_comm]

/-- Removes the oldest entries. -/
def drop (d : Dict κ ν) (n : ℕ) : Dict κ ν where
  entries := d.entries.drop n
  nodup := d.nodup.sublist ((List.drop_sublist n _).map _)

theorem get?_drop {d : Dict κ ν} {n : ℕ} {k : κ} {v : ν} (h : (d.drop n).get? k = some v) :
    d.get? k = some v := by
  rw [get?_eq_some_iff] at h ⊢
  exact (List.drop_sublist n _).subset h

omit [DecidableEq κ] in
theorem keys_drop (d : Dict κ ν) (n : ℕ) : (d.drop n).keys = d.keys.drop n := by
  rw [keys, keys, drop, List.map_drop]

/-- An entry with this value in the last place. -/
def setLast (d : Dict κ ν) (k : κ) (v : ν) : Dict κ ν := (d.erase k).set k v

theorem get?_setLast (d : Dict κ ν) (k k' : κ) (v : ν) :
    (d.setLast k v).get? k' = if k = k' then some v else d.get? k' := by
  rw [setLast, get?_set, get?_erase]
  split_ifs <;> rfl

theorem keys_setLast (d : Dict κ ν) (k : κ) (v : ν) :
    (d.setLast k v).keys = d.keys.filter (· ≠ k) ++ [k] := by
  rw [setLast, keys_set, keys_erase, if_neg]
  simp

/-! ## Dictionaries as functions -/

section Update

open Function (update)

theorem get?_set_eq (d : Dict κ ν) (k : κ) (v : ν) :
    (d.set k v).get? = update d.get? k (some v) := by
  funext k'
  rw [get?_set, Function.update_apply]
  by_cases h : k = k'
  · simp [h]
  · simp [h, Ne.symm h]

theorem get?_erase_eq (d : Dict κ ν) (k : κ) : (d.erase k).get? = update d.get? k none := by
  funext k'
  rw [get?_erase, Function.update_apply]
  by_cases h : k = k'
  · simp [h]
  · simp [h, Ne.symm h]

/-- With a default for the keys that are not there. -/
theorem getD_get?_set (d : Dict κ ν) (k : κ) (v default : ν) :
    (fun k' => ((d.set k v).get? k').getD default)
      = update (fun k' => (d.get? k').getD default) k v := by
  funext k'
  simp only [get?_set_eq, Function.update_apply]
  split_ifs <;> rfl

end Update

/-- An entry that is changed by `f`, where a missing one counts as `default`. -/
theorem getD_get?_modify (d : Dict κ ν) (k k' : κ) (f : ν → ν) (default : ν) :
    ((d.set k (f ((d.get? k).getD default))).get? k').getD default
      = if k = k' then f ((d.get? k').getD default) else (d.get? k').getD default := by
  rw [get?_set]
  split_ifs with h
  · rw [h, Option.getD_some]
  · rfl

/-! ## Setting the entries of a list -/

section FoldlSet

variable {ι : Type*} (key : ι → κ) (val : ι → ν)

theorem get?_foldl_set_of_notMem {k : κ} :
    ∀ (l : List ι) (d : Dict κ ν), k ∉ l.map key →
      (l.foldl (fun d i => d.set (key i) (val i)) d).get? k = d.get? k
  | [], _, _ => rfl
  | i :: l, d, h => by
    simp only [List.map_cons, List.mem_cons, not_or] at h
    rw [List.foldl_cons, get?_foldl_set_of_notMem l _ h.2, get?_set_ne _ _ (Ne.symm h.1)]

theorem get?_foldl_set_of_mem {i : ι} :
    ∀ (l : List ι) (d : Dict κ ν), (l.map key).Nodup → i ∈ l →
      (l.foldl (fun d i => d.set (key i) (val i)) d).get? (key i) = some (val i)
  | [], _, _, h => by simp at h
  | j :: l, d, hnd, h => by
    simp only [List.map_cons, List.nodup_cons] at hnd
    rw [List.foldl_cons]
    rcases List.mem_cons.mp h with rfl | h
    · rw [get?_foldl_set_of_notMem key val l _ hnd.1, get?_set_self]
    · exact get?_foldl_set_of_mem l _ hnd.2 h

/-- New keys are appended in the order of the list. -/
theorem entries_foldl_set : ∀ (l : List ι) (d : Dict κ ν), (d.keys ++ l.map key).Nodup →
    (l.foldl (fun d i => d.set (key i) (val i)) d).entries
      = d.entries ++ l.map fun i => (key i, val i)
  | [], d, _ => by simp
  | i :: l, d, h => by
    have hnot : key i ∉ d.keys := by
      intro hmem
      rw [List.nodup_append] at h
      exact h.2.2 _ hmem _ (by simp) rfl
    have hkeys : (d.set (key i) (val i)).keys = d.keys ++ [key i] := by
      rw [keys_set, if_neg hnot]
    rw [List.foldl_cons, entries_foldl_set l _ (by simpa [hkeys] using h),
      entries_set_of_notMem _ hnot]
    simp

/-- Where the value depends on the key alone, repeated keys do no harm. -/
theorem get?_foldl_set_fun (g : κ → ν) (k : κ) :
    ∀ (l : List ι) (d : Dict κ ν), (l.foldl (fun d i => d.set (key i) (g (key i))) d).get? k
      = if k ∈ l.map key then some (g k) else d.get? k
  | [], d => by simp
  | i :: l, d => by
    rw [List.foldl_cons, get?_foldl_set_fun g k l, get?_set]
    by_cases hk : key i = k
    · subst hk
      simp
    · simp [hk, Ne.symm hk]

end FoldlSet

/-! ## Mapping the values -/

section MapValues

variable {ν' : Type*} (f : ν → ν')

/-- The same keys with mapped values. -/
def mapValues (d : Dict κ ν) : Dict κ ν' where
  entries := d.entries.map (Prod.map id f)
  nodup := by simpa [Function.comp_def] using d.nodup

theorem get?_mapValues (d : Dict κ ν) (k : κ) : (d.mapValues f).get? k = (d.get? k).map f := by
  have h : ∀ l : List (κ × ν), getEntry k (l.map (Prod.map id f)) = (getEntry k l).map f := by
    intro l
    induction l with
    | nil => rfl
    | cons e l ih =>
      simp only [List.map_cons, getEntry, Prod.map_fst, Prod.map_snd, id_eq, ih]
      split_ifs <;> rfl
  exact h d.entries

theorem mapValues_set (d : Dict κ ν) (k : κ) (v : ν) :
    (d.set k v).mapValues f = (d.mapValues f).set k (f v) := by
  have h : ∀ l : List (κ × ν),
      (setEntry k v l).map (Prod.map id f) = setEntry k (f v) (l.map (Prod.map id f)) := by
    intro l
    induction l with
    | nil => rfl
    | cons e l ih =>
      simp only [setEntry, List.map_cons, Prod.map_fst, id_eq]
      split_ifs
      · rfl
      · exact congrArg (Prod.map id f e :: ·) ih
  exact Dict.ext (h d.entries)

theorem mapValues_erase (d : Dict κ ν) (k : κ) :
    (d.erase k).mapValues f = (d.mapValues f).erase k := by
  refine Dict.ext ?_
  simp only [mapValues, erase, List.filter_map]
  rfl

end MapValues

/-! ## Renaming the keys -/

section MapKeys

variable {κ' : Type*} (f : κ → κ') (hf : Function.Injective f)

omit [DecidableEq κ] in
theorem map_fst_map_fst (l : List (κ × ν)) :
    (l.map (Prod.map f id)).map Prod.fst = (l.map Prod.fst).map f := by
  simp [List.map_map, Function.comp_def]

/-- The same entries under injectively renamed keys. -/
def mapKeys (d : Dict κ ν) : Dict κ' ν where
  entries := d.entries.map (Prod.map f id)
  nodup := by
    rw [map_fst_map_fst]
    exact d.nodup.map hf

omit [DecidableEq κ] in
@[simp]
theorem values_mapKeys (d : Dict κ ν) : (d.mapKeys f hf).values = d.values := by
  simp [mapKeys, values, List.map_map, Function.comp_def]

omit [DecidableEq κ] in
@[simp]
theorem mapKeys_empty : (∅ : Dict κ ν).mapKeys f hf = ∅ := rfl

variable [DecidableEq κ']

theorem get?_mapKeys (d : Dict κ ν) (k : κ) : (d.mapKeys f hf).get? (f k) = d.get? k := by
  have h : ∀ l : List (κ × ν), getEntry (f k) (l.map (Prod.map f id)) = getEntry k l := by
    intro l
    induction l with
    | nil => rfl
    | cons e l ih => simp [getEntry, ih, hf.eq_iff]
  exact h d.entries

theorem mapKeys_set (d : Dict κ ν) (k : κ) (v : ν) :
    (d.set k v).mapKeys f hf = (d.mapKeys f hf).set (f k) v := by
  have h : ∀ l : List (κ × ν),
      (setEntry k v l).map (Prod.map f id) = setEntry (f k) v (l.map (Prod.map f id)) := by
    intro l
    induction l with
    | nil => rfl
    | cons e l ih =>
      simp only [setEntry, List.map_cons, Prod.map_fst, hf.eq_iff]
      split_ifs
      · rfl
      · exact congrArg (Prod.map f id e :: ·) ih
  exact Dict.ext (h d.entries)

end MapKeys

end Dict
