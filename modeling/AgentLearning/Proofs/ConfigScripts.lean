import AgentLearning.ConfigScripts
import AgentLearning.Proofs.ConfigVersions

/-!
# What the configuration scripts leave

Both scripts put entries under distinct pairs, so what one put does (`get_putIn`, `history_putIn`)
is what the run does under that pair (`get_putItems`). An import gives every exported entry the next
version of the center it comes to, and defaults are given only where there is no entry.
-/

namespace AgentLearning

open ConfigCenter

/-- The entry that a put of the item makes. -/
def ConfigItem.entry (item : ConfigItem) (version : ℤ) (now : ℚ) : ConfigEntry where
  ns := item.ns
  key := item.key
  value := item.value
  version := version
  configType := item.configType
  updatedAt := now
  description := item.description

/-- The item that the document of an entry is read as. -/
def ConfigEntry.item (entry : ConfigEntry) : ConfigItem where
  ns := entry.ns
  key := entry.key
  value := entry.value
  configType := entry.configType
  description := entry.description

theorem ofDocument_document (entry : ConfigEntry) :
    ConfigItem.ofDocument entry.document = some entry.item := rfl

section Put

variable (item : ConfigItem) (now : ℚ) (center : SQLiteConfigCenter) (ns key : String)

theorem get_putIn : (item.putIn now center).get ns key
    = if item.pair = (ns, key) then some (item.entry (center.next item.ns item.key) now)
      else center.get ns key := by
  unfold ConfigItem.putIn ConfigCenter.get
  simp only [ConfigCenter.put, ConfigBackend.get_put]
  show Option.map _ (if item.pair = (ns, key) then _ else _) = _
  split_ifs <;> rfl

theorem history_putIn : (item.putIn now center).history ns key
    = center.history ns key
      ++ if item.pair = (ns, key) then [item.entry (center.next item.ns item.key) now]
        else [] := by
  unfold ConfigItem.putIn history
  simp only [ConfigCenter.put, ConfigBackend.getHistory_put]
  show List.map _ (if item.pair = (ns, key) then _ else _) = _
  split_ifs
  · simp only [List.map_append, List.map_cons, List.map_nil]
    rfl
  · simp only [List.append_nil]

theorem next_eq :
    center.next ns key = ((center.get ns key).map ConfigEntry.version).getD 0 + 1 := by
  simp [next, current, ConfigCenter.get, ConfigRecord.toEntry, Function.comp_def]

end Put

/-! ## Import -/

/-- The center after the items were put, numbered from some number on. -/
def putItems (now : ℕ → ℚ) : ℕ → List ConfigItem → SQLiteConfigCenter → SQLiteConfigCenter
  | _, [], center => center
  | n, item :: items, center => putItems now (n + 1) items (item.putIn (now n) center)

theorem importItems_document (now : ℕ → ℚ) : ∀ (entries : List ConfigEntry) (n : ℕ)
    (center : SQLiteConfigCenter), importItems now n (entries.map ConfigEntry.document) center
      = (some (n + entries.length), putItems now n (entries.map ConfigEntry.item) center)
  | [], n, center => rfl
  | entry :: entries, n, center => by
    simp only [List.map_cons, importItems, ofDocument_document]
    rw [importItems_document now entries, putItems, List.length_cons, Nat.add_right_comm]
    rfl

section PutAll

variable (now : ℕ → ℚ) {ns key : String}

/-- Nothing is put under a pair that no item has. -/
theorem putItems_of_notMem : ∀ (items : List ConfigItem) (n : ℕ) (center : SQLiteConfigCenter),
    (ns, key) ∉ items.map ConfigItem.pair →
      (putItems now n items center).get ns key = center.get ns key
        ∧ (putItems now n items center).history ns key = center.history ns key
  | [], _, _, _ => ⟨rfl, rfl⟩
  | item :: items, n, center, h => by
    rw [List.map_cons, List.mem_cons, not_or] at h
    obtain ⟨hget, hhistory⟩ := putItems_of_notMem items (n + 1) (item.putIn (now n) center) h.2
    rw [putItems, hget, hhistory, get_putIn, history_putIn, if_neg (Ne.symm h.1),
      if_neg (Ne.symm h.1), List.append_nil]
    exact ⟨rfl, rfl⟩

/-- What is put under the pair of an item is that item, if the items have distinct pairs. -/
theorem get_putItems : ∀ (items : List ConfigItem) (n : ℕ) (center : SQLiteConfigCenter),
    (items.map ConfigItem.pair).Nodup → ∀ item ∈ items, ∃ i,
      let entry := item.entry (center.next item.ns item.key) (now i)
      (putItems now n items center).get item.ns item.key = some entry
        ∧ (putItems now n items center).history item.ns item.key
          = center.history item.ns item.key ++ [entry]
  | [], _, _, _, _, hmem => by simp at hmem
  | first :: items, n, center, hnodup, item, hmem => by
    rw [List.map_cons, List.nodup_cons] at hnodup
    rcases List.mem_cons.mp hmem with rfl | hmem
    · obtain ⟨hget, hhistory⟩ := putItems_of_notMem now items (n + 1) (item.putIn (now n) center)
        hnodup.1
      refine ⟨n, ?_, ?_⟩
      · rw [putItems, hget, get_putIn]
        exact if_pos rfl
      · rw [putItems, hhistory, history_putIn]
        exact congrArg _ (if_pos rfl)
    · have hpair : first.pair ≠ (item.ns, item.key) := by
        intro heq
        exact hnodup.1 (heq ▸ List.mem_map_of_mem hmem)
      obtain ⟨i, hget, hhistory⟩ := get_putItems items (n + 1) (first.putIn (now n) center)
        hnodup.2 item hmem
      have hnext : (first.putIn (now n) center).next item.ns item.key
          = center.next item.ns item.key := by
        rw [next_eq, next_eq, get_putIn, if_neg hpair]
      refine ⟨i, ?_, ?_⟩
      · rw [putItems, hget, hnext]
      · rw [putItems, hhistory, hnext, history_putIn, if_neg hpair, List.append_nil]

end PutAll

section Listing

variable (center : SQLiteConfigCenter)

theorem mem_listAll_iff {entry : ConfigEntry} :
    entry ∈ center.listAll ↔ center.get entry.ns entry.key = some entry := by
  simp only [listAll, ConfigCenter.get, List.mem_map, Option.map_eq_some_iff]
  constructor
  · rintro ⟨r, hr, rfl⟩
    exact ⟨r, (ConfigBackend.mem_listAll _ r).mp hr, rfl⟩
  · rintro ⟨r, hr, rfl⟩
    exact ⟨r, (ConfigBackend.mem_listAll _ r).mpr hr, rfl⟩

theorem get_pair {ns key : String} {entry : ConfigEntry} (h : center.get ns key = some entry) :
    entry.ns = ns ∧ entry.key = key := by
  obtain ⟨r, hr, rfl⟩ := Option.map_eq_some_iff.mp h
  have hpair : r.pair = (ns, key) := Table.key_of_find? _ hr
  exact Prod.mk.inj hpair

theorem nodup_pairs : ((center.listAll.map ConfigEntry.item).map ConfigItem.pair).Nodup := by
  have hpairs : (center.listAll.map ConfigEntry.item).map ConfigItem.pair
      = center.backend.configEntries.rows.map ConfigRecord.pair := by
    simp only [listAll, List.map_map]
    rfl
  rw [hpairs]
  exact center.backend.configEntries.nodup

end Listing

/-- Importing an export into any center: every exported entry is there as the next version after
what the center had, and appended to its history; everything else is as it was. -/
theorem import_of_export (source target : SQLiteConfigCenter) (now : ℕ → ℚ) :
    let after := (importConfig now (exportConfig source) target).2
    (importConfig now (exportConfig source) target).1 = some source.listAll.length
      ∧ (∀ ns key, source.get ns key = none → after.get ns key = target.get ns key
        ∧ after.history ns key = target.history ns key)
      ∧ ∀ ns key entry, source.get ns key = some entry → ∃ i,
        let copy : ConfigEntry := { entry with
          version := ((target.get ns key).map ConfigEntry.version).getD 0 + 1
          updatedAt := now i }
        after.get ns key = some copy
          ∧ after.history ns key = target.history ns key ++ [copy] := by
  have himport : importConfig now (exportConfig source) target
      = (some source.listAll.length,
        putItems now 0 (source.listAll.map ConfigEntry.item) target) := by
    rw [← Nat.zero_add source.listAll.length]
    exact importItems_document now source.listAll 0 target
  simp only [himport, true_and]
  constructor
  · intro ns key hnone
    refine putItems_of_notMem now _ 0 target fun hmem => ?_
    obtain ⟨item, hitem, hpair⟩ := List.mem_map.mp hmem
    obtain ⟨entry, hentry, rfl⟩ := List.mem_map.mp hitem
    obtain ⟨rfl, rfl⟩ := Prod.mk.inj hpair
    have hget : source.get entry.item.ns entry.item.key = some entry :=
      (mem_listAll_iff source).mp hentry
    rw [hget] at hnone
    cases hnone
  · intro ns key entry hget
    obtain ⟨rfl, rfl⟩ := get_pair source hget
    have hentry := (mem_listAll_iff source).mpr hget
    obtain ⟨i, hafter⟩ := get_putItems now _ 0 target (nodup_pairs source) entry.item
      (List.mem_map_of_mem hentry)
    rw [next_eq] at hafter
    exact ⟨i, hafter⟩

/-! ## Defaults -/

section Init

variable (now : ℕ → ℚ) {ns key : String}

theorem initItems_of_some {entry : ConfigEntry} : ∀ (items : List ConfigItem) (n : ℕ)
    (center : SQLiteConfigCenter), center.get ns key = some entry →
      (initItems now n items center).2.get ns key = some entry
        ∧ (initItems now n items center).2.history ns key = center.history ns key
  | [], _, _, h => ⟨h, rfl⟩
  | item :: items, n, center, h => by
    rw [initItems]
    rcases hitem : center.get item.ns item.key with _ | found
    · have hpair : item.pair ≠ (ns, key) := by
        intro heq
        obtain ⟨rfl, rfl⟩ := Prod.mk.inj heq
        rw [h] at hitem
        cases hitem
      obtain ⟨hget, hhistory⟩ := initItems_of_some items (n + 1) (item.putIn (now n) center)
        (by rw [get_putIn, if_neg hpair, h])
      rw [history_putIn, if_neg hpair, List.append_nil] at hhistory
      exact ⟨hget, hhistory⟩
    · exact initItems_of_some items n center h

theorem initItems_of_notMem : ∀ (items : List ConfigItem) (n : ℕ) (center : SQLiteConfigCenter),
    (ns, key) ∉ items.map ConfigItem.pair →
      (initItems now n items center).2.get ns key = center.get ns key
        ∧ (initItems now n items center).2.history ns key = center.history ns key
  | [], _, _, _ => ⟨rfl, rfl⟩
  | item :: items, n, center, h => by
    rw [List.map_cons, List.mem_cons, not_or] at h
    rw [initItems]
    rcases center.get item.ns item.key with _ | found
    · obtain ⟨hget, hhistory⟩ := initItems_of_notMem items (n + 1) (item.putIn (now n) center) h.2
      rw [get_putIn, if_neg (Ne.symm h.1)] at hget
      rw [history_putIn, if_neg (Ne.symm h.1), List.append_nil] at hhistory
      exact ⟨hget, hhistory⟩
    · exact initItems_of_notMem items n center h.2

/-- An item that is missing is put once, as a first version. -/
theorem initItems_of_none : ∀ (items : List ConfigItem) (n : ℕ) (center : SQLiteConfigCenter),
    ∀ item ∈ items, (items.map ConfigItem.pair).Nodup → center.get item.ns item.key = none →
      ∃ i, (initItems now n items center).2.get item.ns item.key = some (item.entry 1 (now i))
        ∧ (initItems now n items center).2.history item.ns item.key
          = center.history item.ns item.key ++ [item.entry 1 (now i)]
  | [], _, _, _, hmem, _, _ => by simp at hmem
  | first :: items, n, center, item, hmem, hnodup, hnone => by
    rw [List.map_cons, List.nodup_cons] at hnodup
    rcases List.mem_cons.mp hmem with rfl | hmem
    · obtain ⟨hget, hhistory⟩ := initItems_of_notMem now items (n + 1)
        (item.putIn (now n) center) hnodup.1
      have hnext : center.next item.ns item.key = 1 := by
        rw [next_eq, hnone]
        rfl
      rw [initItems, hnone]
      refine ⟨n, ?_, ?_⟩
      · rw [hget, get_putIn, hnext]
        exact if_pos rfl
      · rw [hhistory, history_putIn, hnext]
        exact congrArg _ (if_pos rfl)
    · rw [initItems]
      rcases center.get first.ns first.key with _ | found
      · have hpair : first.pair ≠ (item.ns, item.key) := by
          intro heq
          exact hnodup.1 (heq ▸ List.mem_map_of_mem hmem)
        obtain ⟨i, hget, hhistory⟩ := initItems_of_none items (n + 1)
          (first.putIn (now n) center) item hmem hnodup.2
          (by rw [get_putIn, if_neg hpair, hnone])
        rw [history_putIn, if_neg hpair, List.append_nil] at hhistory
        exact ⟨i, hget, hhistory⟩
      · exact initItems_of_none items n center item hmem hnodup.2 hnone

theorem initItems_count : ∀ (items : List ConfigItem) (n : ℕ) (center : SQLiteConfigCenter),
    (items.map ConfigItem.pair).Nodup → (initItems now n items center).1
      = n + items.countP fun item => (center.get item.ns item.key).isNone
  | [], _, _, _ => rfl
  | item :: items, n, center, hnodup => by
    rw [List.map_cons, List.nodup_cons] at hnodup
    rw [initItems, List.countP_cons]
    rcases hitem : center.get item.ns item.key with _ | found
    · have hrest : (items.countP fun item' =>
            ((item.putIn (now n) center).get item'.ns item'.key).isNone)
          = items.countP fun item' => (center.get item'.ns item'.key).isNone := by
        refine List.countP_congr fun item' hitem' => ?_
        have hpair : item.pair ≠ (item'.ns, item'.key) := by
          intro heq
          exact hnodup.1 (heq ▸ List.mem_map_of_mem hitem')
        rw [get_putIn, if_neg hpair]
      simp only [initItems_count items (n + 1) _ hnodup.2, hrest, Option.isNone_none, if_true]
      omega
    · simp only [initItems_count items n center hnodup.2, Option.isNone_some, Bool.false_eq_true,
        if_false, Nat.add_zero]

theorem initItems_eq_self : ∀ (items : List ConfigItem) (n : ℕ) (center : SQLiteConfigCenter),
    (∀ item ∈ items, (center.get item.ns item.key).isSome) →
      initItems now n items center = (n, center)
  | [], _, _, _ => rfl
  | item :: items, n, center, h => by
    obtain ⟨found, hfound⟩ := Option.isSome_iff_exists.mp (h item (by simp))
    rw [initItems, hfound]
    exact initItems_eq_self items n center fun item' hitem' => h item' (by simp [hitem'])

end Init

theorem nodup_defaultConfigs : (defaultConfigs.map ConfigItem.pair).Nodup := by decide

/-- The defaults on any center: what there is stays, a missing default is put once as a first
version, the script counts what it put, and running it again changes nothing. -/
theorem init_fills_missing (now now' : ℕ → ℚ) (center : SQLiteConfigCenter) :
    let after := (initDefaultConfig now center).2
    (∀ ns key, ((center.get ns key).isSome ∨ (ns, key) ∉ defaultConfigs.map ConfigItem.pair) →
        after.get ns key = center.get ns key ∧ after.history ns key = center.history ns key)
      ∧ (∀ item ∈ defaultConfigs, center.get item.ns item.key = none →
        ∃ i, after.get item.ns item.key = some (item.entry 1 (now i))
          ∧ after.history item.ns item.key
            = center.history item.ns item.key ++ [item.entry 1 (now i)])
      ∧ (initDefaultConfig now center).1
        = defaultConfigs.countP (fun item => (center.get item.ns item.key).isNone)
      ∧ initDefaultConfig now' after = (0, after) := by
  intro after
  have hnodup := nodup_defaultConfigs
  have hmissing : ∀ item ∈ defaultConfigs, center.get item.ns item.key = none →
      ∃ i, after.get item.ns item.key = some (item.entry 1 (now i))
        ∧ after.history item.ns item.key
          = center.history item.ns item.key ++ [item.entry 1 (now i)] :=
    fun item hitem => initItems_of_none now defaultConfigs 0 center item hitem hnodup
  have hkept (ns key : String) (h : (center.get ns key).isSome
      ∨ (ns, key) ∉ defaultConfigs.map ConfigItem.pair) :
      after.get ns key = center.get ns key ∧ after.history ns key = center.history ns key := by
    rcases h with hsome | hnot
    · obtain ⟨entry, hentry⟩ := Option.isSome_iff_exists.mp hsome
      rw [hentry]
      exact initItems_of_some now defaultConfigs 0 center hentry
    · exact initItems_of_notMem now defaultConfigs 0 center hnot
  refine ⟨hkept, hmissing, ?_, initItems_eq_self now' defaultConfigs 0 after fun item hitem => ?_⟩
  · rw [← Nat.zero_add (defaultConfigs.countP _)]
    exact initItems_count now defaultConfigs 0 center hnodup
  · rcases hget : center.get item.ns item.key with _ | entry
    · obtain ⟨i, hafter, -⟩ := hmissing item hitem hget
      rw [hafter]
      rfl
    · rw [(hkept item.ns item.key (.inl (by rw [hget]; rfl))).1, hget]
      rfl

end AgentLearning
