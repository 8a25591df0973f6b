import AgentLearning.Lib.Table
import AgentLearning.Value

/-!
# Backends of the configuration

The interface of `src/persistence/interfaces.py` that keeps configuration entries and what they
were before, and its two implementations. `in_memory.py` keeps an entry under one string, made from
its namespace and its key; the table of `sqlite_backend.py` is keyed by the pair.
-/

namespace AgentLearning

structure ConfigRecord where
  ns : String
  key : String
  value : Json
  version : ℤ
  configType : String
  updatedAt : ℚ
  description : String := ""

def ConfigRecord.pair (r : ConfigRecord) : String × String := (r.ns, r.key)

/-- A backend keeps an entry under some key, `keyOf` of its namespace and its key. -/
class ConfigBackend (β : Type) (κ : outParam Type) [DecidableEq κ] where
  empty : β
  get : β → String → String → Option ConfigRecord
  put : β → ConfigRecord → β
  delete : β → String → String → Bool × β
  listByNamespace : β → String → List ConfigRecord
  listAll : β → List ConfigRecord
  getHistory : β → String → String → List ConfigRecord
  clear : β → β
  keyOf : String × String → κ
  get_empty : ∀ ns key, get empty ns key = none
  getHistory_empty : ∀ ns key, getHistory empty ns key = []
  get_put : ∀ b r ns key,
    get (put b r) ns key = if keyOf r.pair = keyOf (ns, key) then some r else get b ns key
  getHistory_put : ∀ b r ns key, getHistory (put b r) ns key
    = if keyOf r.pair = keyOf (ns, key) then getHistory b ns key ++ [r] else getHistory b ns key
  delete_fst : ∀ b ns key, (delete b ns key).1 = (get b ns key).isSome
  get_delete : ∀ b ns key ns' key', get (delete b ns key).2 ns' key'
    = if keyOf (ns, key) = keyOf (ns', key') then none else get b ns' key'
  getHistory_delete : ∀ b ns key ns' key',
    getHistory (delete b ns key).2 ns' key' = getHistory b ns' key'
  mem_listAll : ∀ b r, r ∈ listAll b ↔ get b r.ns r.key = some r
  nodup_listAll : ∀ b, (listAll b).Nodup
  listByNamespace_eq : ∀ b ns, listByNamespace b ns = (listAll b).filter fun r => r.ns = ns
  clear_eq : ∀ b, clear b = empty

/-! ## In memory -/

def InMemoryConfigBackend.compositeKey (ns key : String) : String := ns ++ "::" ++ key

/-- Every record is under the key that is made from its own namespace and key. -/
structure InMemoryConfigBackend where
  store : Dict String ConfigRecord := ∅
  history : Dict String (List ConfigRecord) := ∅
  keyed : ∀ k r, store.get? k = some r → InMemoryConfigBackend.compositeKey r.ns r.key = k := by
    simp

namespace InMemoryConfigBackend

variable (backend : InMemoryConfigBackend)

def get (ns key : String) : Option ConfigRecord := backend.store.get? (compositeKey ns key)

def put (record : ConfigRecord) : InMemoryConfigBackend :=
  let ck := compositeKey record.ns record.key
  { store := backend.store.set ck record
    history := backend.history.set ck ((backend.history.get? ck).getD [] ++ [record])
    keyed := Dict.keyed_set backend.keyed record }

def delete (ns key : String) : Bool × InMemoryConfigBackend :=
  let ck := compositeKey ns key
  ((backend.store.get? ck).isSome,
    { backend with
      store := backend.store.erase ck
      keyed := Dict.keyed_erase backend.keyed ck })

def listByNamespace (ns : String) : List ConfigRecord :=
  backend.store.values.filter fun r => r.ns = ns

def listAll : List ConfigRecord := backend.store.values

def getHistory (ns key : String) : List ConfigRecord :=
  (backend.history.get? (compositeKey ns key)).getD []

def clear (_ : InMemoryConfigBackend) : InMemoryConfigBackend := {}

theorem getHistory_put (record : ConfigRecord) (ns key : String) :
    (backend.put record).getHistory ns key
      = if compositeKey record.ns record.key = compositeKey ns key
        then backend.getHistory ns key ++ [record] else backend.getHistory ns key := by
  rw [getHistory, put, Dict.get?_set]
  by_cases h : compositeKey record.ns record.key = compositeKey ns key
  · rw [if_pos h, if_pos h, h]
    rfl
  · rw [if_neg h, if_neg h]
    rfl

instance : ConfigBackend InMemoryConfigBackend String where
  empty := {}
  get := get
  put := put
  delete := delete
  listByNamespace := listByNamespace
  listAll := listAll
  getHistory := getHistory
  clear := clear
  keyOf p := compositeKey p.1 p.2
  get_empty _ _ := rfl
  getHistory_empty _ _ := rfl
  get_put b r ns key := b.store.get?_set (compositeKey r.ns r.key) (compositeKey ns key) r
  getHistory_put := getHistory_put
  delete_fst _ _ _ := rfl
  get_delete b ns key ns' key' :=
    b.store.get?_erase (compositeKey ns key) (compositeKey ns' key')
  getHistory_delete _ _ _ _ _ := rfl
  mem_listAll b _ := Dict.mem_values_iff b.keyed
  nodup_listAll b := (Dict.nodup_map_values b.keyed).of_map _
  listByNamespace_eq _ _ := rfl
  clear_eq _ := rfl

end InMemoryConfigBackend

/-! ## In SQLite -/

/-- The tables `config_entries` and `config_history`, the second in the order of its ids. -/
structure SQLiteConfigBackend where
  configEntries : Table ConfigRecord.pair := ∅
  configHistory : List ConfigRecord := []

namespace SQLiteConfigBackend

variable (backend : SQLiteConfigBackend)

def get (ns key : String) : Option ConfigRecord := backend.configEntries.find? (ns, key)

def put (record : ConfigRecord) : SQLiteConfigBackend where
  configEntries := backend.configEntries.insertOrReplace record
  configHistory := backend.configHistory ++ [record]

def delete (ns key : String) : Bool × SQLiteConfigBackend :=
  ((backend.configEntries.find? (ns, key)).isSome,
    { backend with configEntries := backend.configEntries.erase (ns, key) })

def listByNamespace (ns : String) : List ConfigRecord :=
  backend.configEntries.rows.filter fun r => r.ns = ns

def listAll : List ConfigRecord := backend.configEntries.rows

def getHistory (ns key : String) : List ConfigRecord :=
  backend.configHistory.filter fun r => r.ns = ns ∧ r.key = key

def clear (_ : SQLiteConfigBackend) : SQLiteConfigBackend := {}

theorem getHistory_put (record : ConfigRecord) (ns key : String) :
    (backend.put record).getHistory ns key
      = if record.pair = (ns, key)
        then backend.getHistory ns key ++ [record] else backend.getHistory ns key := by
  simp only [getHistory, put, List.filter_append, ConfigRecord.pair, Prod.mk.injEq]
  by_cases h : record.ns = ns ∧ record.key = key
  · simp [h]
  · simp [h]

instance : ConfigBackend SQLiteConfigBackend (String × String) where
  empty := {}
  get := get
  put := put
  delete := delete
  listByNamespace := listByNamespace
  listAll := listAll
  getHistory := getHistory
  clear := clear
  keyOf p := p
  get_empty _ _ := rfl
  getHistory_empty _ _ := rfl
  get_put b r ns key := b.configEntries.find?_insertOrReplace r (ns, key)
  getHistory_put := getHistory_put
  delete_fst _ _ _ := rfl
  get_delete b ns key ns' key' := b.configEntries.find?_erase (ns, key) (ns', key')
  getHistory_delete _ _ _ _ _ := rfl
  mem_listAll b _ := b.configEntries.mem_rows_iff
  nodup_listAll b := b.configEntries.nodup_rows
  listByNamespace_eq _ _ := rfl
  clear_eq _ := rfl

end SQLiteConfigBackend

end AgentLearning
