import AgentLearning.Lib.Table
import AgentLearning.Value

/-!
# Backends of the shared memory

The interface of `src/persistence/interfaces.py` that keeps the records of the shared memory, with
what its two implementations have in common, and these: `src/persistence/in_memory.py` over a
dictionary, `src/persistence/sqlite_backend.py` over a table. Values are immutable documents, so
nothing is copied, and the text of the `value` column is the document it was made from.
-/

namespace AgentLearning

structure MemoryRecord where
  key : String
  value : Json
  version : ℤ
  writerRole : String
  updatedAt : ℚ
  expiresAt : Option ℚ := none

/-- A backend has at most one record under a key, and lists what it has. `clear` is left out: the
store never calls it. -/
class SharedMemoryBackend (β : Type) where
  get : β → String → Option MemoryRecord
  put : β → MemoryRecord → β
  delete : β → String → Bool × β
  listAll : β → List MemoryRecord
  get_put : ∀ b r k, get (put b r) k = if r.key = k then some r else get b k
  get_delete : ∀ b k k', get (delete b k).2 k' = if k = k' then none else get b k'
  mem_listAll : ∀ b r, r ∈ listAll b ↔ get b r.key = some r
  nodup_listAll : ∀ b, ((listAll b).map MemoryRecord.key).Nodup
  key_of_get : ∀ {b k r}, get b k = some r → r.key = k

/-! ## In memory -/

/-- Every record is under its own key. -/
structure InMemorySharedMemoryBackend where
  store : Dict String MemoryRecord := ∅
  keyed : ∀ k r, store.get? k = some r → r.key = k := by simp

namespace InMemorySharedMemoryBackend

variable (backend : InMemorySharedMemoryBackend)

def get (key : String) : Option MemoryRecord := backend.store.get? key

def put (record : MemoryRecord) : InMemorySharedMemoryBackend where
  store := backend.store.set record.key record
  keyed := Dict.keyed_set backend.keyed record

def delete (key : String) : Bool × InMemorySharedMemoryBackend :=
  ((backend.store.get? key).isSome,
    { store := backend.store.erase key
      keyed := Dict.keyed_erase backend.keyed key })

def listAll : List MemoryRecord := backend.store.values

instance : SharedMemoryBackend InMemorySharedMemoryBackend where
  get := get
  put := put
  delete := delete
  listAll := listAll
  get_put b r k := b.store.get?_set r.key k r
  get_delete b k k' := b.store.get?_erase k k'
  mem_listAll b _ := Dict.mem_values_iff b.keyed
  nodup_listAll b := Dict.nodup_map_values b.keyed
  key_of_get h := InMemorySharedMemoryBackend.keyed _ _ _ h

end InMemorySharedMemoryBackend

/-! ## In SQLite -/

/-- The table `shared_memory`. -/
structure SQLiteSharedMemoryBackend where
  sharedMemory : Table MemoryRecord.key := ∅

namespace SQLiteSharedMemoryBackend

variable (backend : SQLiteSharedMemoryBackend)

def get (key : String) : Option MemoryRecord := backend.sharedMemory.find? key

def put (record : MemoryRecord) : SQLiteSharedMemoryBackend :=
  { sharedMemory := backend.sharedMemory.insertOrReplace record }

def delete (key : String) : Bool × SQLiteSharedMemoryBackend :=
  ((backend.sharedMemory.find? key).isSome, { sharedMemory := backend.sharedMemory.erase key })

def listAll : List MemoryRecord := backend.sharedMemory.rows

instance : SharedMemoryBackend SQLiteSharedMemoryBackend where
  get := get
  put := put
  delete := delete
  listAll := listAll
  get_put b r k := b.sharedMemory.find?_insertOrReplace r k
  get_delete b k k' := b.sharedMemory.find?_erase k k'
  mem_listAll b _ := b.sharedMemory.mem_rows_iff
  nodup_listAll b := b.sharedMemory.nodup
  key_of_get h := Table.key_of_find? _ h

end SQLiteSharedMemoryBackend

end AgentLearning
