import Mathlib.Algebra.Order.Ring.Rat
import AgentLearning.Lib.Trace
import AgentLearning.RagCache

/-!
# What a call to a cache can do

Each call has a few effects, and an entry that is there after a call was there before or is the one
that the call has put.
-/

namespace AgentLearning.LRUCache

open Trace

variable {α : Type}

inductive Call (α : Type)
  | get (key : String) (now : ℚ)
  | put (key : String) (value : α) (ttl : Option ℚ) (now : ℚ)
  | invalidate (key : String)
  | invalidateByPrefix (start : String)
  | clear

inductive Reply (α : Type)
  | found (result : Option α × CacheStatus)
  | written (result : Except PyError Unit)
  | invalidated (found : Bool)
  | removed (count : ℕ)
  | cleared

def step (cache : LRUCache α) : Call α → Reply α × LRUCache α
  | .get key now => (.found (cache.get key now).1, (cache.get key now).2)
  | .put key value ttl now => (.written (cache.put key value ttl now).1,
      (cache.put key value ttl now).2)
  | .invalidate key => (.invalidated (cache.invalidate key).1, (cache.invalidate key).2)
  | .invalidateByPrefix start =>
    (.removed (cache.invalidateByPrefix start).1, (cache.invalidateByPrefix start).2)
  | .clear => (.cleared, cache.clear)

/-- The cache after a request of which the answer is counted. -/
def counted (cache : LRUCache α) (store : Dict String (CacheEntry α))
    (count : CacheStats → CacheStats) : LRUCache α :=
  { cache with
    store
    stats := count { cache.stats with totalRequests := cache.stats.totalRequests + 1 } }

/-- The entry that `put` makes. -/
def newEntry (cache : LRUCache α) (key : String) (value : α) (ttl : Option ℚ) (now : ℚ) :
    CacheEntry α where
  key
  value
  createdAt := now
  ttlSeconds := if ttl.getD 0 = 0 then cache.defaultTtl else ttl.getD 0

/-- The cache in which `put` has made room. -/
def madeRoom (cache : LRUCache α) (key : String) : LRUCache α :=
  let store := cache.store.erase key
  let evicted := evictions cache.maxSize store.entries.length
  { cache with
    store := store.drop evicted
    stats := { cache.stats with evictions := cache.stats.evictions + evicted } }

/-- What a call can do. -/
inductive Effect (cache : LRUCache α) : Call α → Reply α → LRUCache α → Prop
  | miss {key now} : cache.store.get? key = none →
    Effect cache (.get key now) (.found (none, .miss))
      (cache.counted cache.store fun stats => { stats with misses := stats.misses + 1 })
  | expired {key now entry} : cache.store.get? key = some entry → entry.isExpired now = true →
    Effect cache (.get key now) (.found (none, .expired))
      (cache.counted (cache.store.erase key) fun stats =>
        { stats with expirations := stats.expirations + 1 })
  | hit {key now entry} : cache.store.get? key = some entry → entry.isExpired now = false →
    Effect cache (.get key now) (.found (some entry.value, .hit))
      (cache.counted (cache.store.setLast key { entry with hitCount := entry.hitCount + 1 })
        fun stats => { stats with hits := stats.hits + 1 })
  | put {key value ttl now} : (cache.madeRoom key).size < cache.maxSize →
    Effect cache (.put key value ttl now) (.written (.ok ())) { cache.madeRoom key with
      store := (cache.madeRoom key).store.set key (cache.newEntry key value ttl now) }
  | full {key value ttl now} : cache.maxSize ≤ (cache.madeRoom key).size →
    Effect cache (.put key value ttl now) (.written (.error (.keyError "dictionary is empty")))
      (cache.madeRoom key)
  | invalidate {key} : Effect cache (.invalidate key) (.invalidated (cache.store.get? key).isSome)
      { cache with store := cache.store.erase key }
  | invalidateByPrefix {start} : Effect cache (.invalidateByPrefix start)
      (.removed (cache.store.keys.filter fun k => k.startsWith start).length)
      { cache with store :=
        (cache.store.keys.filter fun k => k.startsWith start).foldl Dict.erase cache.store }
  | clear : Effect cache .clear .cleared { cache with store := ∅ }

theorem put_of_room {cache : LRUCache α} {key : String} {value : α} {ttl : Option ℚ} {now : ℚ}
    (h : (cache.madeRoom key).size < cache.maxSize) :
    cache.put key value ttl now = (.ok (), { cache.madeRoom key with
      store := (cache.madeRoom key).store.set key (cache.newEntry key value ttl now) }) :=
  if_neg (not_le.mpr h)

theorem effect_step (cache : LRUCache α) (call : Call α) :
    Effect cache call (step cache call).1 (step cache call).2 := by
  rcases call with ⟨key, now⟩ | ⟨key, value, ttl, now⟩ | _ | _ | _
  · rcases hkey : cache.store.get? key with _ | entry
    · simp only [step, get, hkey]
      exact .miss hkey
    · rcases hexpired : entry.isExpired now with _ | _
      · simp only [step, get, hkey, hexpired, Bool.false_eq_true, if_false]
        exact .hit hkey hexpired
      · simp only [step, get, hkey, hexpired, if_true]
        exact .expired hkey hexpired
  · by_cases hroom : cache.maxSize ≤ (cache.madeRoom key).size
    · have hput : cache.put key value ttl now
          = (.error (.keyError "dictionary is empty"), cache.madeRoom key) := if_pos hroom
      simp only [step, hput]
      exact .full hroom
    · simp only [step, put_of_room (not_le.mp hroom)]
      exact .put (not_le.mp hroom)
  · exact .invalidate
  · exact .invalidateByPrefix
  · exact .clear

/-! ## Where an entry comes from -/

abbrev CacheEvent (α : Type) := Event (LRUCache α) (Call α) (Reply α)

def isPutOf (key : String) (e : CacheEvent α) : Bool :=
  match e.input with
  | .put k _ _ _ => k = key
  | _ => false

/-- How long an entry lives that is put with this `ttl`. -/
def effectiveTtl (defaultTtl : ℚ) (ttl : Option ℚ) : ℚ :=
  if ttl.getD 0 = 0 then defaultTtl else ttl.getD 0

/-- The entry is the one that the call puts. -/
def PutBy (defaultTtl : ℚ) (key : String) (entry : CacheEntry α) (call : Call α) : Prop :=
  entry.key = key ∧ ∃ ttl, call = .put key entry.value ttl entry.createdAt
    ∧ entry.ttlSeconds = effectiveTtl defaultTtl ttl

section Entries

variable {cache cache' : LRUCache α} {call : Call α} {reply : Reply α} {key : String}
  {entry : CacheEntry α}

/-- The same entry, however often it was hit. -/
def SameEntry (entry entry' : CacheEntry α) : Prop :=
  entry.key = entry'.key ∧ entry.value = entry'.value ∧ entry.createdAt = entry'.createdAt
    ∧ entry.ttlSeconds = entry'.ttlSeconds

theorem SameEntry.refl (entry : CacheEntry α) : SameEntry entry entry := ⟨rfl, rfl, rfl, rfl⟩

theorem Effect.limits (h : Effect cache call reply cache') :
    cache'.maxSize = cache.maxSize ∧ cache'.defaultTtl = cache.defaultTtl := by
  rcases h with _ | _ | _ | _ | _ | _ | _ | _ <;> exact ⟨rfl, rfl⟩

theorem get?_madeRoom {k : String} (h : (cache.madeRoom k).store.get? key = some entry) :
    k ≠ key ∧ cache.store.get? key = some entry := by
  have h := Dict.get?_drop h
  rw [Dict.get?_erase] at h
  split_ifs at h with hne
  exact ⟨hne, h⟩

/-- An entry was there before the call, which did not put its key, or the call put it. -/
theorem Effect.of_get? (h : Effect cache call reply cache')
    (hentry : cache'.store.get? key = some entry) :
    (∃ entry', cache.store.get? key = some entry' ∧ SameEntry entry' entry
        ∧ isPutOf key ⟨cache, call, reply, cache'⟩ = false)
      ∨ PutBy cache.defaultTtl key entry call := by
  rcases h with _ | _ | _ | _ | _ | _ | _ | _
  case miss => exact .inl ⟨entry, hentry, .refl entry, rfl⟩
  case expired =>
    simp only [counted, Dict.get?_erase] at hentry
    split_ifs at hentry
    exact .inl ⟨entry, hentry, .refl entry, rfl⟩
  case hit k now found hfound hexpired =>
    simp only [counted, Dict.get?_setLast] at hentry
    split_ifs at hentry with heq
    · cases hentry
      exact .inl ⟨found, heq ▸ hfound, ⟨rfl, rfl, rfl, rfl⟩, rfl⟩
    · exact .inl ⟨entry, hentry, .refl entry, rfl⟩
  case put k value ttl now hroom =>
    simp only [Dict.get?_set] at hentry
    by_cases heq : k = key
    · rw [if_pos heq] at hentry
      cases hentry
      subst heq
      exact .inr ⟨rfl, ttl, rfl, rfl⟩
    · rw [if_neg heq] at hentry
      refine .inl ⟨entry, (get?_madeRoom hentry).2, .refl entry, ?_⟩
      simpa [isPutOf] using heq
  case full k value ttl now hroom =>
    obtain ⟨hne, hentry⟩ := get?_madeRoom hentry
    refine .inl ⟨entry, hentry, .refl entry, ?_⟩
    simpa [isPutOf] using hne
  case invalidate =>
    simp only [Dict.get?_erase] at hentry
    split_ifs at hentry
    exact .inl ⟨entry, hentry, .refl entry, rfl⟩
  case invalidateByPrefix =>
    simp only [Dict.get?_foldl_erase] at hentry
    split_ifs at hentry
    exact .inl ⟨entry, hentry, .refl entry, rfl⟩
  case clear => simp at hentry

theorem Effect.of_hit {now : ℚ} {result : Option α}
    (h : Effect cache (.get key now) (.found (result, .hit)) cache') :
    ∃ entry, cache.store.get? key = some entry ∧ result = some entry.value
      ∧ entry.isExpired now = false := by
  rcases h with _ | _ | ⟨hentry, hexpired⟩
  exact ⟨_, hentry, rfl, hexpired⟩

end Entries

end AgentLearning.LRUCache
