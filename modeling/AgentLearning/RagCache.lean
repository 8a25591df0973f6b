import AgentLearning.Value

/-!
# The caches of retrieval

`src/rag/cache.py`: a cache of limited size that forgets what was not used for longest, and whose
entries have a time to live each; and the three such caches of retrieval, for results, embeddings
and contexts. The results and the contexts of a query are kept under a hash of the query and the
role of the user. The clock is read where an entry is made and where one is found.
-/

namespace AgentLearning

inductive CacheStatus
  | hit
  | miss
  | expired
  | degraded
  deriving DecidableEq, Repr

structure CacheEntry (α : Type) where
  key : String
  value : α
  createdAt : ℚ
  ttlSeconds : ℚ
  hitCount : ℕ := 0

def CacheEntry.isExpired {α : Type} (entry : CacheEntry α) (now : ℚ) : Bool :=
  entry.ttlSeconds < now - entry.createdAt

structure CacheStats where
  totalRequests : ℕ := 0
  hits : ℕ := 0
  misses : ℕ := 0
  expirations : ℕ := 0
  evictions : ℕ := 0
  deriving DecidableEq, Repr

/-- The entries in the order of their last use. -/
structure LRUCache (α : Type) where
  maxSize : ℤ := 1000
  defaultTtl : ℚ := 300
  store : Dict String (CacheEntry α) := ∅
  stats : CacheStats := {}

namespace LRUCache

variable {α : Type} (cache : LRUCache α) (key : String)

def size : ℕ := cache.store.entries.length

def get (now : ℚ) : (Option α × CacheStatus) × LRUCache α :=
  let stats := { cache.stats with totalRequests := cache.stats.totalRequests + 1 }
  match cache.store.get? key with
  | none => ((none, .miss), { cache with stats := { stats with misses := stats.misses + 1 } })
  | some entry =>
    if entry.isExpired now then
      ((none, .expired), { cache with
        store := cache.store.erase key
        stats := { stats with expirations := stats.expirations + 1 } })
    else
      ((some entry.value, .hit), { cache with
        store := cache.store.setLast key { entry with hitCount := entry.hitCount + 1 }
        stats := { stats with hits := stats.hits + 1 } })

/-- How often the loop of `put` takes an entry out of a cache of this size. -/
def evictions (maxSize : ℤ) : ℕ → ℕ
  | 0 => 0
  | n + 1 => if maxSize ≤ n + 1 then evictions maxSize n + 1 else 0

/-- Entries are taken out until there is room; where there never is, `popitem` raises in the end. -/
def put (value : α) (ttl : Option ℚ) (now : ℚ) : Except PyError Unit × LRUCache α :=
  let store := cache.store.erase key
  let evicted := evictions cache.maxSize store.entries.length
  let cache := { cache with
    store := store.drop evicted
    stats := { cache.stats with evictions := cache.stats.evictions + evicted } }
  if cache.maxSize ≤ cache.size then (.error (.keyError "dictionary is empty"), cache)
  else
    (.ok (), { cache with
      store := cache.store.set key {
        key
        value
        createdAt := now
        ttlSeconds := if ttl.getD 0 = 0 then cache.defaultTtl else ttl.getD 0 } })

def invalidate : Bool × LRUCache α :=
  ((cache.store.get? key).isSome, { cache with store := cache.store.erase key })

def invalidateByPrefix (start : String) : ℕ × LRUCache α :=
  let keysToRemove := cache.store.keys.filter fun k => k.startsWith start
  (keysToRemove.length, { cache with store := keysToRemove.foldl Dict.erase cache.store })

def clear : LRUCache α := { cache with store := ∅ }

end LRUCache

/-- The caches of retrieval, for results of type `ρ`. -/
structure RAGCache (ρ : Type) where
  queryCache : LRUCache ρ := { maxSize := 500, defaultTtl := 300 }
  embeddingCache : LRUCache (List ℚ) := { maxSize := 5000, defaultTtl := 3600 }
  contextCache : LRUCache String := { maxSize := 200, defaultTtl := 600 }

/-- `str.strip`, `str.lower` and the first 32 digits of the SHA-256 of a string. -/
structure KeyFunctions where
  strip : String → String
  lower : String → String
  digest : String → String

namespace KeyFunctions

variable (f : KeyFunctions) (query userRole : String)

/-- A query as the key sees it. -/
def normalized : String := f.lower (f.strip query)

/-- What is hashed. -/
def raw : String := f.normalized query ++ "|" ++ userRole

def queryKey : String := f.digest (f.raw query userRole)

def contextKey : String := "ctx_" ++ f.queryKey query userRole

end KeyFunctions

namespace RAGCache

variable {ρ : Type}

/-- A new cache of these sizes and times to live. -/
def init (queryCacheSize embeddingCacheSize contextCacheSize : ℤ)
    (queryCacheTtl embeddingCacheTtl contextCacheTtl : ℚ) : RAGCache ρ where
  queryCache := { maxSize := queryCacheSize, defaultTtl := queryCacheTtl }
  embeddingCache := { maxSize := embeddingCacheSize, defaultTtl := embeddingCacheTtl }
  contextCache := { maxSize := contextCacheSize, defaultTtl := contextCacheTtl }

variable (f : KeyFunctions) (cache : RAGCache ρ)

def getQueryResult (query userRole : String) (now : ℚ) : (Option ρ × CacheStatus) × RAGCache ρ :=
  let result := cache.queryCache.get (f.queryKey query userRole) now
  (result.1, { cache with queryCache := result.2 })

def putQueryResult (query : String) (result : ρ) (userRole : String) (now : ℚ) :
    Except PyError Unit × RAGCache ρ :=
  let written := cache.queryCache.put (f.queryKey query userRole) result none now
  (written.1, { cache with queryCache := written.2 })

def getContext (query userRole : String) (now : ℚ) : (Option String × CacheStatus) × RAGCache ρ :=
  let result := cache.contextCache.get (f.contextKey query userRole) now
  (result.1, { cache with contextCache := result.2 })

def putContext (query context userRole : String) (now : ℚ) : Except PyError Unit × RAGCache ρ :=
  let written := cache.contextCache.put (f.contextKey query userRole) context none now
  (written.1, { cache with contextCache := written.2 })

def invalidateSource (sourceId : String) : RAGCache ρ where
  queryCache := cache.queryCache.clear
  embeddingCache := (cache.embeddingCache.invalidateByPrefix sourceId).2
  contextCache := cache.contextCache.clear

end RAGCache

end AgentLearning
