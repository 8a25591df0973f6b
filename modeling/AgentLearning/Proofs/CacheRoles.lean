import Mathlib.Data.Set.Function
import AgentLearning.Proofs.CacheSteps

/-!
# The caches keep roles apart

An entry of a cache has the value of the last `put` of its key, with nothing in between that takes
it away. The key of a query and a role determines both: the role has no `|` in it, so the last `|`
of what is hashed is where the role begins.
-/

namespace AgentLearning

/-! ## One cache -/

inductive LRUCall (α : Type)
  | get (key : String) (now : ℚ)
  | put (key : String) (value : α) (ttl : Option ℚ) (now : ℚ)
  | clear

namespace LRUCall

variable {α : Type}

/-- The call takes away what is under the key. -/
def Overwrites (key : String) : LRUCall α → Prop
  | get _ _ => False
  | put k _ _ _ => k = key
  | clear => True

def exec (cache : LRUCache α) : LRUCall α → LRUCache α
  | get key now => (cache.get key now).2
  | put key value ttl now => (cache.put key value ttl now).2
  | clear => cache.clear

/-- The value was put under the key, and not taken away since. -/
def LastPut (key : String) (value : α) (calls : List (LRUCall α)) : Prop :=
  ∃ l₁ ttl now l₂, calls = l₁ ++ put key value ttl now :: l₂ ∧ ∀ c ∈ l₂, ¬ c.Overwrites key

variable {cache : LRUCache α} {key : String}

theorem value_of_get_hit {value : α} {now : ℚ}
    (h : (cache.get key now).1 = (some value, .hit)) :
    ∃ entry, cache.store.get? key = some entry ∧ entry.value = value := by
  have heffect := LRUCache.effect_step cache (.get key now)
  have hreply : (LRUCache.step cache (.get key now)).1 = .found (some value, .hit) :=
    congrArg LRUCache.Reply.found h
  rw [hreply] at heffect
  obtain ⟨entry, hentry, hvalue, -⟩ := heffect.of_hit
  exact ⟨entry, hentry, (Option.some.inj hvalue).symm⟩

/-- An entry is one that the call has not taken away, or the call has put it. -/
theorem get?_exec {c : LRUCall α} {entry : CacheEntry α}
    (h : (exec cache c).store.get? key = some entry) :
    (∃ entry', cache.store.get? key = some entry' ∧ entry'.value = entry.value
        ∧ ¬ c.Overwrites key)
      ∨ ∃ ttl now, c = put key entry.value ttl now := by
  rcases c with ⟨k, now⟩ | ⟨k, value, ttl, now⟩ | _
  · have heffect := LRUCache.effect_step cache (.get k now)
    rcases heffect.of_get? h with ⟨entry', h', hsame, -⟩ | ⟨-, _, hcall, -⟩
    · exact .inl ⟨entry', h', hsame.2.1, id⟩
    · cases hcall
  · have heffect := LRUCache.effect_step cache (.put k value ttl now)
    rcases heffect.of_get? h with ⟨entry', h', hsame, hput⟩ | ⟨-, _, hcall, -⟩
    · refine .inl ⟨entry', h', hsame.2.1, ?_⟩
      simpa [LRUCache.isPutOf, Overwrites] using hput
    · cases hcall
      exact .inr ⟨ttl, _, rfl⟩
  · cases h

theorem lastPut_of_get? (hempty : cache.store = ∅) (calls : List (LRUCall α)) {entry : CacheEntry α}
    (h : (calls.foldl exec cache).store.get? key = some entry) :
    LastPut key entry.value calls := by
  induction calls using List.reverseRecOn generalizing entry with
  | nil =>
    rw [List.foldl_nil, hempty] at h
    cases h
  | append_singleton calls c ih =>
    rw [List.foldl_append, List.foldl_cons, List.foldl_nil] at h
    rcases get?_exec h with ⟨entry', h', hvalue, hc⟩ | ⟨ttl, now, rfl⟩
    · -- An entry that the call kept is the one of the calls before.
      obtain ⟨l₁, ttl, now, l₂, rfl, hl₂⟩ := ih h'
      refine ⟨l₁, ttl, now, l₂ ++ [c], by simp [hvalue], fun c' hc' => ?_⟩
      rcases List.mem_append.mp hc' with hc' | hc'
      · exact hl₂ c' hc'
      · exact List.mem_singleton.mp hc' ▸ hc
    · exact ⟨calls, ttl, now, [], rfl, by simp⟩

end LRUCall

/-! ## Keys -/

namespace KeyFunctions

variable (f : KeyFunctions)

/-- A separator that is not in what follows splits in one way. -/
theorem append_cons_inj {α : Type*} {a : α} {l l' r r' : List α} (hr : a ∉ r) (hr' : a ∉ r')
    (h : l ++ a :: r = l' ++ a :: r') : l = l' ∧ r = r' := by
  rw [List.append_eq_append_iff] at h
  rcases h with ⟨m, rfl, hm⟩ | ⟨m, rfl, hm⟩
  · cases m with
    | nil => simpa using hm
    | cons b m =>
      obtain ⟨rfl, rfl⟩ := List.cons.inj hm
      simp at hr
  · cases m with
    | nil => simpa using hm.symm
    | cons b m =>
      obtain ⟨rfl, rfl⟩ := List.cons.inj hm
      simp at hr'

theorem raw_inj {query query' userRole userRole' : String} (hr : '|' ∉ userRole.toList)
    (hr' : '|' ∉ userRole'.toList) (h : f.raw query userRole = f.raw query' userRole') :
    f.normalized query = f.normalized query' ∧ userRole = userRole' := by
  have hlist := congrArg String.toList h
  simp only [raw, String.toList_append] at hlist
  have hbar : "|".toList = ['|'] := rfl
  rw [hbar, List.append_assoc, List.append_assoc, List.singleton_append, List.singleton_append]
    at hlist
  obtain ⟨hq, hrole⟩ := append_cons_inj hr hr' hlist
  exact ⟨String.toList_inj.mp hq, String.toList_inj.mp hrole⟩

theorem queryKey_congr {query query' userRole : String}
    (h : f.normalized query = f.normalized query') :
    f.queryKey query userRole = f.queryKey query' userRole := by
  rw [queryKey, queryKey, raw, raw, h]

end KeyFunctions

/-! ## The caches of retrieval -/

inductive RAGCall (ρ : Type)
  | getQueryResult (query userRole : String) (now : ℚ)
  | putQueryResult (query : String) (result : ρ) (userRole : String) (now : ℚ)
  | getContext (query userRole : String) (now : ℚ)
  | putContext (query context userRole : String) (now : ℚ)
  | invalidateSource (sourceId : String)

namespace RAGCall

variable {ρ : Type} (f : KeyFunctions)

def exec (cache : RAGCache ρ) : RAGCall ρ → RAGCache ρ
  | getQueryResult query userRole now => (cache.getQueryResult f query userRole now).2
  | putQueryResult query result userRole now =>
    (cache.putQueryResult f query result userRole now).2
  | getContext query userRole now => (cache.getContext f query userRole now).2
  | putContext query context userRole now => (cache.putContext f query context userRole now).2
  | invalidateSource sourceId => cache.invalidateSource sourceId

/-- The query and the role that a call names. -/
def named : RAGCall ρ → Option (String × String)
  | getQueryResult query userRole _ => some (query, userRole)
  | putQueryResult query _ userRole _ => some (query, userRole)
  | getContext query userRole _ => some (query, userRole)
  | putContext query _ userRole _ => some (query, userRole)
  | invalidateSource _ => none

/-- What a call does to the cache of results. -/
def onQueryCache : RAGCall ρ → Option (LRUCall ρ)
  | getQueryResult query userRole now => some (.get (f.queryKey query userRole) now)
  | putQueryResult query result userRole now =>
    some (.put (f.queryKey query userRole) result none now)
  | invalidateSource _ => some .clear
  | _ => none

/-- What a call does to the cache of contexts. -/
def onContextCache : RAGCall ρ → Option (LRUCall String)
  | getContext query userRole now => some (.get (f.contextKey query userRole) now)
  | putContext query context userRole now =>
    some (.put (f.contextKey query userRole) context none now)
  | invalidateSource _ => some .clear
  | _ => none

theorem queryCache_run (calls : List (RAGCall ρ)) (cache : RAGCache ρ) :
    (calls.foldl (exec f) cache).queryCache
      = (calls.filterMap (onQueryCache f)).foldl LRUCall.exec cache.queryCache := by
  induction calls generalizing cache with
  | nil => rfl
  | cons call calls ih => cases call <;> exact ih _

theorem contextCache_run (calls : List (RAGCall ρ)) (cache : RAGCache ρ) :
    (calls.foldl (exec f) cache).contextCache
      = (calls.filterMap (onContextCache f)).foldl LRUCall.exec cache.contextCache := by
  induction calls generalizing cache with
  | nil => rfl
  | cons call calls ih => cases call <;> exact ih _

/-- The last of the results that were put for the query under the role, with no invalidation
since. -/
def LastResult (query userRole : String) (result : ρ) (calls : List (RAGCall ρ)) : Prop :=
  ∃ l₁ query' now l₂, calls = l₁ ++ putQueryResult query' result userRole now :: l₂
    ∧ f.normalized query' = f.normalized query
    ∧ (∀ query'' result' now', putQueryResult query'' result' userRole now' ∈ l₂ →
      f.normalized query'' ≠ f.normalized query)
    ∧ ∀ sourceId, invalidateSource sourceId ∉ l₂

/-- The last of the contexts that were put for the query under the role, with no invalidation
since. -/
def LastContext (query userRole context : String) (calls : List (RAGCall ρ)) : Prop :=
  ∃ l₁ query' now l₂, calls = l₁ ++ putContext query' context userRole now :: l₂
    ∧ f.normalized query' = f.normalized query
    ∧ (∀ query'' context' now', putContext query'' context' userRole now' ∈ l₂ →
      f.normalized query'' ≠ f.normalized query)
    ∧ ∀ sourceId, invalidateSource sourceId ∉ l₂

/-- What is hashed for the queries and the roles. -/
def hashed (queries : List (String × String)) : Set String :=
  {raw | ∃ p ∈ queries, raw = f.raw p.1 p.2}

end RAGCall

namespace RAGCache

open RAGCall

variable {ρ : Type} {f : KeyFunctions} {query userRole : String} {calls : List (RAGCall ρ)}

theorem contextKey_inj {query' userRole' : String}
    (h : f.contextKey query userRole = f.contextKey query' userRole') :
    f.queryKey query userRole = f.queryKey query' userRole' := by
  have hlist := congrArg String.toList h
  rw [KeyFunctions.contextKey, KeyFunctions.contextKey, String.toList_append, String.toList_append]
    at hlist
  exact String.toList_inj.mp (List.append_cancel_left hlist)

section

variable (hrole : '|' ∉ userRole.toList)
  (hroles : ∀ call ∈ calls, ∀ p ∈ call.named, '|' ∉ p.2.toList)
  (hdigest : (hashed f ((query, userRole) :: calls.filterMap named)).InjOn f.digest)
include hrole hroles hdigest

/-- A key that comes up in the calls is that of the query and the role only if they are the
same. -/
theorem queryKey_inj (call : RAGCall ρ) (hcall : call ∈ calls) {query' userRole' : String}
    (hnamed : call.named = some (query', userRole'))
    (h : f.queryKey query' userRole' = f.queryKey query userRole) :
    f.normalized query' = f.normalized query ∧ userRole' = userRole := by
  have hmem : (query', userRole') ∈ calls.filterMap named :=
    List.mem_filterMap.mpr ⟨call, hcall, hnamed⟩
  refine KeyFunctions.raw_inj f (hroles call hcall _ hnamed) hrole ?_
  exact hdigest ⟨_, List.mem_cons_of_mem _ hmem, rfl⟩ ⟨_, List.mem_cons_self, rfl⟩ h

omit hrole hroles hdigest in
/-- An element of a filtered list comes from an element of the list, and what is after it from what
is after that. -/
theorem exists_split_of_filterMap {α β : Type*} {g : α → Option β} {l : List α} {m₁ m₂ : List β}
    {b : β} (h : l.filterMap g = m₁ ++ b :: m₂) :
    ∃ l₁ a l₂, l = l₁ ++ a :: l₂ ∧ g a = some b ∧ l₂.filterMap g = m₂ := by
  obtain ⟨l₁, l', rfl, -, hl'⟩ := List.filterMap_eq_append_iff.mp h
  obtain ⟨n, a, l₂, rfl, -, ha, hl₂⟩ := List.filterMap_eq_cons_iff.mp hl'
  exact ⟨l₁ ++ n, a, l₂, by simp, ha, hl₂⟩

theorem lastResult_of_hit {cache : RAGCache ρ} (hempty : cache.queryCache.store = ∅) {result : ρ}
    {now : ℚ} (h : ((calls.foldl (exec f) cache).getQueryResult f query userRole now).1
      = (some result, .hit)) : LastResult f query userRole result calls := by
  obtain ⟨entry, hentry, hvalue⟩ := LRUCall.value_of_get_hit h
  rw [queryCache_run] at hentry
  obtain ⟨m₁, ttl, now', m₂, heq, hm₂⟩ := LRUCall.lastPut_of_get? hempty _ hentry
  obtain ⟨l₁, call, l₂, rfl, hcall, rfl⟩ := exists_split_of_filterMap heq
  cases call with
  | putQueryResult query' result' userRole' now'' =>
    simp only [onQueryCache, Option.some.injEq, LRUCall.put.injEq] at hcall
    obtain ⟨hkey, hresult, -, -⟩ := hcall
    obtain ⟨hnorm, rfl⟩ := queryKey_inj hrole hroles hdigest
      (.putQueryResult query' result' userRole' now'') (by simp) rfl hkey
    obtain rfl : result' = result := hresult.trans hvalue
    refine ⟨l₁, query', now'', l₂, rfl, hnorm, fun query'' result'' now''' hmem hsame => ?_,
      fun sourceId hmem => ?_⟩
    · refine hm₂ (.put (f.queryKey query'' userRole') result'' none now''') ?_ ?_
      · exact List.mem_filterMap.mpr ⟨_, hmem, rfl⟩
      · exact KeyFunctions.queryKey_congr f hsame
    · exact hm₂ .clear (List.mem_filterMap.mpr ⟨_, hmem, rfl⟩) trivial
  | getQueryResult query' userRole' now'' => simp [onQueryCache] at hcall
  | getContext query' userRole' now'' => simp [onQueryCache] at hcall
  | putContext query' context userRole' now'' => simp [onQueryCache] at hcall
  | invalidateSource sourceId => simp [onQueryCache] at hcall

theorem lastContext_of_hit {cache : RAGCache ρ} (hempty : cache.contextCache.store = ∅)
    {context : String} {now : ℚ}
    (h : ((calls.foldl (exec f) cache).getContext f query userRole now).1
      = (some context, .hit)) : LastContext f query userRole context calls := by
  obtain ⟨entry, hentry, hvalue⟩ := LRUCall.value_of_get_hit h
  rw [contextCache_run] at hentry
  obtain ⟨m₁, ttl, now', m₂, heq, hm₂⟩ := LRUCall.lastPut_of_get? hempty _ hentry
  obtain ⟨l₁, call, l₂, rfl, hcall, rfl⟩ := exists_split_of_filterMap heq
  cases call with
  | putContext query' context' userRole' now'' =>
    simp only [onContextCache, Option.some.injEq, LRUCall.put.injEq] at hcall
    obtain ⟨hkey, hcontext, -, -⟩ := hcall
    obtain ⟨hnorm, rfl⟩ := queryKey_inj hrole hroles hdigest
      (.putContext query' context' userRole' now'') (by simp) rfl (contextKey_inj hkey)
    obtain rfl : context' = context := hcontext.trans hvalue
    refine ⟨l₁, query', now'', l₂, rfl, hnorm, fun query'' context'' now''' hmem hsame => ?_,
      fun sourceId hmem => ?_⟩
    · refine hm₂ (.put (f.contextKey query'' userRole') context'' none now''') ?_ ?_
      · exact List.mem_filterMap.mpr ⟨_, hmem, rfl⟩
      · exact congrArg ("ctx_" ++ ·) (KeyFunctions.queryKey_congr f hsame)
    · exact hm₂ .clear (List.mem_filterMap.mpr ⟨_, hmem, rfl⟩) trivial
  | getQueryResult query' userRole' now'' => simp [onContextCache] at hcall
  | putQueryResult query' result userRole' now'' => simp [onContextCache] at hcall
  | getContext query' userRole' now'' => simp [onContextCache] at hcall
  | invalidateSource sourceId => simp [onContextCache] at hcall

end

/-- After any calls on a new cache, what is found under a query and a role is what was last put
there, for an equal query under the same role, and no source was invalidated since. -/
theorem cache_isolation (f : KeyFunctions)
    (queryCacheSize embeddingCacheSize contextCacheSize : ℤ)
    (queryCacheTtl embeddingCacheTtl contextCacheTtl : ℚ) (calls : List (RAGCall ρ))
    (query userRole : String) (now : ℚ) (hrole : '|' ∉ userRole.toList)
    (hroles : ∀ call ∈ calls, ∀ p ∈ call.named, '|' ∉ p.2.toList)
    (hdigest : (hashed f ((query, userRole) :: calls.filterMap named)).InjOn f.digest) :
    let cache := calls.foldl (exec f) (init queryCacheSize embeddingCacheSize contextCacheSize
      queryCacheTtl embeddingCacheTtl contextCacheTtl)
    (∀ result, (cache.getQueryResult f query userRole now).1 = (some result, .hit) →
      LastResult f query userRole result calls)
    ∧ ∀ context, (cache.getContext f query userRole now).1 = (some context, .hit) →
      LastContext f query userRole context calls :=
  ⟨fun _ h => lastResult_of_hit hrole hroles hdigest rfl h,
    fun _ h => lastContext_of_hit hrole hroles hdigest rfl h⟩

/-- The functions on the queries of the run below. -/
def catsKeys : KeyFunctions where
  strip s := if s = " Cats " then "Cats" else s
  lower s := if s = "Cats" then "cats" else s
  digest s :=
    if s = "cats|public" then "1f09aa15be3c84a4f2b818f97fc8ff33"
    else if s = "cats|admin" then "e0aead2123b678defdeab42fa2790741" else s

/-- A result that was put for one role, looked up by that role and by another. -/
theorem cache_isolation_cats :
    let calls : List (RAGCall ℕ) := [.putQueryResult " Cats " 1 "public" 0]
    let cache := calls.foldl (exec catsKeys) (init 500 5000 200 300 3600 600)
    LastResult catsKeys "cats" "public" 1 calls
      ∧ (cache.getQueryResult catsKeys "cats" "admin" 1).1 = (none, .miss) := by
  intro calls cache
  refine ⟨(cache_isolation catsKeys 500 5000 200 300 3600 600 calls "cats" "public" 1 ?_ ?_
    ?_).1 1 ?_, by decide +kernel⟩
  · decide +kernel
  · simp only [calls, List.forall_mem_singleton, named]
    decide +kernel
  · have hraw : ∀ r ∈ hashed catsKeys (("cats", "public") :: calls.filterMap named),
        r = "cats|public" := by
      rintro _ ⟨p, hp, rfl⟩
      revert p
      decide +kernel
    intro r hr r' hr' _
    rw [hraw r hr, hraw r' hr']
  · decide +kernel

end RAGCache

end AgentLearning
