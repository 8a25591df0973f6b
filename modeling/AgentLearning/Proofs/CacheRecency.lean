import Mathlib.Data.Finset.Card
import Mathlib.Tactic.NormNum
import AgentLearning.Proofs.CacheSteps

/-!
# What a cache still has

Behind a key, in the order of the entries, stand only keys that were put or hit after its own last
use. A `put` takes entries from the front until there is room for one, so it takes a key only when
the keys behind it and its own are as many as the cache may hold. What an entry holds is what the
last `put` of its key gave.
-/

namespace AgentLearning.LRUCache

open Trace

variable {α : Type}

/-- A new cache. -/
def fresh (maxSize : ℤ) (defaultTtl : ℚ) : LRUCache α := { maxSize, defaultTtl }

/-! ## What an event does to a key -/

/-- The key that is put or hit. -/
def touched (e : CacheEvent α) : Option String :=
  match e.input, e.output with
  | .put key _ _ _, _ => some key
  | .get key _, .found (_, .hit) => some key
  | _, _ => none

def touchedKeys (tr : List (CacheEvent α)) : Finset String := (tr.filterMap touched).toFinset

/-- The key is invalidated, cleared or found to be expired. -/
def Removes (key : String) (e : CacheEvent α) : Prop :=
  match e.input, e.output with
  | .get k _, .found (_, .expired) => k = key
  | .invalidate k, _ => k = key
  | .invalidateByPrefix start, _ => key.startsWith start = true
  | .clear, _ => True
  | _, _ => False

/-- The call that the last `put` of the key was. -/
def lastPut (key : String) (tr : List (CacheEvent α)) : Option (Call α) :=
  (lastWhere (isPutOf key) tr).map Event.input

/-! ## Room for one -/

theorem sub_evictions {maxSize : ℤ} (hsize : 1 ≤ maxSize) (n : ℕ) :
    n - evictions maxSize n = min n (maxSize - 1).toNat := by
  induction n with
  | zero => simp [evictions]
  | succ n ih =>
    unfold evictions
    split_ifs with h
    · rw [Nat.add_sub_add_right, ih]
      omega
    · omega

section Room

variable {cache : LRUCache α} {key : String}

theorem size_eq : cache.size = cache.store.keys.length := by
  rw [size, Dict.keys, List.length_map]

theorem keys_madeRoom : (cache.madeRoom key).store.keys
    = (cache.store.keys.filter (· ≠ key)).drop
      (evictions cache.maxSize (cache.store.keys.filter (· ≠ key)).length) := by
  simp only [madeRoom, Dict.keys_drop, Dict.keys_erase]
  rw [← Dict.keys_erase, Dict.keys, List.length_map]

theorem size_madeRoom_lt (hsize : 1 ≤ cache.maxSize) :
    ((cache.madeRoom key).size : ℤ) < cache.maxSize := by
  rw [size_eq, keys_madeRoom, List.length_drop, sub_evictions hsize]
  omega

theorem key_notMem_madeRoom : key ∉ (cache.madeRoom key).store.keys := by
  rw [keys_madeRoom]
  intro h
  simpa using List.mem_of_mem_drop h

end Room

/-! ## What stands behind a key -/

/-- Behind the key stand only these. -/
def Behind (keys : List String) (key : String) (later : String → Prop) : Prop :=
  ∃ front back, keys = front ++ key :: back ∧ ∀ k ∈ back, later k

section Order

variable {cache cache' : LRUCache α} {call : Call α} {reply : Reply α} {key k : String}
  {later : String → Prop} {keys : List String}

theorem Behind.filter {p : String → Bool} (h : Behind keys key later) (hp : p key = true) :
    Behind (keys.filter p) key fun k => later k ∧ p k = true := by
  obtain ⟨front, back, rfl, hback⟩ := h
  refine ⟨front.filter p, back.filter p, ?_, fun k hk => ?_⟩
  · rw [List.filter_append, List.filter_cons_of_pos hp]
  · rw [List.mem_filter] at hk
    exact ⟨hback k hk.1, hk.2⟩

theorem Behind.concat (h : Behind keys key later) (k : String) :
    Behind (keys ++ [k]) key fun k' => later k' ∨ k' = k := by
  obtain ⟨front, back, rfl, hback⟩ := h
  refine ⟨front, back ++ [k], by simp, fun k' hk' => ?_⟩
  rw [List.mem_append, List.mem_singleton] at hk'
  exact hk'.imp_left (hback k')

theorem Behind.mono {later' : String → Prop} (h : Behind keys key later)
    (hmono : ∀ k, later k → later' k) : Behind keys key later' := by
  obtain ⟨front, back, hkeys, hback⟩ := h
  exact ⟨front, back, hkeys, fun k hk => hmono k (hback k hk)⟩

/-- With few enough keys behind it the key stays when the others are taken from the front. -/
theorem Behind.drop {seen : Finset String} {n : ℕ} (h : Behind keys key (· ∈ seen))
    (hnodup : keys.Nodup) (hn : min keys.length (seen.card + 1) ≤ keys.length - n) :
    Behind (keys.drop n) key (· ∈ seen) := by
  obtain ⟨front, back, rfl, hback⟩ := h
  have hlength : back.length ≤ seen.card := by
    have hsub : back.Nodup := (List.nodup_append.mp hnodup).2.1.of_cons
    rw [← List.toFinset_card_of_nodup hsub]
    exact Finset.card_le_card fun k hk => hback k (List.mem_toFinset.mp hk)
  refine ⟨front.drop n, back, ?_, hback⟩
  rw [List.drop_append_of_le_length]
  simp only [List.length_append, List.length_cons] at hn
  omega

/-- A key that is put or hit stands last. -/
theorem Effect.last (h : Effect cache call reply cache') (hsize : 1 ≤ cache.maxSize)
    (htouched : touched ⟨cache, call, reply, cache'⟩ = some key) (later : String → Prop) :
    Behind cache'.store.keys key later := by
  rcases h with _ | _ | _ | _ | hfull | _ | _ | _ <;> simp only [touched] at htouched <;>
    try cases htouched
  case hit =>
    exact ⟨cache.store.keys.filter (· ≠ key), [], by simp only [counted, Dict.keys_setLast],
      by simp⟩
  case put =>
    exact ⟨(cache.madeRoom key).store.keys, [],
      by rw [Dict.keys_set, if_neg key_notMem_madeRoom], by simp⟩
  case full => exact absurd hfull (not_le.mpr (size_madeRoom_lt hsize))

/-- Making room for another key leaves the key while few enough are behind it. -/
theorem Behind.madeRoom {seen : Finset String} (h : Behind cache.store.keys key (· ∈ seen))
    (hne : key ≠ k) (hsize : 1 ≤ cache.maxSize)
    (hroom : ((insert k seen).card : ℤ) < cache.maxSize) :
    Behind (cache.madeRoom k).store.keys key (· ∈ seen) := by
  have herase : Behind (cache.store.keys.filter (· ≠ k)) key (· ∈ seen.erase k) := by
    refine (h.filter (by simpa using hne)).mono fun k' hk' => ?_
    rw [Finset.mem_erase]
    exact ⟨by simpa using hk'.2, hk'.1⟩
  have hcard : (seen.erase k).card + 1 = (insert k seen).card := by
    rw [← Finset.card_insert_of_notMem (Finset.notMem_erase k seen)]
    congr 1
    ext x
    simp only [Finset.mem_insert, Finset.mem_erase]
    tauto
  rw [keys_madeRoom]
  refine (herase.drop (cache.store.nodup.filter _) ?_).mono fun k' hk' =>
    Finset.mem_of_mem_erase hk'
  rw [sub_evictions hsize]
  omega

/-- What a call for another key does to what stands behind the key. -/
theorem Effect.behind {seen : Finset String} (h : Effect cache call reply cache')
    (hsize : 1 ≤ cache.maxSize) (hbehind : Behind cache.store.keys key (· ∈ seen))
    (htouched : touched ⟨cache, call, reply, cache'⟩ ≠ some key)
    (hremoves : ¬ Removes key ⟨cache, call, reply, cache'⟩)
    (hroom : ∀ k, touched ⟨cache, call, reply, cache'⟩ = some k →
      ((insert k seen).card : ℤ) < cache.maxSize) :
    Behind cache'.store.keys key fun k =>
      k ∈ seen ∨ touched ⟨cache, call, reply, cache'⟩ = some k := by
  rcases h with _ | _ | _ | _ | _ | _ | _ | _ <;>
    simp only [touched, Removes, ne_eq, Option.some.injEq] at htouched hremoves hroom ⊢
  case miss => exact hbehind.mono fun k hk => .inl hk
  case expired k now entry hentry hexpired =>
    simp only [counted, Dict.keys_erase]
    exact (hbehind.filter (by simpa using Ne.symm hremoves)).mono fun k' hk' => .inl hk'.1
  case hit k now entry hentry hexpired =>
    simp only [counted, Dict.keys_setLast]
    refine ((hbehind.filter (by simpa using Ne.symm htouched)).concat k).mono fun k' hk' => ?_
    exact hk'.imp (fun h => h.1) Eq.symm
  case put k value ttl now hlt =>
    rw [Dict.keys_set, if_neg key_notMem_madeRoom]
    refine ((hbehind.madeRoom (Ne.symm htouched) hsize (hroom k rfl)).concat k).mono
      fun k' hk' => ?_
    exact hk'.imp_right Eq.symm
  case full hfull => exact absurd hfull (not_le.mpr (size_madeRoom_lt hsize))
  case invalidate k =>
    rw [Dict.keys_erase]
    exact (hbehind.filter (by simpa using Ne.symm hremoves)).mono fun k' hk' => .inl hk'.1
  case invalidateByPrefix start =>
    rw [Dict.keys_foldl_erase]
    refine (hbehind.filter ?_).mono fun k' hk' => .inl hk'.1
    simp [hremoves]
  case clear => exact absurd trivial hremoves

end Order

/-! ## Every run -/

/-- The key was put or hit, nothing has taken it away since, and since then fewer than this many
other keys were put or hit. -/
def RecentlyUsed (maxSize : ℤ) (key : String) (tr : List (CacheEvent α)) : Prop :=
  ∃ tr₁ e tr₂, tr = tr₁ ++ e :: tr₂ ∧ touched e = some key
    ∧ (∀ e' ∈ tr₂, touched e' ≠ some key ∧ ¬ Removes key e')
    ∧ ((touchedKeys tr₂).card : ℤ) < maxSize

/-- What a cache of this size promises after what has happened. -/
structure Correct (maxSize : ℤ) (tr : List (CacheEvent α)) (cache : LRUCache α) : Prop where
  size : cache.size ≤ maxSize
  nodup : cache.store.keys.Nodup
  keyed : ∀ key entry, cache.store.get? key = some entry → entry.key = key
  hit : ∀ tr₁ e tr₂ key now result, tr = tr₁ ++ e :: tr₂ → e.input = .get key now →
    e.output = .found (result, .hit) →
    ∃ value ttl t, result = some value ∧ lastPut key tr₁ = some (.put key value ttl t)
  recent : ∀ key, RecentlyUsed maxSize key tr → key ∈ cache.store.keys
  stats : cache.stats.totalRequests
    = cache.stats.hits + cache.stats.misses + cache.stats.expirations

section Runs

variable {maxSize : ℤ} {defaultTtl : ℚ} {cache cache' : LRUCache α} {call : Call α}
  {reply : Reply α} {tr : List (CacheEvent α)}

theorem mem_touchedKeys_concat {e : CacheEvent α} {key : String} :
    key ∈ touchedKeys (tr ++ [e]) ↔ key ∈ touchedKeys tr ∨ touched e = some key := by
  simp [touchedKeys]

theorem lastPut_concat (e : CacheEvent α) (key : String) :
    lastPut key (tr ++ [e]) = if isPutOf key e then some e.input else lastPut key tr := by
  rw [lastPut, lastWhere_concat]
  split_ifs <;> rfl

/-- Each entry is the one of the last `put` of its key. -/
def FromLastPut (defaultTtl : ℚ) (tr : List (CacheEvent α)) (cache : LRUCache α) : Prop :=
  cache.defaultTtl = defaultTtl ∧ ∀ key entry, cache.store.get? key = some entry →
    ∃ call, lastPut key tr = some call ∧ PutBy defaultTtl key entry call

theorem PutBy.same {key : String} {entry entry' : CacheEntry α}
    (h : PutBy defaultTtl key entry call) (hsame : SameEntry entry entry') :
    PutBy defaultTtl key entry' call := by
  obtain ⟨hkey, hvalue, hcreated, httl⟩ := hsame
  rwa [PutBy, ← hkey, ← hvalue, ← hcreated, ← httl]

theorem FromLastPut.step (h : FromLastPut defaultTtl tr cache) (call : Call α) :
    FromLastPut defaultTtl (tr ++ [event step cache call]) (step cache call).2 := by
  have heffect := effect_step cache call
  refine ⟨heffect.limits.2.trans h.1, fun key entry hentry => ?_⟩
  rw [lastPut_concat]
  rcases heffect.of_get? hentry with ⟨entry', hentry', hsame, hput⟩ | hput
  · obtain ⟨call', hcall', hby⟩ := h.2 key entry' hentry'
    exact ⟨call', by rw [if_neg (by simpa [event] using hput), hcall'], hby.same hsame⟩
  · rw [h.1] at hput
    obtain ⟨hkey, ttl, rfl, httl⟩ := hput
    exact ⟨_, if_pos (by simp [isPutOf]), hkey, ttl, rfl, httl⟩

theorem fromLastPut_run (maxSize : ℤ) (defaultTtl : ℚ) (calls : List (Call α)) :
    FromLastPut defaultTtl (events step (fresh maxSize defaultTtl) calls)
      (final step (fresh maxSize defaultTtl) calls) := by
  refine history_induct ⟨rfl, fun key entry hentry => ?_⟩ fun tr cache call _ h => h.step call
  simp [fresh] at hentry

/-- A hit gives an entry that is in the store and has not expired. -/
theorem exists_entry_of_hit {calls : List (Call α)} {tr₁ tr₂ : List (CacheEvent α)}
    {e : CacheEvent α} {key : String} {now : ℚ} {result : Option α}
    (htr : events step (fresh maxSize defaultTtl) calls = tr₁ ++ e :: tr₂)
    (hinput : e.input = .get key now) (houtput : e.output = .found (result, .hit)) :
    ∃ calls₁ entry, tr₁ = events step (fresh maxSize defaultTtl) calls₁
      ∧ (final step (fresh maxSize defaultTtl) calls₁).store.get? key = some entry
      ∧ result = some entry.value ∧ entry.isExpired now = false := by
  obtain ⟨calls₁, call, calls₂, -, rfl, rfl⟩ := exists_of_events_eq_append_cons htr
  obtain rfl : call = .get key now := hinput
  have heffect := effect_step (final step (fresh maxSize defaultTtl) calls₁) (.get key now)
  rw [show (step (final step (fresh maxSize defaultTtl) calls₁) (.get key now)).1
    = .found (result, .hit) from houtput] at heffect
  obtain ⟨entry, hentry⟩ := heffect.of_hit
  exact ⟨calls₁, entry, rfl, hentry⟩

/-- The entry is the one that the last `put` of the key made. -/
theorem exists_lastPut_of_hit {calls : List (Call α)} {tr₁ tr₂ : List (CacheEvent α)}
    {e : CacheEvent α} {key : String} {now : ℚ} {result : Option α}
    (htr : events step (fresh maxSize defaultTtl) calls = tr₁ ++ e :: tr₂)
    (hinput : e.input = .get key now) (houtput : e.output = .found (result, .hit)) :
    ∃ value ttl t, result = some value ∧ lastPut key tr₁ = some (.put key value ttl t)
      ∧ now - t ≤ effectiveTtl defaultTtl ttl := by
  obtain ⟨calls₁, entry, rfl, hentry, rfl, hexpired⟩ := exists_entry_of_hit htr hinput houtput
  obtain ⟨_, hput, hkey, ttl, rfl, httl⟩ :=
    (fromLastPut_run maxSize defaultTtl calls₁).2 key entry hentry
  refine ⟨_, ttl, _, rfl, hput, ?_⟩
  rw [← httl, ← not_lt]
  simpa [CacheEntry.isExpired] using hexpired

/-! ## The order of the entries -/

theorem Effect.size (h : Effect cache call reply cache') (hsize : 1 ≤ cache.maxSize)
    (hle : (cache.size : ℤ) ≤ cache.maxSize) : (cache'.size : ℤ) ≤ cache.maxSize := by
  have hfilter : ∀ p : String → Bool,
      (cache.store.keys.filter p).length ≤ cache.store.keys.length :=
    fun p => List.length_filter_le p _
  rw [size_eq] at hle ⊢
  rcases h with _ | _ | _ | _ | _ | _ | _ | _
  case miss => exact hle
  case expired k now entry hentry hexpired =>
    simp only [counted, Dict.keys_erase]
    have := hfilter (· ≠ k)
    omega
  case hit k now entry hentry hexpired =>
    have hk : k ∈ cache.store.keys := by
      rw [Dict.mem_keys_iff, hentry]
      rfl
    have hlt : (cache.store.keys.filter (· ≠ k)).length < cache.store.keys.length :=
      List.length_filter_lt_length_iff_exists.mpr ⟨k, hk, by simp⟩
    simp only [counted, Dict.keys_setLast, List.length_append, List.length_singleton]
    omega
  case put k value ttl now hlt =>
    rw [size_eq] at hlt
    rw [Dict.keys_set, if_neg key_notMem_madeRoom, List.length_append, List.length_singleton]
    push_cast
    omega
  case full hfull => exact absurd hfull (not_le.mpr (size_madeRoom_lt hsize))
  case invalidate k =>
    rw [Dict.keys_erase]
    have := hfilter (· ≠ k)
    omega
  case invalidateByPrefix start =>
    rw [Dict.keys_foldl_erase]
    have := hfilter fun k => k ∉ cache.store.keys.filter fun k => k.startsWith start
    omega
  case clear =>
    simp [Dict.keys]
    omega

/-- The counts add up. -/
def Balanced (stats : CacheStats) : Prop :=
  stats.totalRequests = stats.hits + stats.misses + stats.expirations

theorem Effect.balanced (h : Effect cache call reply cache') (hstats : Balanced cache.stats) :
    Balanced cache'.stats := by
  unfold Balanced at hstats ⊢
  rcases h with _ | _ | _ | _ | _ | _ | _ | _
  case put => exact hstats
  case full => exact hstats
  case invalidate => exact hstats
  case invalidateByPrefix => exact hstats
  case clear => exact hstats
  all_goals
    simp only [counted]
    omega

/-- What a cache of this size keeps along a run. -/
structure Ordered (maxSize : ℤ) (tr : List (CacheEvent α)) (cache : LRUCache α) : Prop where
  maxSize_eq : cache.maxSize = maxSize
  size : (cache.size : ℤ) ≤ maxSize
  behind : ∀ key tr₁ e tr₂, tr = tr₁ ++ e :: tr₂ → touched e = some key →
    (∀ e' ∈ tr₂, touched e' ≠ some key ∧ ¬ Removes key e') →
    ((touchedKeys tr₂).card : ℤ) < maxSize →
    Behind cache.store.keys key (· ∈ touchedKeys tr₂)
  stats : Balanced cache.stats

theorem Ordered.step (h : Ordered maxSize tr cache) (hsize : 1 ≤ maxSize) (call : Call α) :
    Ordered maxSize (tr ++ [event step cache call]) (step cache call).2 := by
  have heffect := effect_step cache call
  rw [← h.maxSize_eq] at hsize
  refine ⟨heffect.limits.1.trans h.maxSize_eq, ?_, ?_, heffect.balanced h.stats⟩
  · rw [← h.maxSize_eq]
    exact heffect.size hsize (h.maxSize_eq ▸ h.size)
  · intro key tr₁ e tr₂ htr htouched hquiet hcard
    rcases concat_eq_append_cons.mp htr with ⟨-, rfl, rfl⟩ | ⟨tr₂, rfl, htr'⟩
    · exact heffect.last hsize htouched _
    · rw [List.forall_mem_append, List.forall_mem_singleton] at hquiet
      have hsub : touchedKeys tr₂ ⊆ touchedKeys (tr₂ ++ [event LRUCache.step cache call]) :=
        fun k hk => mem_touchedKeys_concat.mpr (.inl hk)
      have hcard' := Finset.card_le_card hsub
      have hbehind := h.behind key tr₁ e tr₂ htr' htouched hquiet.1 (by omega)
      refine (heffect.behind hsize hbehind hquiet.2.1 hquiet.2.2 fun k hk => ?_).mono
        fun k hk => mem_touchedKeys_concat.mpr hk
      rw [h.maxSize_eq]
      refine lt_of_le_of_lt ?_ hcard
      exact_mod_cast Finset.card_le_card (Finset.insert_subset
        (mem_touchedKeys_concat.mpr (.inr hk)) hsub)

theorem ordered_run (hsize : 1 ≤ maxSize) (defaultTtl : ℚ) (calls : List (Call α)) :
    Ordered maxSize (events step (fresh maxSize defaultTtl) calls)
      (final step (fresh maxSize defaultTtl) calls) := by
  refine history_induct ⟨rfl, ?_, ?_, rfl⟩ fun tr cache call _ h => h.step hsize call
  · simp [fresh, size]
    omega
  · intro key tr₁ e tr₂ htr
    simp at htr

/-- A cache for at least one entry keeps what it promises along every run, at any times. -/
theorem correct_run (maxSize : ℤ) (hsize : 1 ≤ maxSize) (defaultTtl : ℚ) (calls : List (Call α)) :
    Correct maxSize (events step (fresh maxSize defaultTtl) calls)
      (final step (fresh maxSize defaultTtl) calls) := by
  have hordered := ordered_run hsize defaultTtl calls
  have hlast := fromLastPut_run maxSize defaultTtl calls
  refine ⟨hordered.size, Dict.nodup _, ?_, ?_, ?_, hordered.stats⟩
  · intro key entry hentry
    obtain ⟨call, -, hput⟩ := hlast.2 key entry hentry
    exact hput.1
  · intro tr₁ e tr₂ key now result htr hinput houtput
    obtain ⟨value, ttl, t, hvalue, hput, -⟩ := exists_lastPut_of_hit htr hinput houtput
    exact ⟨value, ttl, t, hvalue, hput⟩
  · rintro key ⟨tr₁, e, tr₂, htr, htouched, hquiet, hcard⟩
    obtain ⟨front, back, hkeys, -⟩ := hordered.behind key tr₁ e tr₂ htr htouched hquiet hcard
    rw [hkeys]
    simp

/-- Two keys in a cache for one. -/
theorem correct_run_one : Correct 1
    (events step (fresh 1 300) [.put "a" "x" none 0, .put "b" "y" none 1, .get "b" 2, .get "a" 3])
    (final step (fresh 1 300) [.put "a" "x" none 0, .put "b" "y" none 1, .get "b" 2, .get "a" 3]) :=
  correct_run 1 (by decide) 300 [.put "a" "x" none 0, .put "b" "y" none 1, .get "b" 2, .get "a" 3]

/-! ## How long an entry is served -/

/-- What the clock shows in a call. -/
def Call.readings : Call α → List ℚ
  | .get _ now => [now]
  | .put _ _ _ now => [now]
  | _ => []

/-- With a clock that never goes back no entry that is put with this `ttl` is hit after it. -/
def HonoursTtl (maxSize : ℤ) (defaultTtl : ℚ) (ttl : Option ℚ) : Prop :=
  ∀ (α : Type) (calls : List (Call α)), Clocked Call.readings calls →
    ∀ tr₁ e tr₂ key now result value t,
      events step (fresh maxSize defaultTtl) calls = tr₁ ++ e :: tr₂ → e.input = .get key now →
      e.output = .found (result, .hit) → lastPut key tr₁ = some (.put key value ttl t) →
      now - t ≤ ttl.getD defaultTtl

theorem Effect.empty (h : Effect cache call reply cache') (hsize : cache.maxSize ≤ 0)
    (hkeys : cache.store.keys = []) : cache'.store.keys = [] := by
  have hroom : ∀ key, (cache.madeRoom key).store.keys = [] := by
    intro key
    rw [keys_madeRoom, hkeys]
    rfl
  rcases h with _ | _ | ⟨hentry, -⟩ | hlt | _ | _ | _ | _
  case miss => exact hkeys
  case expired => simp only [counted, Dict.keys_erase, hkeys, List.filter_nil]
  case hit k now entry =>
    have hk : k ∈ cache.store.keys := by
      rw [Dict.mem_keys_iff, hentry]
      rfl
    rw [hkeys] at hk
    cases hk
  case put k value ttl now =>
    rw [size_eq, hroom] at hlt
    exact absurd hsize (not_le.mpr hlt)
  case full => exact hroom _
  case invalidate => simp only [Dict.keys_erase, hkeys, List.filter_nil]
  case invalidateByPrefix => simp only [Dict.keys_foldl_erase, hkeys, List.filter_nil]
  case clear => rfl

/-- A cache without room never has anything. -/
theorem keys_eq_nil (hsize : maxSize ≤ 0) (defaultTtl : ℚ) (calls : List (Call α)) :
    (final step (fresh maxSize defaultTtl) calls).store.keys = [] := by
  have hrun : (final step (fresh maxSize defaultTtl) calls).maxSize = maxSize
      ∧ (final step (fresh maxSize defaultTtl) calls).store.keys = [] := by
    refine final_induct
      (P := fun cache : LRUCache α => cache.maxSize = maxSize ∧ cache.store.keys = [])
      ⟨rfl, rfl⟩ fun cache call _ h => ?_
    have heffect := effect_step cache call
    exact ⟨heffect.limits.1.trans h.1, heffect.empty (h.1 ▸ hsize) h.2⟩
  exact hrun.2

theorem not_hit_of_full {calls : List (Call α)} {tr₁ tr₂ : List (CacheEvent α)} {e : CacheEvent α}
    {key : String} {now : ℚ} {result : Option α} (hsize : maxSize ≤ 0)
    (htr : events step (fresh maxSize defaultTtl) calls = tr₁ ++ e :: tr₂)
    (hinput : e.input = .get key now) : e.output ≠ .found (result, .hit) := by
  intro houtput
  obtain ⟨calls₁, entry, -, hentry, -⟩ := exists_entry_of_hit htr hinput houtput
  have hkey : key ∈ (final step (fresh maxSize defaultTtl) calls₁).store.keys := by
    rw [Dict.mem_keys_iff, hentry]
    rfl
  rw [keys_eq_nil hsize] at hkey
  cases hkey

/-- The time to live that counts is the one that was asked for, unless that was zero. -/
theorem effectiveTtl_eq {ttl : Option ℚ} (h : ttl ≠ some 0) :
    effectiveTtl defaultTtl ttl = ttl.getD defaultTtl := by
  unfold effectiveTtl
  rcases ttl with _ | x
  · simp
  · have hx : x ≠ 0 := fun hx => h (by rw [hx])
    simp [hx]

/-- An entry that should live for no time is hit as late as the default allows. -/
theorem hit_of_zero_ttl (hsize : 1 ≤ maxSize) (defaultTtl : ℚ) :
    (step (step (fresh maxSize defaultTtl) (.put "k" () (some 0) 0)).2 (.get "k" defaultTtl)).1
      = .found (some (), .hit) := by
  have hroom : (((fresh maxSize defaultTtl : LRUCache Unit).madeRoom "k").size : ℤ) < maxSize :=
    size_madeRoom_lt hsize
  simp only [step, put_of_room hroom, get, Dict.get?_set_self]
  rw [if_neg]
  simp [CacheEntry.isExpired, newEntry, fresh]

/-- Every entry is served only while it should be, unless it should not be served at all and the
default says otherwise. -/
theorem honoursTtl_iff (maxSize : ℤ) (defaultTtl : ℚ) (ttl : Option ℚ) :
    HonoursTtl maxSize defaultTtl ttl ↔ maxSize ≤ 0 ∨ ttl ≠ some 0 ∨ defaultTtl ≤ 0 := by
  constructor
  · intro h
    by_contra hnot
    simp only [not_or, not_le, ne_eq, not_not] at hnot
    obtain ⟨hsize, rfl, hdefault⟩ := hnot
    have hlate := h Unit [.put "k" () (some 0) 0, .get "k" defaultTtl]
      (by simpa [Clocked, Call.readings] using hdefault.le)
      [event step (fresh maxSize defaultTtl) (.put "k" () (some 0) 0)] _ [] "k" defaultTtl
      (some ()) () 0 rfl rfl (hit_of_zero_ttl hsize defaultTtl) rfl
    simp only [sub_zero, Option.getD_some] at hlate
    exact absurd hdefault (not_lt.mpr hlate)
  · intro h α calls _ tr₁ e tr₂ key now result value t htr hinput houtput hlast
    rcases h with hsize | httl | hdefault
    · exact absurd houtput (not_hit_of_full hsize htr hinput)
    all_goals
      obtain ⟨value', ttl', t', -, hlast', hwithin⟩ := exists_lastPut_of_hit htr hinput houtput
      rw [hlast] at hlast'
      cases hlast'
    · rwa [← effectiveTtl_eq httl]
    · by_cases httl : ttl = some 0
      · subst httl
        simp only [effectiveTtl, Option.getD_some, if_true] at hwithin
        exact hwithin.trans hdefault
      · rwa [← effectiveTtl_eq httl]

/-- A time to live of zero. -/
theorem not_honoursTtl_zero : ¬ ∀ maxSize defaultTtl ttl, (∀ t, ttl = some t → 0 ≤ t) →
    HonoursTtl maxSize defaultTtl ttl := by
  intro h
  have hlate := h 1 300 (some 0) (by simp) Unit [.put "k" () (some 0) 0, .get "k" 300]
    (by simp [Clocked, Call.readings])
    [event step (fresh 1 300) (.put "k" () (some 0) 0)] _ [] "k" 300
    (some ()) () 0 rfl rfl (hit_of_zero_ttl (by decide) 300) rfl
  norm_num at hlate

end Runs

end AgentLearning.LRUCache
