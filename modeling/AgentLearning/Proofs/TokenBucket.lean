import Mathlib.Tactic.Linarith
import AgentLearning.Lib.Trace
import AgentLearning.RateLimiter

/-!
# The token bucket bound

The potential of a caller's bucket: what was granted since a time `s`, and what is still in the
bucket, is at most its capacity and what has flown in since `s`. Filling up keeps it, as the flow
only counts up to the capacity, and a grant moves tokens from the bucket to the caller.
-/

namespace AgentLearning.Gateway

open Trace

inductive RateCall
  | check (callerId : String) (tokens : ℤ) (clock : RefillClock)
  | acquire (callerId : String) (tokens : ℤ) (clock : RefillClock)

namespace RateCall

def callerId : RateCall → String
  | check callerId _ _ => callerId
  | acquire callerId _ _ => callerId

def tokens : RateCall → ℤ
  | check _ tokens _ => tokens
  | acquire _ tokens _ => tokens

def clock : RateCall → RefillClock
  | check _ _ clock => clock
  | acquire _ _ clock => clock

abbrev created (call : RateCall) : ℚ := call.clock.created

abbrev now (call : RateCall) : ℚ := call.clock.now

def readings (call : RateCall) : List ℚ := [call.created, call.now]

end RateCall

namespace RateLimiter

def exec (limiter : RateLimiter) : RateCall → Except PyError RateLimitResult × RateLimiter
  | .check callerId tokens clock => limiter.check callerId tokens clock
  | .acquire callerId tokens clock => limiter.acquire callerId tokens clock

abbrev RateEvent := Trace.Event RateLimiter RateCall (Except PyError RateLimitResult)

/-- The tokens that an `acquire` gave to the caller. -/
def granted (callerId : String) (e : RateEvent) : ℚ :=
  match e.input, e.output with
  | .acquire caller tokens _, .ok result =>
    if caller = callerId ∧ result.allowed then tokens else 0
  | _, _ => 0

/-- The tokens that were granted to the caller at times with `p`. -/
def grantedWhen (p : ℚ → Bool) (callerId : String) (tr : List RateEvent) : ℚ :=
  ((tr.filter fun e => p e.input.now).map (granted callerId)).sum

/-- The tokens that were granted to the caller from `s` to `t`. -/
def grantedIn (s t : ℚ) : String → List RateEvent → ℚ := grantedWhen fun x => s ≤ x ∧ x ≤ t

/-- The tokens that were granted to the caller from `s` on. -/
def grantedSince (s : ℚ) : String → List RateEvent → ℚ := grantedWhen fun x => s ≤ x

/-! ## What a call does -/

section Exec

variable (limiter : RateLimiter) (call : RateCall) (callerId : String)

variable {tokens : ℤ} {clock : RefillClock}

theorem acquire_of_le (h : (tokens : ℚ) ≤ (limiter.refilled callerId clock).tokens) :
    limiter.acquire callerId tokens clock = (.ok
        { allowed := true
          remainingTokens := intOfFloat ((limiter.refilled callerId clock).tokens - tokens) },
      limiter.store callerId { limiter.refilled callerId clock with
        tokens := (limiter.refilled callerId clock).tokens - tokens
        consecutiveRejections := 0 }) :=
  if_pos h

theorem acquire_of_lt (h : (limiter.refilled callerId clock).tokens < tokens) :
    limiter.acquire callerId tokens clock
      = ((limiter.backoff ((limiter.refilled callerId clock).consecutiveRejections + 1)).map
          fun backoff =>
            { allowed := false
              retryAfter := roundHundredths backoff
              remainingTokens := intOfFloat (limiter.refilled callerId clock).tokens },
        limiter.store callerId { limiter.refilled callerId clock with
          consecutiveRejections :=
            (limiter.refilled callerId clock).consecutiveRejections + 1 }) :=
  if_neg (not_le.mpr h)

theorem exec_config : (exec limiter call).2.config = limiter.config := by
  cases call with
  | check callerId tokens clock => rfl
  | acquire callerId tokens clock =>
    simp only [exec, acquire]
    split_ifs <;> rfl

theorem get?_exec_ne (h : call.callerId ≠ callerId) :
    (exec limiter call).2.buckets.get? callerId = limiter.buckets.get? callerId := by
  cases call with
  | check caller tokens clock => exact Dict.get?_set_ne _ _ h
  | acquire caller tokens clock =>
    simp only [exec, acquire]
    split_ifs <;> exact Dict.get?_set_ne _ _ h

theorem granted_ne (h : call.callerId ≠ callerId) :
    granted callerId (event exec limiter call) = 0 := by
  cases call with
  | check caller tokens clock => rfl
  | acquire caller tokens clock =>
    simp only [granted, event]
    cases (exec limiter (.acquire caller tokens clock)).1 with
    | error e => rfl
    | ok result => exact if_neg fun hand => h hand.1

/-- The bucket after the call is the one that was filled up, less what was granted. -/
theorem get?_exec (hamount : 0 ≤ call.tokens) :
    let bucket := limiter.refilled call.callerId call.clock
    let grant := granted call.callerId (event exec limiter call)
    0 ≤ grant ∧ (grant = 0 ∨ grant ≤ bucket.tokens)
      ∧ ∃ b, (exec limiter call).2.buckets.get? call.callerId = some b
        ∧ b.tokens = bucket.tokens - grant ∧ b.maxTokens = bucket.maxTokens
        ∧ b.lastRefill = call.now := by
  intro bucket grant
  cases call with
  | check callerId tokens clock =>
    refine ⟨le_rfl, .inl rfl, bucket, Dict.get?_set_self .., ?_, rfl, rfl⟩
    exact (sub_zero _).symm
  | acquire callerId tokens clock =>
    by_cases h : (tokens : ℚ) ≤ (limiter.refilled callerId clock).tokens
    · have hexec := acquire_of_le limiter callerId h
      have hgrant : grant = tokens := by
        simp [grant, granted, exec, hexec, RateCall.callerId]
      rw [hgrant, exec, hexec]
      exact ⟨Int.cast_nonneg hamount, .inr h, _, Dict.get?_set_self .., rfl, rfl, rfl⟩
    · have hexec := acquire_of_lt limiter callerId (not_le.mp h)
      have hgrant : grant = 0 := by
        simp only [grant, granted, event_input, event_output, exec, hexec]
        cases limiter.backoff ((limiter.refilled callerId clock).consecutiveRejections + 1) with
        | error e => rfl
        | ok backoff => exact if_neg fun hand => Bool.false_ne_true hand.2
      rw [hgrant, exec, hexec]
      exact ⟨le_rfl, .inl rfl, _, Dict.get?_set_self .., (sub_zero _).symm, rfl, rfl⟩

end Exec

/-! ## The potential -/

theorem grantedWhen_nil (p : ℚ → Bool) (callerId : String) : grantedWhen p callerId [] = 0 := rfl

theorem grantedWhen_concat (p : ℚ → Bool) (callerId : String) (tr : List RateEvent)
    (e : RateEvent) : grantedWhen p callerId (tr ++ [e])
      = grantedWhen p callerId tr + if p e.input.now then granted callerId e else 0 := by
  unfold grantedWhen
  rw [List.filter_append, List.map_append, List.sum_append]
  cases h : p e.input.now <;> simp [h]

theorem grantedWhen_mono {p q : ℚ → Bool} (hpq : ∀ x, p x → q x) {callerId : String}
    {tr : List RateEvent} (h : ∀ e ∈ tr, 0 ≤ granted callerId e) :
    grantedWhen p callerId tr ≤ grantedWhen q callerId tr := by
  induction tr using List.reverseRecOn with
  | nil => exact le_rfl
  | append_singleton tr e ih =>
    have ih := ih fun e he => h e (List.mem_append_left _ he)
    have he := h e (by simp)
    rw [grantedWhen_concat, grantedWhen_concat]
    have := hpq e.input.now
    split_ifs with hp hq
    · linarith
    · exact absurd (this hp) hq
    · linarith
    · linarith

/-- Nothing was granted at a time with `p`. -/
theorem grantedWhen_eq_zero {p : ℚ → Bool} {callerId : String} {tr : List RateEvent}
    (h : ∀ e ∈ tr, p e.input.now → granted callerId e = 0) : grantedWhen p callerId tr = 0 := by
  refine List.sum_eq_zero fun x hx => ?_
  obtain ⟨e, he, rfl⟩ := List.mem_map.mp hx
  rw [List.mem_filter] at he
  exact h e he.1 he.2

/-- What is known of a caller's bucket. -/
structure BucketLaw (config : RateLimitConfig) (callerId : String) (tr : List RateEvent)
    (limiter : RateLimiter) : Prop where
  config_eq : limiter.config = config
  nonneg : ∀ e ∈ tr, 0 ≤ granted callerId e
  fresh : limiter.buckets.get? callerId = none → ∀ e ∈ tr, granted callerId e = 0
  capacity : ∀ b, limiter.buckets.get? callerId = some b → b.maxTokens = config.maxTokens
    ∧ 0 ≤ b.tokens ∧ b.tokens ≤ config.maxTokens
  past : ∀ b, limiter.buckets.get? callerId = some b → ∃ e ∈ tr, b.lastRefill = e.input.now
  late : ∀ b, limiter.buckets.get? callerId = some b →
    ∀ e ∈ tr, b.lastRefill < e.input.now → granted callerId e = 0
  potential : ∀ b, limiter.buckets.get? callerId = some b → ∀ s, s ≤ b.lastRefill →
    grantedSince s callerId tr + b.tokens
      ≤ config.maxTokens + config.tokensPerSecond * (b.lastRefill - s)
  window : ∀ s t, s ≤ t →
    grantedIn s t callerId tr ≤ config.maxTokens + config.tokensPerSecond * (t - s)

section Law

variable {config : RateLimitConfig} {callerId : String} {tr : List RateEvent}
  {limiter : RateLimiter} {call : RateCall}

theorem bucketLaw_init (hrate : 0 ≤ config.tokensPerSecond) (hmax : 0 ≤ config.maxTokens) :
    BucketLaw config callerId [] { config } where
  config_eq := rfl
  nonneg := by simp
  fresh := by simp
  capacity := by simp
  past := by simp
  late := by simp
  potential := by simp
  window s t hst := by
    have := mul_nonneg hrate (sub_nonneg.mpr hst)
    have := Int.cast_nonneg (R := ℚ) hmax
    rw [grantedIn, grantedWhen_nil]
    linarith

/-- The bucket that a call finds has the potential of the moment. -/
theorem BucketLaw.refilled (h : BucketLaw config callerId tr limiter)
    (hrate : 0 ≤ config.tokensPerSecond) (hmax : 0 ≤ config.maxTokens) {clock : RefillClock}
    (hclock : clock.created ≤ clock.now)
    (hpast : ∀ e ∈ tr, e.input.now ≤ clock.created) :
    (limiter.refilled callerId clock).maxTokens = config.maxTokens
      ∧ 0 ≤ (limiter.refilled callerId clock).tokens
      ∧ (limiter.refilled callerId clock).tokens ≤ config.maxTokens
      ∧ ∀ s, s ≤ clock.now → grantedSince s callerId tr + (limiter.refilled callerId clock).tokens
        ≤ config.maxTokens + config.tokensPerSecond * (clock.now - s) := by
  have hmax' := Int.cast_nonneg (R := ℚ) hmax
  have hflow {a b : ℚ} (hab : a ≤ b) : 0 ≤ config.tokensPerSecond * (b - a) :=
    mul_nonneg hrate (sub_nonneg.mpr hab)
  cases hget : limiter.buckets.get? callerId with
  | none =>
    have htokens : (limiter.refilled callerId clock).tokens
        = min (config.maxTokens + (clock.now - clock.created) * config.tokensPerSecond)
          config.maxTokens := by
      simp only [RateLimiter.refilled, refill, getBucket, hget, h.config_eq, Option.getD_none]
    have hflow' := hflow hclock
    rw [min_eq_right (by linarith)] at htokens
    rw [htokens]
    refine ⟨?_, hmax', le_rfl, fun s hs => ?_⟩
    · simp only [RateLimiter.refilled, refill, getBucket, hget, h.config_eq, Option.getD_none]
    · have hzero : grantedSince s callerId tr = 0 :=
        grantedWhen_eq_zero fun e he _ => h.fresh hget e he
      have := hflow hs
      linarith
  | some b =>
    obtain ⟨hcap, hnonneg, hle⟩ := h.capacity b hget
    obtain ⟨e, he, hlast⟩ := h.past b hget
    have hlast' : b.lastRefill ≤ clock.now := hlast ▸ (hpast e he).trans hclock
    have htokens : (limiter.refilled callerId clock).tokens
        = min (b.tokens + (clock.now - b.lastRefill) * config.tokensPerSecond)
          config.maxTokens := by
      simp only [RateLimiter.refilled, refill, getBucket, hget, h.config_eq, Option.getD_some, hcap]
    have hflow' := hflow hlast'
    rw [htokens]
    refine ⟨?_, le_min (by linarith) hmax', min_le_right _ _, fun s hs => ?_⟩
    · simp only [RateLimiter.refilled, refill, getBucket, hget, Option.getD_some, hcap]
    · by_cases hsince : s ≤ b.lastRefill
      · have hpot := h.potential b hget s hsince
        have := min_le_left (b.tokens + (clock.now - b.lastRefill) * config.tokensPerSecond)
          (config.maxTokens : ℚ)
        linarith
      · have hzero : grantedSince s callerId tr = 0 :=
          grantedWhen_eq_zero fun e he hs =>
            h.late b hget e he ((not_le.mp hsince).trans_le (of_decide_eq_true hs))
        have := min_le_right (b.tokens + (clock.now - b.lastRefill) * config.tokensPerSecond)
          (config.maxTokens : ℚ)
        have := hflow hs
        linarith

theorem BucketLaw.own (h : BucketLaw config call.callerId tr limiter)
    (hrate : 0 ≤ config.tokensPerSecond) (hmax : 0 ≤ config.maxTokens)
    (hclock : call.created ≤ call.now) (hpast : ∀ e ∈ tr, e.input.now ≤ call.created)
    (hamount : 0 ≤ call.tokens) :
    BucketLaw config call.callerId (tr ++ [event exec limiter call]) (exec limiter call).2 := by
  obtain ⟨hmaxTokens, hnonneg, hle, hpot⟩ := h.refilled hrate hmax hclock hpast
  obtain ⟨hgrant, hgrant', b, hget, htokens, hcap, hlast⟩ := get?_exec limiter call hamount
  have hnn : ∀ e ∈ tr ++ [event exec limiter call], 0 ≤ granted call.callerId e := by
    simpa [or_imp, forall_and] using And.intro h.nonneg hgrant
  have htokens' : 0 ≤ b.tokens := by
    rcases hgrant' with h0 | hle' <;> linarith
  -- The potential after the grant, which bounds every window that ends at the grant or later.
  have hpot' (s : ℚ) (hs : s ≤ call.now) :
      grantedSince s call.callerId (tr ++ [event exec limiter call]) + b.tokens
        ≤ config.maxTokens + config.tokensPerSecond * (call.now - s) := by
    have := hpot s hs
    rw [grantedSince, grantedWhen_concat, event_input, if_pos (decide_eq_true hs)]
    rw [grantedSince] at this
    linarith
  have hsome {b' : Bucket} (hb' : (exec limiter call).2.buckets.get? call.callerId = some b') :
      b' = b := Option.some.inj (hb'.symm.trans hget)
  constructor
  · exact (exec_config limiter call).trans h.config_eq
  · exact hnn
  · exact fun hnone => by rw [hget] at hnone; cases hnone
  · intro b' hb'
    rw [hsome hb']
    exact ⟨hcap.trans hmaxTokens, htokens', by linarith⟩
  · intro b' hb'
    exact ⟨_, List.mem_append_right _ (List.mem_singleton_self _), hsome hb' ▸ hlast⟩
  · intro b' hb' e he hlt
    rw [hsome hb', hlast] at hlt
    rcases List.mem_append.mp he with he | he
    · exact absurd ((hpast e he).trans hclock) (not_le.mpr hlt)
    · rw [List.mem_singleton.mp he] at hlt
      exact absurd hlt (lt_irrefl _)
  · intro b' hb' s hs
    rw [hsome hb', hlast] at hs ⊢
    exact hpot' s hs
  · intro s t hst
    rw [grantedIn, grantedWhen_concat, event_input]
    split_ifs with hin
    · obtain ⟨hs, ht⟩ := of_decide_eq_true hin
      have hmono : grantedIn s t call.callerId (tr ++ [event exec limiter call])
          ≤ grantedSince s call.callerId (tr ++ [event exec limiter call]) :=
        grantedWhen_mono (fun x hx => decide_eq_true (of_decide_eq_true hx).1) hnn
      rw [grantedIn, grantedWhen_concat, event_input, if_pos hin] at hmono
      have := hpot' s hs
      have := mul_le_mul_of_nonneg_left (sub_le_sub_right ht s) hrate
      linarith
    · rw [add_zero]
      exact h.window s t hst

theorem BucketLaw.other (h : BucketLaw config callerId tr limiter)
    (hne : call.callerId ≠ callerId) :
    BucketLaw config callerId (tr ++ [event exec limiter call]) (exec limiter call).2 := by
  have hzero := granted_ne limiter call callerId hne
  have hget := get?_exec_ne limiter call callerId hne
  have hconcat (p : ℚ → Bool) : grantedWhen p callerId (tr ++ [event exec limiter call])
      = grantedWhen p callerId tr := by
    rw [grantedWhen_concat, hzero, ite_self, add_zero]
  constructor
  · exact (exec_config limiter call).trans h.config_eq
  · simpa [or_imp, forall_and, hzero] using h.nonneg
  · rw [hget]
    simpa [or_imp, forall_and, hzero] using h.fresh
  · rw [hget]
    exact h.capacity
  · rw [hget]
    intro b hb
    obtain ⟨e, he, hlast⟩ := h.past b hb
    exact ⟨e, List.mem_append_left _ he, hlast⟩
  · rw [hget]
    intro b hb e he hlt
    rcases List.mem_append.mp he with he | he
    · exact h.late b hb e he hlt
    · rw [List.mem_singleton.mp he, hzero]
  · rw [hget]
    intro b hb s hs
    rw [grantedSince, hconcat]
    exact h.potential b hb s hs
  · intro s t hst
    rw [grantedIn, hconcat]
    exact h.window s t hst

end Law

/-- Two limiters that agree on the bucket of the caller answer alike and go on agreeing. -/
theorem exec_congr {limiter limiter' : RateLimiter} (call : RateCall)
    (hconfig : limiter.config = limiter'.config)
    (hbucket : limiter.buckets.get? call.callerId = limiter'.buckets.get? call.callerId) :
    (exec limiter call).1 = (exec limiter' call).1
      ∧ (exec limiter call).2.buckets.get? call.callerId
        = (exec limiter' call).2.buckets.get? call.callerId := by
  have hrefilled : limiter.refilled call.callerId call.clock
      = limiter'.refilled call.callerId call.clock := by
    simp only [RateLimiter.refilled, refill, getBucket, hconfig, hbucket]
  cases call with
  | check callerId tokens clock =>
    replace hrefilled : limiter.refilled callerId clock = limiter'.refilled callerId clock :=
      hrefilled
    refine ⟨?_, ?_⟩
    · simp only [exec, check, hrefilled, hconfig]
    · show (limiter.buckets.set callerId (limiter.refilled callerId clock)).get? callerId
        = (limiter'.buckets.set callerId (limiter'.refilled callerId clock)).get? callerId
      rw [Dict.get?_set_self, Dict.get?_set_self, hrefilled]
  | acquire callerId tokens clock =>
    replace hrefilled : limiter.refilled callerId clock = limiter'.refilled callerId clock :=
      hrefilled
    have hbackoff (n : ℕ) : limiter.backoff n = limiter'.backoff n := by
      rw [backoff, backoff, hconfig]
    simp only [exec, acquire, hrefilled, hbackoff]
    split_ifs
    · exact ⟨rfl, (Dict.get?_set_self ..).trans (Dict.get?_set_self ..).symm⟩
    · exact ⟨rfl, (Dict.get?_set_self ..).trans (Dict.get?_set_self ..).symm⟩

/-- The calls of other callers leave no trace in what a caller is told. -/
theorem outcomes_isolated (limiter : RateLimiter) (calls : List RateCall) (callerId : String) :
    ((events exec limiter calls).filter fun e => e.input.callerId = callerId).map Trace.Event.output
      = (events exec limiter (calls.filter fun call => call.callerId = callerId)).map
        Trace.Event.output := by
  refine (isolated_run (fun limiter : RateLimiter =>
    (limiter.config, limiter.buckets.get? callerId)) ?_ ?_ calls rfl).1
  · intro limiter call hne
    rw [exec_config, get?_exec_ne limiter call callerId hne]
  · rintro limiter limiter' call rfl hview
    obtain ⟨hconfig, hbucket⟩ := Prod.mk.inj hview
    obtain ⟨hout, hget⟩ := exec_congr call hconfig hbucket
    rw [exec_config, exec_config, hconfig, hget]
    exact ⟨hout, rfl⟩

/-- A caller's tokens stay between none and the capacity, no interval sees more granted to it than
the capacity and what flows in meanwhile, and other callers do not change what it is told. -/
theorem token_bucket_bound (config : RateLimitConfig) (hrate : 0 ≤ config.tokensPerSecond)
    (hmax : 0 ≤ config.maxTokens) (calls : List RateCall)
    (hclock : Clocked RateCall.readings calls)
    (hamount : ∀ call ∈ calls, 0 ≤ call.tokens) (callerId : String) :
    (∀ b, (final exec { config } calls).buckets.get? callerId = some b →
      0 ≤ b.tokens ∧ b.tokens ≤ config.maxTokens)
    ∧ (∀ s t, s ≤ t → grantedIn s t callerId (events exec { config } calls)
      ≤ config.maxTokens + config.tokensPerSecond * (t - s))
    ∧ ((events exec { config } calls).filter fun e => e.input.callerId = callerId).map
        Trace.Event.output
      = (events exec { config } (calls.filter fun call => call.callerId = callerId)).map
        Trace.Event.output := by
  have hlaw : BucketLaw config callerId (events exec { config } calls)
      (final exec { config } calls) := by
    refine clocked_induct (bucketLaw_init hrate hmax) hclock
      fun tr limiter call hcall hpast hwithin h => ?_
    by_cases hcaller : call.callerId = callerId
    · subst hcaller
      refine h.own hrate hmax ?_ ?_ (hamount call hcall)
      · simpa [RateCall.readings] using hwithin
      · exact fun e he => hpast e he _ (by simp [RateCall.readings]) _ (by simp [RateCall.readings])
    · exact h.other hcaller
  exact ⟨fun b hb => (hlaw.capacity b hb).2, hlaw.window,
    outcomes_isolated { config } calls callerId⟩

/-- A burst that empties a bucket, and what can be had after a rest. -/
theorem token_bucket_bound_burst :
    let config : RateLimitConfig := { tokensPerSecond := 2, maxTokens := 3 }
    let calls := [.acquire "a" 3 ⟨0, 0⟩, .acquire "b" 1 ⟨0, 0⟩, .acquire "a" 1 ⟨0, 0⟩,
      .acquire "a" 1 ⟨1, 1⟩]
    grantedIn 0 1 "a" (events exec { config } calls) ≤ 3 + 2 * (1 - 0)
      ∧ grantedIn 0 1 "a" (events exec { config } calls) = 4 := by
  intro config calls
  refine ⟨?_, by decide +kernel⟩
  refine (token_bucket_bound config (by decide +kernel) (by decide) calls ?_ ?_ "a").2.1 0 1
    (by decide +kernel)
  · unfold Clocked
    decide +kernel
  · simp [calls, RateCall.tokens]

end RateLimiter

end AgentLearning.Gateway
