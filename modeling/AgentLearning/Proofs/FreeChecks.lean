import Mathlib.Tactic.Linarith
import AgentLearning.Lib.Trace
import AgentLearning.Proofs.TokenBucket

/-!
# Checks are free

A `check` writes: it makes the caller's bucket, if there is none, and fills it up. No later call can
tell. Who fills up a bucket twice has filled it up at the later time, as what flows in is only cut
off at the capacity, and a bucket that is made late is as full as one that was made early. So two
limiters stay alike, from some time on, when one of them is checked.
-/

namespace AgentLearning.Gateway

open Trace

def RateCall.isAcquire : RateCall → Bool
  | check _ _ _ => false
  | acquire _ _ _ => true

namespace RateLimiter

/-! ## Filling up a bucket twice -/

section Refill

variable {limiter limiter' : RateLimiter} {callerId : String}

/-- What flows in may be cut off at the capacity at any time in between. -/
theorem min_add_min {x y z c : ℚ} (hz : 0 ≤ z) :
    min (min (x + y) c + z) c = min (x + (y + z)) c := by
  rcases le_total (x + y) c with h | h
  · rw [min_eq_left h, add_assoc]
  · rw [min_eq_right h, min_eq_right (by linarith), min_eq_right (by linarith)]

theorem refill_refill (hrate : 0 ≤ limiter.config.tokensPerSecond) (bucket : Bucket) {s t : ℚ}
    (hst : s ≤ t) : limiter.refill (limiter.refill bucket s) t = limiter.refill bucket t := by
  have hflow : 0 ≤ (t - s) * limiter.config.tokensPerSecond :=
    mul_nonneg (sub_nonneg.mpr hst) hrate
  simp only [refill, min_add_min hflow]
  rw [← add_mul]
  ring_nf

/-- A bucket that was just made is as full at a later time as one that is made then. -/
theorem refilled_of_none (hrate : 0 ≤ limiter.config.tokensPerSecond)
    (h : limiter.buckets.get? callerId = none) {clock : RefillClock}
    (hclock : clock.created ≤ clock.now) :
    limiter.refilled callerId clock
      = { tokens := limiter.config.maxTokens
          maxTokens := limiter.config.maxTokens
          lastRefill := clock.now } := by
  have hflow : 0 ≤ (clock.now - clock.created) * limiter.config.tokensPerSecond :=
    mul_nonneg (sub_nonneg.mpr hclock) hrate
  simp only [refilled, getBucket, h, Option.getD_none, refill]
  rw [min_eq_right (by linarith)]

theorem refilled_of_some {bucket : Bucket} (h : limiter.buckets.get? callerId = some bucket)
    (clock : RefillClock) :
    limiter.refilled callerId clock = limiter.refill bucket clock.now := by
  rw [refilled, getBucket, h, Option.getD_some]

theorem refilled_store_self (bucket : Bucket) (clock : RefillClock) :
    (limiter.store callerId bucket).refilled callerId clock
      = limiter.refill bucket clock.now :=
  refilled_of_some (Dict.get?_set_self ..) clock

theorem refilled_store_ne {caller : String} (h : callerId ≠ caller) (bucket : Bucket)
    (clock : RefillClock) :
    (limiter.store callerId bucket).refilled caller clock = limiter.refilled caller clock := by
  simp only [refilled, refill, getBucket, store, Dict.get?_set_ne _ _ h]

/-- A caller's bucket, once it was filled up and kept, is later what it would have been. -/
theorem refilled_store_refilled (hrate : 0 ≤ limiter.config.tokensPerSecond)
    {clock clock' : RefillClock} (hclock : clock.created ≤ clock.now)
    (hclock' : clock'.created ≤ clock'.now) (hlater : clock.now ≤ clock'.now) :
    (limiter.store callerId (limiter.refilled callerId clock)).refilled callerId clock'
      = limiter.refilled callerId clock' := by
  rw [refilled_store_self]
  rcases hget : limiter.buckets.get? callerId with _ | bucket
  · have hflow : 0 ≤ (clock'.now - clock.now) * limiter.config.tokensPerSecond :=
      mul_nonneg (sub_nonneg.mpr hlater) hrate
    rw [refilled_of_none hrate hget hclock, refilled_of_none hrate hget hclock', refill]
    simp only
    rw [min_eq_right (by linarith)]
  · rw [refilled_of_some hget, refilled_of_some hget, refill_refill hrate bucket hlater]

end Refill

/-! ## Limiters that are alike from a time on -/

/-- From `t` on, every caller finds the same bucket. -/
structure Alike (t : ℚ) (limiter limiter' : RateLimiter) : Prop where
  config_eq : limiter.config = limiter'.config
  refilled_eq : ∀ (callerId : String) (clock : RefillClock), t ≤ clock.now →
    clock.created ≤ clock.now → limiter.refilled callerId clock = limiter'.refilled callerId clock

section Alike

variable {t : ℚ} {limiter limiter' : RateLimiter}

theorem Alike.refl (t : ℚ) (limiter : RateLimiter) : Alike t limiter limiter :=
  ⟨rfl, fun _ _ _ _ => rfl⟩

/-- Only one of them is checked. -/
theorem Alike.check (h : Alike t limiter limiter')
    (hrate : 0 ≤ limiter.config.tokensPerSecond) (callerId : String) (tokens : ℤ)
    {clock : RefillClock} (ht : t ≤ clock.now) (hclock : clock.created ≤ clock.now) :
    Alike clock.now (limiter.check callerId tokens clock).2 limiter' := by
  refine ⟨h.config_eq, fun caller clock' hlater hclock' => ?_⟩
  rw [← h.refilled_eq caller clock' (ht.trans hlater) hclock']
  by_cases hcaller : callerId = caller
  · subst hcaller
    exact refilled_store_refilled hrate hclock hclock' hlater
  · exact refilled_store_ne hcaller _ clock'

/-- Both of them keep the same bucket. -/
theorem Alike.store (h : Alike t limiter limiter') (callerId : String) (bucket : Bucket) :
    Alike t (limiter.store callerId bucket) (limiter'.store callerId bucket) := by
  refine ⟨h.config_eq, fun caller clock hlater hclock => ?_⟩
  by_cases hcaller : callerId = caller
  · subst hcaller
    rw [refilled_store_self, refilled_store_self, refill, refill, h.config_eq]
  · rw [refilled_store_ne hcaller, refilled_store_ne hcaller]
    exact h.refilled_eq caller clock hlater hclock

/-- Both of them are asked for tokens. -/
theorem Alike.acquire (h : Alike t limiter limiter') (callerId : String) (tokens : ℤ)
    {clock : RefillClock} (ht : t ≤ clock.now) (hclock : clock.created ≤ clock.now) :
    (limiter.acquire callerId tokens clock).1 = (limiter'.acquire callerId tokens clock).1
      ∧ Alike t (limiter.acquire callerId tokens clock).2
        (limiter'.acquire callerId tokens clock).2 := by
  have hbackoff (n : ℕ) : limiter.backoff n = limiter'.backoff n := by
    rw [backoff, backoff, h.config_eq]
  unfold RateLimiter.acquire
  simp only [h.refilled_eq callerId clock ht hclock, hbackoff]
  split_ifs
  · exact ⟨rfl, h.store callerId _⟩
  · exact ⟨rfl, h.store callerId _⟩

end Alike

/-- Alike for the calls that are still to come. -/
def AlikeFor (limiter limiter' : RateLimiter) (calls : List RateCall) : Prop :=
  0 ≤ limiter.config.tokensPerSecond ∧ Clocked RateCall.readings calls
    ∧ ∃ t, Alike t limiter limiter' ∧ ∀ call ∈ calls, t ≤ call.now

section AlikeFor

variable {limiter limiter' : RateLimiter} {call : RateCall} {calls : List RateCall}

theorem le_of_clocked_cons (h : Clocked RateCall.readings (call :: calls)) :
    call.created ≤ call.now ∧ Clocked RateCall.readings calls
      ∧ ∀ later ∈ calls, call.now ≤ later.now := by
  obtain ⟨hwithin, hrest, hlater⟩ := clocked_cons.mp h
  refine ⟨by simpa [RateCall.readings] using hwithin, hrest, fun later hmem => ?_⟩
  exact hlater _ (by simp [RateCall.readings]) later hmem _ (by simp [RateCall.readings])

theorem AlikeFor.skip (h : AlikeFor limiter limiter' (call :: calls))
    (hcall : call.isAcquire = false) : AlikeFor (exec limiter call).2 limiter' calls := by
  obtain ⟨hrate, hclock, t, halike, ht⟩ := h
  obtain ⟨hwithin, hrest, hlater⟩ := le_of_clocked_cons hclock
  refine ⟨by rwa [exec_config], hrest, call.now, ?_, hlater⟩
  rcases call with ⟨callerId, tokens, clock⟩ | _
  · exact halike.check hrate callerId tokens (ht _ (by simp)) hwithin
  · simp [RateCall.isAcquire] at hcall

theorem AlikeFor.keep (h : AlikeFor limiter limiter' (call :: calls))
    (hcall : call.isAcquire = true) : (exec limiter call).1 = (exec limiter' call).1
      ∧ AlikeFor (exec limiter call).2 (exec limiter' call).2 calls := by
  obtain ⟨hrate, hclock, t, halike, ht⟩ := h
  obtain ⟨hwithin, hrest, -⟩ := le_of_clocked_cons hclock
  rcases call with _ | ⟨callerId, tokens, clock⟩
  · simp [RateCall.isAcquire] at hcall
  · obtain ⟨hout, hnext⟩ := halike.acquire callerId tokens (ht _ (by simp)) hwithin
    exact ⟨hout, by rwa [exec_config], hrest, t, hnext,
      fun later hmem => ht later (List.mem_cons_of_mem _ hmem)⟩

end AlikeFor

/-- Whatever checks come in between, every `acquire` is answered as without them. -/
theorem acquires_ignore_checks (config : RateLimitConfig) (hrate : 0 ≤ config.tokensPerSecond)
    (calls : List RateCall) (hclock : Clocked RateCall.readings calls) :
    ((events exec { config } calls).filter fun e => e.input.isAcquire).map Trace.Event.output
      = (events exec { config } (calls.filter RateCall.isAcquire)).map Trace.Event.output := by
  refine filter_run (R := AlikeFor) (fun _ _ _ _ h => h.skip) (fun _ _ _ _ h => h.keep) calls ?_
  rcases calls with _ | ⟨call, calls⟩
  · exact ⟨hrate, hclock, 0, .refl 0 _, by simp⟩
  · obtain ⟨-, -, hlater⟩ := le_of_clocked_cons hclock
    refine ⟨hrate, hclock, call.now, .refl _ _, ?_⟩
    simpa using hlater

/-- A bucket is drained, checked while it fills up, by others and before it is there as well. -/
theorem acquires_ignore_checks_between :
    let config : RateLimitConfig := { tokensPerSecond := 2, maxTokens := 3 }
    let calls := [.check "b" 1 ⟨0, 0⟩, .acquire "a" 3 ⟨1, 1⟩, .check "a" 2 ⟨3 / 2, 3 / 2⟩,
      .acquire "b" 2 ⟨2, 2⟩, .check "a" 1 ⟨2, 2⟩, .acquire "a" 2 ⟨9 / 4, 9 / 4⟩,
      .acquire "a" 1 ⟨9 / 4, 9 / 4⟩]
    ((events exec { config } calls).filter fun e => e.input.isAcquire).map Trace.Event.output
      = (events exec { config } [.acquire "a" 3 ⟨1, 1⟩, .acquire "b" 2 ⟨2, 2⟩,
        .acquire "a" 2 ⟨9 / 4, 9 / 4⟩, .acquire "a" 1 ⟨9 / 4, 9 / 4⟩]).map Trace.Event.output := by
  intro config calls
  refine acquires_ignore_checks config (by decide +kernel) calls ?_
  unfold Clocked
  decide +kernel

end RateLimiter

end AgentLearning.Gateway
