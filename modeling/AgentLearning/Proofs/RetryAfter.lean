import Mathlib.Algebra.Order.Ring.Pow
import Mathlib.Tactic.Linarith
import AgentLearning.Lib.Trace
import AgentLearning.Proofs.FreeChecks

/-!
# How long a refused caller is told to wait

`acquire` tells a caller that it turns away to back off for a time that grows with every refusal in
a row and is cut off at a maximum. The power is taken before it is cut off, so there is an answer as
long as the power is in the range of a float. `check` tells a caller when the tokens will be
there, rounded to hundredths, which is too early when it was rounded down.
-/

namespace AgentLearning.Gateway

open Trace

/-! ## Rounding -/

section Rounding

variable {p q : ℚ}

theorem floor_le_roundHalfEven (q : ℚ) : ⌊q⌋ ≤ roundHalfEven q := by
  unfold roundHalfEven
  simp only
  split_ifs <;> omega

theorem roundHalfEven_le_floor_add_one (q : ℚ) : roundHalfEven q ≤ ⌊q⌋ + 1 := by
  unfold roundHalfEven
  simp only
  split_ifs <;> omega

/-- Less than its floor and a half, or just that and the floor is even. -/
def RoundsDown (q : ℚ) : Prop :=
  q - ⌊q⌋ < 1 / 2 ∨ q - ⌊q⌋ = 1 / 2 ∧ ⌊q⌋ % 2 = 0

instance (q : ℚ) : Decidable (RoundsDown q) := inferInstanceAs (Decidable (_ ∨ _))

theorem roundHalfEven_eq (q : ℚ) :
    roundHalfEven q = if RoundsDown q then ⌊q⌋ else ⌊q⌋ + 1 := by
  unfold roundHalfEven RoundsDown
  rcases lt_trichotomy (q - ⌊q⌋) (1 / 2) with h | h | h
  · simp only [h, if_true, true_or]
  · simp only [h, lt_irrefl, if_false, true_and, false_or]
  · simp only [h, h.not_gt, h.ne', if_true, if_false, false_and, or_self]

theorem RoundsDown.of_le (h : p ≤ q) (hfloor : ⌊p⌋ = ⌊q⌋) (hq : RoundsDown q) : RoundsDown p := by
  unfold RoundsDown at hq ⊢
  rw [hfloor]
  rcases hq with hq | ⟨hq, heven⟩
  · exact .inl (by linarith)
  · rcases h.lt_or_eq with hlt | rfl
    · exact .inl (by linarith)
    · exact .inr ⟨hq, heven⟩

theorem roundHalfEven_mono (h : p ≤ q) : roundHalfEven p ≤ roundHalfEven q := by
  rcases (Int.floor_mono h).lt_or_eq with hlt | heq
  · calc roundHalfEven p ≤ ⌊p⌋ + 1 := roundHalfEven_le_floor_add_one p
      _ ≤ ⌊q⌋ := hlt
      _ ≤ roundHalfEven q := floor_le_roundHalfEven q
  · rw [roundHalfEven_eq, roundHalfEven_eq, heq]
    split_ifs with hp hq hq
    · exact le_rfl
    · omega
    · exact absurd (hq.of_le h heq) hp
    · exact le_rfl

theorem roundHundredths_mono (h : p ≤ q) : roundHundredths p ≤ roundHundredths q := by
  unfold roundHundredths
  have := roundHalfEven_mono (mul_le_mul_of_nonneg_right h (by norm_num : (0 : ℚ) ≤ 100))
  gcongr

end Rounding

/-! ## The capacity -/

namespace RateLimiter

section Capacity

variable {limiter : RateLimiter} {call : RateCall} {callerId : String}

theorem refilled_exec_ne (h : call.callerId ≠ callerId) (clock : RefillClock) :
    (exec limiter call).2.refilled callerId clock = limiter.refilled callerId clock := by
  simp only [refilled, refill, getBucket, exec_config, get?_exec_ne _ _ _ h]

theorem refilled_tokens_le (clock : RefillClock) :
    (limiter.refilled callerId clock).tokens ≤ (limiter.refilled callerId clock).maxTokens :=
  min_le_right _ _

/-- A call keeps the capacity of its bucket. -/
theorem maxTokens_exec (clock : RefillClock) :
    ((exec limiter call).2.refilled call.callerId clock).maxTokens
      = (limiter.refilled call.callerId call.clock).maxTokens := by
  rcases call with ⟨callerId, tokens, clock'⟩ | ⟨callerId, tokens, clock'⟩
  · simp only [exec, check, RateCall.callerId, RateCall.clock]
    rw [refilled_store_self, refill]
  · simp only [exec, RateCall.callerId, RateCall.clock]
    rcases le_or_gt (tokens : ℚ) (limiter.refilled callerId clock').tokens with h | h
    · rw [acquire_of_le limiter callerId h, refilled_store_self, refill]
    · rw [acquire_of_lt limiter callerId h, refilled_store_self, refill]

/-- Every bucket has the capacity of the configuration. -/
theorem maxTokens_run (config : RateLimitConfig) (calls : List RateCall) (callerId : String)
    (clock : RefillClock) :
    ((final exec { config } calls).refilled callerId clock).maxTokens = config.maxTokens := by
  let P (limiter : RateLimiter) : Prop :=
    ∀ callerId clock, (limiter.refilled callerId clock).maxTokens = config.maxTokens
  have hrun : P (final exec { config } calls) := by
    refine final_induct (fun _ _ => rfl) fun limiter call _ h callerId clock => ?_
    by_cases hcaller : call.callerId = callerId
    · rw [← hcaller, maxTokens_exec]
      exact h _ _
    · rw [refilled_exec_ne hcaller]
      exact h _ _
  exact hrun callerId clock

end Capacity

end RateLimiter

/-! ## Refusals in a row -/

def RateCall.acquiresFor (callerId : String) (call : RateCall) : Bool :=
  call.isAcquire && decide (call.callerId = callerId)

namespace RateLimiter

/-- An answer that lets the caller go on. -/
def goesAhead : Except PyError RateLimitResult → Bool
  | .ok result => result.allowed
  | .error _ => false

def grantedTo (callerId : String) (e : RateEvent) : Bool :=
  e.input.acquiresFor callerId && goesAhead e.output

def refusedTo (callerId : String) (e : RateEvent) : Bool :=
  e.input.acquiresFor callerId && !goesAhead e.output

/-- How often the caller was refused since it was last given something. -/
def refusalsInARow (callerId : String) (tr : List RateEvent) : ℕ :=
  countSince (grantedTo callerId) (refusedTo callerId) tr

/-- What the limiter knows of the refusals so far. -/
structure RefusalLaw (config : RateLimitConfig) (tr : List RateEvent) (limiter : RateLimiter) :
    Prop where
  config_eq : limiter.config = config
  refusals_eq : ∀ callerId clock,
    (limiter.refilled callerId clock).consecutiveRejections = refusalsInARow callerId tr

section Refusals

variable {config : RateLimitConfig} {tr : List RateEvent} {limiter : RateLimiter}
  {callerId : String} {call : RateCall} {tokens : ℤ} {clock : RefillClock}

theorem acquiresFor_acquire {caller : String} :
    (RateCall.acquire caller tokens clock).acquiresFor callerId = decide (caller = callerId) :=
  rfl

theorem acquiresFor_iff : call.acquiresFor callerId = true ↔
    ∃ tokens clock, call = .acquire callerId tokens clock := by
  rcases call with ⟨caller, tokens, clock⟩ | ⟨caller, tokens, clock⟩
  · simp [RateCall.acquiresFor, RateCall.isAcquire]
  · rw [acquiresFor_acquire]
    simp

theorem isAcquire_iff :
    call.isAcquire = true ↔ ∃ callerId, call.acquiresFor callerId = true := by
  simp [RateCall.acquiresFor]

theorem refusalLaw_init : RefusalLaw config [] { config } where
  config_eq := rfl
  refusals_eq _ _ := rfl

theorem refusalsInARow_concat_of_not (h : call.acquiresFor callerId = false) :
    refusalsInARow callerId (tr ++ [event exec limiter call]) = refusalsInARow callerId tr := by
  rw [refusalsInARow, countSince_concat]
  simp [grantedTo, refusedTo, h, refusalsInARow]

theorem refusalsInARow_concat_of_acquire (h : call.acquiresFor callerId = true) :
    refusalsInARow callerId (tr ++ [event exec limiter call])
      = if goesAhead (exec limiter call).1 then 0 else refusalsInARow callerId tr + 1 := by
  rw [refusalsInARow, countSince_concat]
  cases hout : goesAhead (exec limiter call).1 <;>
    simp [grantedTo, refusedTo, h, hout, refusalsInARow]

/-- A refusal is an answer as long as the power is in range. -/
theorem acquire_refused (h : RefusalLaw config tr limiter)
    (hfew : (limiter.refilled callerId clock).tokens < tokens) :
    (limiter.acquire callerId tokens clock).1
        = (limiter.backoff (refusalsInARow callerId tr + 1)).map fun backoff =>
          { allowed := false
            retryAfter := roundHundredths backoff
            remainingTokens := intOfFloat (limiter.refilled callerId clock).tokens } := by
  rw [acquire_of_lt limiter callerId hfew, h.refusals_eq]

theorem goesAhead_acquire :
    goesAhead (limiter.acquire callerId tokens clock).1
      = decide ((tokens : ℚ) ≤ (limiter.refilled callerId clock).tokens) := by
  by_cases h : (tokens : ℚ) ≤ (limiter.refilled callerId clock).tokens
  · rw [acquire_of_le limiter callerId h, goesAhead, decide_eq_true h]
  · rw [acquire_of_lt limiter callerId (not_le.mp h), decide_eq_false h]
    rcases limiter.backoff ((limiter.refilled callerId clock).consecutiveRejections + 1) with
      e | backoff <;> rfl

theorem RefusalLaw.step (h : RefusalLaw config tr limiter) (call : RateCall) :
    RefusalLaw config (tr ++ [event exec limiter call]) (exec limiter call).2 := by
  refine ⟨(exec_config limiter call).trans h.config_eq, fun callerId clock' => ?_⟩
  by_cases hcaller : call.callerId = callerId
  · rcases call with ⟨caller, tokens, clock⟩ | ⟨caller, tokens, clock⟩ <;>
      obtain rfl : caller = callerId := hcaller
    · rw [refusalsInARow_concat_of_not rfl, ← h.refusals_eq caller clock]
      show ((limiter.store caller (limiter.refilled caller clock)).refilled caller
        clock').consecutiveRejections = _
      rw [refilled_store_self, refill]
    · rw [refusalsInARow_concat_of_acquire (by simp [acquiresFor_acquire]), exec,
        goesAhead_acquire]
      rcases le_or_gt (tokens : ℚ) (limiter.refilled caller clock).tokens with hle | hlt
      · rw [acquire_of_le limiter caller hle, refilled_store_self, refill,
          if_pos (decide_eq_true hle)]
      · rw [acquire_of_lt limiter caller hlt, refilled_store_self, refill, h.refusals_eq,
          if_neg (by simpa using hlt)]
  · have hnot : call.acquiresFor callerId = false := by
      simp [RateCall.acquiresFor, hcaller]
    rw [refilled_exec_ne hcaller, refusalsInARow_concat_of_not hnot]
    exact h.refusals_eq callerId clock'

theorem refusalLaw_run (config : RateLimitConfig) (calls : List RateCall) :
    RefusalLaw config (events exec { config } calls) (final exec { config } calls) :=
  history_induct refusalLaw_init fun _ _ call _ h => h.step call

end Refusals

/-! ## The backoff -/

/-- Every `acquire` has an answer, and while a caller is refused again and again, the wait that it
is told neither goes down nor passes the maximum. -/
structure SafeBackoff (config : RateLimitConfig) (tr : List RateEvent) : Prop where
  returns : ∀ e ∈ tr, e.input.isAcquire = true → ∃ result, e.output = .ok result
  bounded : ∀ e ∈ tr, ∀ result, e.input.isAcquire = true → e.output = .ok result →
    result.allowed = false → result.retryAfter ≤ roundHundredths config.backoffMax
  nondecreasing : ∀ callerId l₁ e l₂ e' l₃ result result', tr = l₁ ++ e :: (l₂ ++ e' :: l₃) →
    e.input.acquiresFor callerId = true → e'.input.acquiresFor callerId = true →
    (∀ x ∈ l₂, grantedTo callerId x = false) →
    e.output = .ok result → result.allowed = false →
    e'.output = .ok result' → result'.allowed = false → result.retryAfter ≤ result'.retryAfter

/-- Whenever an `acquire` finds too few tokens, the power for the refusals in a row before it is
in the range of a float. -/
def PowersInRange (config : RateLimitConfig) (tr : List RateEvent) : Prop :=
  ∀ l₁ e l₂ callerId (tokens : ℤ) clock, tr = l₁ ++ e :: l₂ →
    e.input = .acquire callerId tokens clock →
    (e.before.refilled callerId clock).tokens < (tokens : ℚ) →
    config.backoffMultiplier ^ refusalsInARow callerId l₁ < 2 ^ 1024

section Backoff

variable {config : RateLimitConfig} {tr : List RateEvent} {limiter : RateLimiter}
  {callerId : String} {tokens : ℤ} {clock : RefillClock}

theorem floatPow_eq {q : ℚ} (hq : 0 ≤ q) (n : ℕ) :
    (∃ power, floatPow q n = .ok power) ↔ q ^ n < 2 ^ 1024 := by
  unfold floatPow
  rw [abs_of_nonneg (pow_nonneg hq n)]
  split_ifs with h
  · simp [h]
  · simpa using h

theorem backoff_eq_ok {n : ℕ} {wait : ℚ} (h : limiter.backoff (n + 1) = .ok wait) :
    wait = min (limiter.config.backoffBase * limiter.config.backoffMultiplier ^ n)
      limiter.config.backoffMax := by
  unfold backoff floatPow at h
  split_ifs at h
  · simp [Except.map] at h
  · simpa [Except.map] using h.symm

/-- A refusal says to wait for a time that its place among the refusals in a row gives. -/
theorem retryAfter_of_refused (h : RefusalLaw config tr limiter) {result : RateLimitResult}
    (hout : (limiter.acquire callerId tokens clock).1 = .ok result)
    (hdenied : result.allowed = false) :
    result.retryAfter = roundHundredths (min
      (config.backoffBase * config.backoffMultiplier ^ refusalsInARow callerId tr)
      config.backoffMax) := by
  have hfew : (limiter.refilled callerId clock).tokens < tokens := by
    by_contra hge
    rw [acquire_of_le limiter callerId (not_lt.mp hge), Except.ok.injEq] at hout
    subst hout
    simp at hdenied
  rw [acquire_refused h hfew] at hout
  rcases hback : limiter.backoff (refusalsInARow callerId tr + 1) with e | wait <;>
    rw [hback] at hout
  · simp [Except.map] at hout
  · rw [Except.map, Except.ok.injEq] at hout
    subst hout
    rw [backoff_eq_ok hback, h.config_eq]

theorem returns_iff (h : RefusalLaw config tr limiter) (hmul : 1 ≤ config.backoffMultiplier) :
    (∃ result, (limiter.acquire callerId tokens clock).1 = .ok result) ↔
      ((limiter.refilled callerId clock).tokens < tokens →
        config.backoffMultiplier ^ refusalsInARow callerId tr < 2 ^ 1024) := by
  rcases le_or_gt (tokens : ℚ) (limiter.refilled callerId clock).tokens with hle | hlt
  · rw [acquire_of_le limiter callerId hle]
    simp [hle.not_gt]
  · rw [acquire_refused h hlt, ← floatPow_eq (by linarith), backoff, h.config_eq]
    simp only [hlt, forall_const, Nat.add_sub_cancel]
    rcases floatPow config.backoffMultiplier (refusalsInARow callerId tr) with e | power <;>
      simp [Except.map]

theorem not_grantedTo_of_output {e : RateEvent} {result : RateLimitResult}
    (hout : e.output = .ok result) (hdenied : result.allowed = false) :
    grantedTo callerId e = false := by
  simp [grantedTo, hout, goesAhead, hdenied]

/-- The refusals in a row only grow until the caller is given something. -/
theorem refusalsInARow_le {e : RateEvent} {l₁ l₂ : List RateEvent}
    (he : grantedTo callerId e = false) (h : ∀ x ∈ l₂, grantedTo callerId x = false) :
    refusalsInARow callerId l₁ ≤ refusalsInARow callerId (l₁ ++ e :: l₂) := by
  induction l₂ using List.reverseRecOn with
  | nil =>
    rw [refusalsInARow, refusalsInARow, countSince_concat, he]
    exact Nat.le_add_right _ _
  | append_singleton l₂ x ih =>
    have ih := ih fun y hy => h y (List.mem_append_left _ hy)
    rw [← List.cons_append, ← List.append_assoc]
    refine ih.trans ?_
    rw [refusalsInARow, refusalsInARow, countSince_concat, h x (by simp)]
    exact Nat.le_add_right _ _

/-- The event of an `acquire` in a run, and what was known of the refusals before it. -/
theorem exists_of_acquiresFor {calls : List RateCall} {l₁ l₂ : List RateEvent} {e : RateEvent}
    (h : events exec { config } calls = l₁ ++ e :: l₂)
    (hfor : e.input.acquiresFor callerId = true) :
    ∃ limiter tokens clock, RefusalLaw config l₁ limiter
      ∧ e = event exec limiter (.acquire callerId tokens clock) := by
  obtain ⟨calls₁, call, calls₂, -, rfl, rfl⟩ := exists_of_events_eq_append_cons h
  obtain ⟨tokens, clock, rfl⟩ := acquiresFor_iff.mp hfor
  exact ⟨_, tokens, clock, refusalLaw_run config calls₁, rfl⟩

end Backoff

/-- The limiter answers and backs off as it should for as long as the powers that it takes are in
range, and no longer. -/
theorem safe_backoff_iff (config : RateLimitConfig) (hbase : 0 ≤ config.backoffBase)
    (hmul : 1 ≤ config.backoffMultiplier) (calls : List RateCall) :
    SafeBackoff config (events exec { config } calls)
      ↔ PowersInRange config (events exec { config } calls) := by
  constructor
  · intro hsafe l₁ e l₂ callerId tokens clock hsplit hinput hfew
    have hmem : e ∈ events exec { config } calls := by simp [hsplit]
    obtain ⟨limiter, tokens', clock', hlaw, rfl⟩ := exists_of_acquiresFor hsplit
      (acquiresFor_iff.mpr ⟨tokens, clock, hinput⟩)
    obtain ⟨-, rfl, rfl⟩ := RateCall.acquire.inj hinput
    have hreturns := hsafe.returns _ hmem rfl
    exact (returns_iff hlaw hmul).mp hreturns hfew
  · intro hrange
    refine ⟨fun e he hcall => ?_, fun e he result hcall hout hdenied => ?_, ?_⟩
    · obtain ⟨l₁, l₂, hsplit⟩ := List.append_of_mem he
      obtain ⟨callerId, hfor⟩ := isAcquire_iff.mp hcall
      obtain ⟨limiter, tokens, clock, hlaw, rfl⟩ := exists_of_acquiresFor hsplit hfor
      have hpower := hrange l₁ _ l₂ callerId tokens clock hsplit rfl
      exact (returns_iff hlaw hmul).mpr hpower
    · obtain ⟨l₁, l₂, hsplit⟩ := List.append_of_mem he
      obtain ⟨callerId, hfor⟩ := isAcquire_iff.mp hcall
      obtain ⟨limiter, tokens, clock, hlaw, rfl⟩ := exists_of_acquiresFor hsplit hfor
      rw [retryAfter_of_refused hlaw hout hdenied]
      exact roundHundredths_mono (min_le_right _ _)
    · intro callerId l₁ e l₂ e' l₃ result result' hsplit hfor hfor' hbetween hout hdenied hout'
        hdenied'
      have hcount : refusalsInARow callerId l₁ ≤ refusalsInARow callerId (l₁ ++ e :: l₂) :=
        refusalsInARow_le (not_grantedTo_of_output hout hdenied) hbetween
      obtain ⟨limiter, tokens, clock, hlaw, rfl⟩ := exists_of_acquiresFor hsplit hfor
      rw [← List.cons_append, ← List.append_assoc] at hsplit
      obtain ⟨limiter', tokens', clock', hlaw', rfl⟩ := exists_of_acquiresFor hsplit hfor'
      rw [retryAfter_of_refused hlaw hout hdenied, retryAfter_of_refused hlaw' hout' hdenied']
      refine roundHundredths_mono (min_le_min_right _ ?_)
      exact mul_le_mul_of_nonneg_left (pow_le_pow_right₀ hmul hcount) hbase

/-- A caller that is refused seven times. -/
theorem safe_backoff_iff_seven :
    let calls := List.replicate 7 (.acquire "a" 21 ⟨0, 0⟩)
    SafeBackoff {} (events exec { config := {} } calls) := by
  intro calls
  refine (safe_backoff_iff {} (by decide +kernel) (by decide +kernel) calls).mpr ?_
  intro l₁ e l₂ callerId tokens clock hsplit _ _
  obtain ⟨calls₁, call, calls₂, hcalls, rfl, -⟩ := exists_of_events_eq_append_cons hsplit
  have hlength : (events exec { config := {} } calls₁).length ≤ 7 := by
    have := congrArg List.length hcalls
    simp only [calls, List.length_replicate, List.length_append] at this
    rw [← List.length_map Trace.Event.input, map_input_events]
    omega
  calc (2 : ℚ) ^ refusalsInARow callerId (events exec { config := {} } calls₁)
      ≤ 2 ^ 7 := pow_le_pow_right₀ (by norm_num) ((countSince_le_length ..).trans hlength)
    _ < 2 ^ 1024 := pow_lt_pow_right₀ (by norm_num) (by norm_num)

/-- Who asks for more than the bucket can hold is refused every time. -/
theorem refusalsInARow_replicate (config : RateLimitConfig) (callerId : String) {tokens : ℤ}
    (htokens : config.maxTokens < tokens) (clock : RefillClock) (n : ℕ) :
    refusalsInARow callerId
      (events exec { config } (List.replicate n (.acquire callerId tokens clock))) = n := by
  induction n with
  | zero => rfl
  | succ n ih =>
    have hfew := (refilled_tokens_le clock).trans_eq (congrArg Int.cast (maxTokens_run config
      (List.replicate n (.acquire callerId tokens clock)) callerId clock))
    rw [List.replicate_succ', events_concat,
      refusalsInARow_concat_of_acquire (by simp [acquiresFor_acquire]), ih, exec,
      goesAhead_acquire, if_neg]
    have : (config.maxTokens : ℚ) < tokens := by exact_mod_cast htokens
    simpa using hfew.trans_lt this

/-- With the defaults, a caller that asks for more than the bucket can hold and does so 1025 times
makes the last power too large. -/
theorem safe_backoff_overflows :
    ¬ SafeBackoff {} (events exec { config := {} }
      (List.replicate 1025 (.acquire "a" 21 ⟨0, 0⟩))) := by
  intro hsafe
  have hlaw := refusalLaw_run {} (List.replicate 1024 (.acquire "a" 21 ⟨0, 0⟩))
  rw [List.replicate_succ' (n := 1024), events_concat] at hsafe
  have hreturns := hsafe.returns _ (List.mem_append_right _ (List.mem_singleton_self _)) rfl
  rw [event_output, exec, returns_iff hlaw (by decide +kernel),
    refusalsInARow_replicate {} "a" (by decide)] at hreturns
  refine lt_irrefl _ (hreturns ?_)
  have hcapacity := maxTokens_run {} (List.replicate 1024 (.acquire "a" 21 ⟨0, 0⟩)) "a" ⟨0, 0⟩
  refine (refilled_tokens_le _).trans_lt ?_
  rw [hcapacity]
  norm_num

/-! ## The suggested wait -/

section Wait

variable {limiter : RateLimiter} {callerId : String}

/-- How long the missing tokens take to flow in, in hundredths of a second. -/
def hundredthsToWait (limiter : RateLimiter) (callerId : String) (tokens : ℤ)
    (clock : RefillClock) : ℚ :=
  (tokens - (limiter.refilled callerId clock).tokens) / limiter.config.tokensPerSecond * 100

/-- Not whole, and nearer to the whole number below than to the one above, or as near as to that and
the one below is even. -/
def RoundedDown (q : ℚ) : Prop := (⌊q⌋ : ℚ) ≠ q ∧ RoundsDown q

instance (q : ℚ) : Decidable (RoundedDown q) := inferInstanceAs (Decidable (_ ∧ _))

theorem le_roundHalfEven_iff (q : ℚ) : q ≤ roundHalfEven q ↔ ¬ RoundedDown q := by
  rw [roundHalfEven_eq, RoundedDown]
  split_ifs with h
  · simp only [h, and_true, not_not]
    exact ⟨fun hle => le_antisymm (Int.floor_le q) hle, fun heq => heq.ge⟩
  · simp only [h, and_false, not_false_iff, iff_true]
    push_cast
    exact (Int.lt_floor_add_one q).le

theorem le_roundHundredths_iff (q : ℚ) : q ≤ roundHundredths q ↔ ¬ RoundedDown (q * 100) := by
  rw [← le_roundHalfEven_iff, roundHundredths, le_div_iff₀ (by norm_num)]

/-- Calls other than an `acquire` of its own leave a caller's bucket as it would be later. -/
theorem refilled_run (hrate : 0 ≤ limiter.config.tokensPerSecond) {calls : List RateCall}
    (hcalls : ∀ call ∈ calls, call.acquiresFor callerId = false) {clock : RefillClock}
    (hclock : clock.created ≤ clock.now)
    (hbefore : ∀ call ∈ calls, call.created ≤ call.now ∧ call.now ≤ clock.now) :
    (final exec limiter calls).refilled callerId clock = limiter.refilled callerId clock := by
  let P (limiter' : RateLimiter) : Prop := limiter'.config = limiter.config
    ∧ limiter'.refilled callerId clock = limiter.refilled callerId clock
  have hrun : P (final exec limiter calls) := by
    refine final_induct ⟨rfl, rfl⟩ fun limiter' call hcall h => ?_
    refine ⟨(exec_config limiter' call).trans h.1, ?_⟩
    rw [← h.2]
    by_cases hcaller : call.callerId = callerId
    · rcases call with ⟨caller, tokens, clock'⟩ | ⟨caller, tokens, clock'⟩ <;>
        obtain rfl : caller = callerId := hcaller
      · obtain ⟨hwithin, hlater⟩ := hbefore _ hcall
        exact refilled_store_refilled (h.1 ▸ hrate) hwithin hclock hlater
      · exact absurd (hcalls _ hcall) (by simp [acquiresFor_acquire])
    · exact refilled_exec_ne hcaller clock
  exact hrun.2

/-- The tokens that a caller finds who has taken none since a check. -/
theorem tokens_after_check (hrate : 0 ≤ limiter.config.tokensPerSecond) {calls : List RateCall}
    (hcalls : ∀ call ∈ calls, call.acquiresFor callerId = false) {tokens : ℤ}
    {clock clock' : RefillClock} (hclock' : clock'.created ≤ clock'.now)
    (hbefore : ∀ call ∈ calls, call.created ≤ call.now ∧ call.now ≤ clock'.now) :
    ((final exec (exec limiter (.check callerId tokens clock)).2 calls).refilled callerId
        clock').tokens
      = min ((limiter.refilled callerId clock).tokens
          + (clock'.now - clock.now) * limiter.config.tokensPerSecond)
        (limiter.refilled callerId clock).maxTokens := by
  have hconfig : (exec limiter (.check callerId tokens clock)).2.config = limiter.config := rfl
  rw [← hconfig] at hrate
  rw [refilled_run hrate hcalls hclock' hbefore]
  simp only [exec, check, refilled_store_self]
  rfl

theorem check_allowed_iff {tokens : ℤ} {clock : RefillClock} :
    (∃ result, (limiter.check callerId tokens clock).1 = .ok result ∧ result.allowed = true) ↔
      (tokens : ℚ) ≤ (limiter.refilled callerId clock).tokens := by
  unfold check
  simp only
  split_ifs with h hzero <;> simp [h]

theorem check_denied {tokens : ℤ} {clock : RefillClock} {result : RateLimitResult}
    (h : (limiter.check callerId tokens clock).1 = .ok result) (hdenied : result.allowed = false) :
    result.retryAfter = roundHundredths
      ((tokens - (limiter.refilled callerId clock).tokens) / limiter.config.tokensPerSecond) := by
  unfold check at h
  simp only at h
  split_ifs at h <;> simp only [Except.ok.injEq] at h <;> subst h
  · simp at hdenied
  · rfl

end Wait

theorem le_of_within {calls : List RateCall} {call : RateCall}
    (h : Clocked RateCall.readings calls) (hcall : call ∈ calls) : call.created ≤ call.now := by
  simpa [RateCall.readings] using h.within hcall

theorem now_le_of_append {calls later : List RateCall} {call call' : RateCall}
    (h : Clocked RateCall.readings (calls ++ later)) (hcall : call ∈ calls)
    (hcall' : call' ∈ later) : call.now ≤ call'.now :=
  h.le_of_append hcall hcall' _ (by simp [RateCall.readings]) _ (by simp [RateCall.readings])

theorem config_run (config : RateLimitConfig) (calls : List RateCall) :
    (final exec { config } calls).config = config :=
  (refusalLaw_run config calls).config_eq

/-- A caller that is told to wait, and waits, gets through just if the wait was not rounded down.
-/
theorem suggested_wait_suffices_iff (config : RateLimitConfig) (hrate : 0 < config.tokensPerSecond)
    (calls between : List RateCall) (callerId : String) (tokens : ℤ)
    (htokens : tokens ≤ config.maxTokens) (clock clock' : RefillClock)
    (hclock : Clocked RateCall.readings
      (calls ++ .check callerId tokens clock :: (between ++ [.check callerId tokens clock'])))
    (hbetween : ∀ call ∈ between, call.acquiresFor callerId = false) (result : RateLimitResult)
    (hout : ((final exec { config } calls).check callerId tokens clock).1 = .ok result)
    (hdenied : result.allowed = false) (hnow : clock'.now = clock.now + result.retryAfter) :
    (∃ later, ((final exec { config } (calls ++ .check callerId tokens clock :: between)).check
        callerId tokens clock').1 = .ok later ∧ later.allowed = true)
      ↔ ¬ RoundedDown (hundredthsToWait (final exec { config } calls) callerId tokens clock) := by
  have hconfig := config_run config calls
  have hcapacity := maxTokens_run config calls callerId clock
  set limiter := final exec { config } calls with hlimiter
  have hrate' : 0 ≤ limiter.config.tokensPerSecond := by
    rw [hconfig]
    exact hrate.le
  -- The bucket that the second check finds is the one of the first, filled up for the wait.
  have hafter : ((final exec { config } (calls ++ .check callerId tokens clock :: between)).refilled
      callerId clock').tokens
        = min ((limiter.refilled callerId clock).tokens
            + result.retryAfter * limiter.config.tokensPerSecond) config.maxTokens := by
    have hbefore : ∀ call ∈ between, call.created ≤ call.now ∧ call.now ≤ clock'.now := by
      intro call hcall
      refine ⟨le_of_within hclock (by simp [hcall]), ?_⟩
      rw [← List.cons_append, ← List.append_assoc] at hclock
      have hlast : RateCall.check callerId tokens clock'
          ∈ [RateCall.check callerId tokens clock'] := List.mem_singleton_self _
      exact now_le_of_append hclock (by simp [hcall]) hlast
    have hlast : .check callerId tokens clock' ∈ calls ++
        .check callerId tokens clock :: (between ++ [.check callerId tokens clock']) := by simp
    have hwithin : clock'.created ≤ clock'.now := le_of_within hclock hlast
    rw [final_append, final_cons, ← hlimiter,
      tokens_after_check hrate' hbetween hwithin hbefore, hcapacity, hnow, add_sub_cancel_left]
  have hrequest : (tokens : ℚ) ≤ config.maxTokens := by exact_mod_cast htokens
  rw [check_allowed_iff, hafter, le_min_iff, and_iff_left hrequest, hundredthsToWait,
    ← le_roundHundredths_iff, ← check_denied hout hdenied, div_le_iff₀ (hconfig ▸ hrate),
    sub_le_iff_le_add']

/-- A wait of 37 milliseconds is rounded to 40, and nothing that happens meanwhile takes from the
caller's bucket. -/
theorem suggested_wait_suffices_iff_up :
    let calls := [.acquire "a" 20 ⟨0, 0⟩]
    let between := [.check "a" 5 ⟨7 / 100, 7 / 100⟩, .acquire "b" 1 ⟨8 / 100, 8 / 100⟩]
    let check := .check "a" 1 ⟨63 / 1000, 63 / 1000⟩
    ∃ later, ((final exec { config := {} } (calls ++ check :: between)).check "a" 1
      ⟨103 / 1000, 103 / 1000⟩).1 = .ok later ∧ later.allowed = true := by
  intro calls between check
  refine (suggested_wait_suffices_iff {} (by decide +kernel) calls between "a" 1 (by decide)
    ⟨63 / 1000, 63 / 1000⟩ ⟨103 / 1000, 103 / 1000⟩ ?_ (by decide +kernel)
    { allowed := false, retryAfter := 4 / 100 } (by decide +kernel) rfl
    (by decide +kernel)).mpr (by decide +kernel)
  unfold Clocked
  decide +kernel

/-- A wait of 34 milliseconds is rounded to 30, when there is not yet a token. -/
theorem suggested_wait_too_short :
    let calls := [.acquire "a" 20 ⟨0, 0⟩]
    let check := .check "a" 1 ⟨66 / 1000, 66 / 1000⟩
    ((final exec { config := {} } calls).check "a" 1 ⟨66 / 1000, 66 / 1000⟩).1
        = .ok { allowed := false, retryAfter := 3 / 100 }
      ∧ ¬ ∃ later, ((final exec { config := {} } (calls ++ [check])).check "a" 1
        ⟨66 / 1000 + 3 / 100, 66 / 1000 + 3 / 100⟩).1 = .ok later ∧ later.allowed = true := by
  intro calls check
  refine ⟨by decide +kernel, ?_⟩
  rw [check_allowed_iff]
  decide +kernel

end RateLimiter

end AgentLearning.Gateway
