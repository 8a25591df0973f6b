import Mathlib.Algebra.Order.Ring.Unbundled.Rat
import Mathlib.Data.Rat.Floor
import AgentLearning.Value

/-!
# The rate limiter

`src/gateway/rate_limiter.py`: a token bucket for every caller. A bucket is made full when a caller
first turns up and is filled up at the start of every call; `check` only looks and `acquire` takes
tokens. Times and amounts of tokens are rationals. A call reads the clock when it makes a bucket
and again when it fills it up.
-/

namespace AgentLearning.Gateway

/-- The nearest integer, an even one if there are two. -/
def roundHalfEven (q : ℚ) : ℤ :=
  let f := ⌊q⌋
  if q - f < 1 / 2 then f
  else if 1 / 2 < q - f then f + 1
  else if f % 2 = 0 then f else f + 1

/-- `round(q, 2)`. -/
def roundHundredths (q : ℚ) : ℚ := roundHalfEven (q * 100) / 100

/-- `float ** int`, which raises if the result is too large for a float. -/
def floatPow (q : ℚ) (n : ℕ) : Except PyError ℚ :=
  if (2 : ℚ) ^ 1024 ≤ |q ^ n| then
    .error (.exception "(34, 'Numerical result out of range')")
  else .ok (q ^ n)

structure RateLimitConfig where
  tokensPerSecond : ℚ := 10
  maxTokens : ℤ := 20
  backoffBase : ℚ := 1
  backoffMax : ℚ := 60
  backoffMultiplier : ℚ := 2

structure Bucket where
  tokens : ℚ
  maxTokens : ℤ
  lastRefill : ℚ
  consecutiveRejections : ℕ := 0

structure RateLimitResult where
  allowed : Bool
  retryAfter : ℚ := 0
  remainingTokens : ℤ := 0
  deriving DecidableEq

structure RateLimiter where
  config : RateLimitConfig := {}
  buckets : Dict String Bucket := ∅

/-- When a call makes a bucket, if it has to, and when it fills it up. -/
structure RefillClock where
  created : ℚ
  now : ℚ

namespace RateLimiter

variable (limiter : RateLimiter) (callerId : String)

def getBucket (created : ℚ) : Bucket :=
  (limiter.buckets.get? callerId).getD
    { tokens := limiter.config.maxTokens
      maxTokens := limiter.config.maxTokens
      lastRefill := created }

def refill (bucket : Bucket) (now : ℚ) : Bucket :=
  let elapsed := now - bucket.lastRefill
  let refill := elapsed * limiter.config.tokensPerSecond
  { bucket with
    tokens := min (bucket.tokens + refill) bucket.maxTokens
    lastRefill := now }

/-- The caller's bucket as a call finds it. -/
def refilled (clock : RefillClock) : Bucket :=
  limiter.refill (limiter.getBucket callerId clock.created) clock.now

def store (bucket : Bucket) : RateLimiter :=
  { limiter with buckets := limiter.buckets.set callerId bucket }

def check (tokens : ℤ) (clock : RefillClock) : Except PyError RateLimitResult × RateLimiter :=
  let bucket := limiter.refilled callerId clock
  (if tokens ≤ bucket.tokens then
      .ok { allowed := true, remainingTokens := intOfFloat bucket.tokens }
    else if limiter.config.tokensPerSecond = 0 then .error (.exception "float division by zero")
    else .ok {
      allowed := false
      retryAfter := roundHundredths ((tokens - bucket.tokens) / limiter.config.tokensPerSecond)
      remainingTokens := intOfFloat bucket.tokens },
    limiter.store callerId bucket)

/-- The wait that is recommended after so many rejections in a row. -/
def backoff (consecutiveRejections : ℕ) : Except PyError ℚ :=
  (floatPow limiter.config.backoffMultiplier (consecutiveRejections - 1)).map fun power =>
    min (limiter.config.backoffBase * power) limiter.config.backoffMax

def acquire (tokens : ℤ) (clock : RefillClock) : Except PyError RateLimitResult × RateLimiter :=
  let bucket := limiter.refilled callerId clock
  if tokens ≤ bucket.tokens then
    let bucket := { bucket with tokens := bucket.tokens - tokens, consecutiveRejections := 0 }
    (.ok { allowed := true, remainingTokens := intOfFloat bucket.tokens },
      limiter.store callerId bucket)
  else
    let bucket := { bucket with consecutiveRejections := bucket.consecutiveRejections + 1 }
    ((limiter.backoff bucket.consecutiveRejections).map fun backoff =>
        { allowed := false
          retryAfter := roundHundredths backoff
          remainingTokens := intOfFloat bucket.tokens },
      limiter.store callerId bucket)

/-- An empty caller id stands for all callers. -/
def reset (callerId : Option String) : RateLimiter :=
  match callerId with
  | none => { limiter with buckets := ∅ }
  | some callerId =>
    if callerId ≠ "" then { limiter with buckets := limiter.buckets.erase callerId }
    else { limiter with buckets := ∅ }

end RateLimiter

end AgentLearning.Gateway
