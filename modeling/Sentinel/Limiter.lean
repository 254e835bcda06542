import Sentinel.TokenBucket

namespace Sentinel.Limiter

inductive RedisFailureMode
  | failOpen
  | failClosed
  deriving DecidableEq

structure RateLimitDecision where
  allowed : Bool
  remaining : ℤ
  retryAfterMs : ℤ
  limit : ℤ
  degraded : Bool := false
  deriving DecidableEq

structure TokenBucketPolicy where
  capacity : ℤ
  refillRate : ℚ
  cost : ℤ := 1
  ttlSeconds : ℤ := 3600
  failureMode : RedisFailureMode := .failClosed
  deriving DecidableEq

structure SlidingWindowPolicy where
  limit : ℤ
  windowSeconds : ℤ
  ttlSeconds : ℤ := 3600
  failureMode : RedisFailureMode := .failClosed
  deriving DecidableEq

structure ScriptReply where
  allowed : ℤ
  remaining : ℤ
  retryAfterMs : ℤ
  deriving DecidableEq

/-- What Redis makes of the numbers of `token_bucket.lua`. It has no integer for an infinite
`retry_after_ms`: what it sends then is left open. -/
def ScriptReply.of (overflow : ℤ) (r : TokenBucket.Reply) : ScriptReply :=
  ⟨if r.allowed then 1 else 0, r.remaining, r.retryAfterMs.untopD overflow⟩

def TokenBucketPolicy.args (policy : TokenBucketPolicy) (nowMs : ℤ) : TokenBucket.Args :=
  ⟨policy.capacity, policy.refillRate, policy.cost, nowMs, policy.ttlSeconds⟩

def degradedDecision (failureMode : RedisFailureMode) (limit : ℤ) : RateLimitDecision :=
  let allowed : Bool := failureMode = .failOpen
  { allowed
    remaining := if !allowed then 0 else limit
    retryAfterMs := if !allowed then 1000 else 0
    limit
    degraded := true }

/-- `check_token_bucket` once the script has answered; no answer is a `RedisError`. -/
def checkTokenBucket (policy : TokenBucketPolicy) (reply : Option ScriptReply) :
    RateLimitDecision :=
  match reply with
  | some r =>
    { allowed := r.allowed ≠ 0
      remaining := r.remaining
      retryAfterMs := r.retryAfterMs
      limit := policy.capacity }
  | none => degradedDecision policy.failureMode policy.capacity

end Sentinel.Limiter
