import Sentinel.Text
import Mathlib.Data.Finset.Insert
import Mathlib.Data.Rat.Floor

namespace Sentinel.Retry

open Text

inductive FailureKind
  | connectionError
  | timeout
  | http502
  | http503
  | http504
  | http4xx
  | httpOther5xx
  | success
  deriving DecidableEq

def defaultRetryable : Finset FailureKind :=
  {.connectionError, .timeout, .http502, .http503, .http504}

def idempotentMethods : List String := ["GET", "HEAD", "PUT", "DELETE", "OPTIONS"]

structure RetryPolicy where
  maxAttempts : ℤ := 2
  baseBackoffMs : ℤ := 100
  totalDeadlineMs : ℤ := 2000
  retryableFailures : Finset FailureKind := defaultRetryable
  allowNonIdempotent : Bool := false

def isRetryable (lib : StringLibrary) (method : String) (failureKind : FailureKind)
    (policy : RetryPolicy) (circuitIsOpen : Bool) : Bool :=
  if circuitIsOpen then false
  else if failureKind ∉ policy.retryableFailures then false
  else if ¬(lib.upper method ∈ idempotentMethods) ∧ ¬policy.allowNonIdempotent then false
  else true

/-- A draw of `random.random()`. -/
structure Draw where
  value : ℚ
  nonneg : 0 ≤ value
  lt_one : value < 1

/-- `random.uniform(0, ceiling)` at a draw, as an exact rational. -/
def computeBackoffMs (draw : Draw) (attempt : ℕ) (baseBackoffMs : ℤ) : ℚ :=
  let ceiling : ℚ := baseBackoffMs * 2 ^ (attempt - 1)
  ceiling * draw.value

structure DeadlineTracker where
  start : ℚ
  totalDeadlineS : ℚ
  deriving DecidableEq

namespace DeadlineTracker

def new (clock : ℚ) (totalDeadlineMs : ℤ) : DeadlineTracker := ⟨clock, totalDeadlineMs / 1000⟩

def remainingSeconds (clock : ℚ) (d : DeadlineTracker) : ℚ :=
  max 0 (d.totalDeadlineS - (clock - d.start))

def hasBudgetFor (clock : ℚ) (d : DeadlineTracker) (plannedBackoffMs : ℚ) : Bool :=
  plannedBackoffMs / 1000 < d.remainingSeconds clock

end DeadlineTracker

def classifyHttpStatus (statusCode : ℕ) : FailureKind :=
  if statusCode = 502 then .http502
  else if statusCode = 503 then .http503
  else if statusCode = 504 then .http504
  else if 400 ≤ statusCode ∧ statusCode < 500 then .http4xx
  else if 500 ≤ statusCode ∧ statusCode < 600 then .httpOther5xx
  else .success

/-- A status is a success to the retry loop below 400 and from 600 on. -/
theorem classifyHttpStatus_eq_success_iff (statusCode : ℕ) :
    classifyHttpStatus statusCode = .success ↔ statusCode < 400 ∨ 600 ≤ statusCode := by
  simp only [classifyHttpStatus]
  split_ifs <;> simp <;> omega

end Sentinel.Retry
