/-
  The reliability mechanisms (`agent/reliability/mechanisms/`), their policies
  (`reliability_models.py`) and results.

  A mechanism is a record of counters that one engine keeps and every call shares; the parts of its
  `apply` that read and write them are the functions below, each taken as ONE atomic step.  What `apply`
  does between them, calling the inner callable, is in `Engine.lean`.

  Time is `time.time()` in seconds, exact.  Check functions and fallback functions act on a world.
  The latencies and the metadata dictionaries of the results are for display and left out.
-/
import Mathlib.Data.Rat.Floor
import FinancialRag.Lib.Executor

set_option linter.unusedVariables false

namespace FinancialRag.Reliability

/-! ## Models -/

inductive ReliabilityType where
  | retry
  | timeout
  | circuitBreaker
  | fallback
  | healthCheck
  | rateLimiter
  deriving DecidableEq, Repr

def ReliabilityType.value : ReliabilityType → String
  | .retry => "retry"
  | .timeout => "timeout"
  | .circuitBreaker => "circuit_breaker"
  | .fallback => "fallback"
  | .healthCheck => "health_check"
  | .rateLimiter => "rate_limiter"

inductive CircuitState where
  | opened
  | halfOpen
  | closed
  deriving DecidableEq, Repr

/-- An exception: its text, and whether it is a `TimeoutError`. -/
structure Exc where
  text : String
  isTimeout : Bool
  deriving DecidableEq, Repr

def raise (text : String) : Exc := ⟨text, false⟩

/-- What a callable ends with; the engine drops return values. -/
abbrev Outcome := Except Exc Unit

/-- What sets the policies of the six mechanisms apart. -/
inductive PolicyKind (W : Type) where
  | retry (maxRetries backoffMs : Int)
  | timeout (timeoutMs : Int)
  | circuitBreaker (failureThreshold recoveryTimeoutMs : Int)
  | fallback (fallbackValue : Option String) (fallbackFunction : Option (W → Outcome × W))
  | healthCheck (intervalMs : Int) (checkFunction : Option (W → Except Exc Bool × W))
  | rateLimiter (maxRequests windowMs : Int)

structure ReliabilityPolicy (W : Type) where
  enabled : Bool
  kind : PolicyKind W

structure ReliabilityResult where
  success : Bool
  policy : ReliabilityType
  retryCount : Int
  error : Option String
  timeoutOccurred : Bool
  circuitState : Option CircuitState
  deriving Repr

def succeeded (policy : ReliabilityType) : ReliabilityResult := ⟨true, policy, 0, none, false, none⟩

def failed (policy : ReliabilityType) (error : String) : ReliabilityResult :=
  ⟨false, policy, 0, some error, false, none⟩

/-! ## The records of the mechanisms -/

structure RetryReliability where
  lastAttempts : Int
  lastError : Option String

structure TimeoutReliability where
  timeoutCount : Nat
  totalTimeoutMs : ℚ

structure FallbackReliability where
  totalFallbacks : Nat
  fallbackSuccesses : Nat
  fallbackFailures : Nat

/-! ### The circuit breaker -/

structure CircuitBreakerReliability where
  state : CircuitState
  failureCount : Nat
  lastFailureTime : Option ℚ
  lastSuccessTime : Option ℚ
  totalRejections : Nat
  totalSuccesses : Nat
  totalFailures : Nat

namespace CircuitBreakerReliability

/-- `__init__`. -/
def new : CircuitBreakerReliability := ⟨.closed, 0, none, none, 0, 0, 0⟩

/-- `_check_recovery`. -/
def checkRecovery (b : CircuitBreakerReliability) (recoveryTimeoutMs : Int) (now : ℚ) :
    CircuitBreakerReliability :=
  if b.state = .opened then
    match b.lastFailureTime with
    | none => b
    | some last => if (recoveryTimeoutMs : ℚ) ≤ (now - last) * 1000 then { b with state := .halfOpen } else b
  else b

/-- The admission part of `apply`: the recovery check, and the rejection while the circuit is open. -/
def admission (b : CircuitBreakerReliability) (recoveryTimeoutMs : Int) (now : ℚ) :
    Bool × CircuitBreakerReliability :=
  let b := b.checkRecovery recoveryTimeoutMs now
  if b.state = .opened then (false, { b with totalRejections := b.totalRejections + 1 })
  else (true, b)

/-- `_on_success`. -/
def onSuccess (b : CircuitBreakerReliability) (now : ℚ) : CircuitBreakerReliability :=
  { b with
    state := .closed
    failureCount := 0
    totalSuccesses := b.totalSuccesses + 1
    lastSuccessTime := some now }

/-- `_on_failure`. -/
def onFailure (b : CircuitBreakerReliability) (failureThreshold : Int) (now : ℚ) :
    CircuitBreakerReliability :=
  let b := { b with
    failureCount := b.failureCount + 1
    totalFailures := b.totalFailures + 1
    lastFailureTime := some now }
  if b.state = .halfOpen then { b with state := .opened }
  else if failureThreshold ≤ (b.failureCount : Int) then { b with state := .opened }
  else b

end CircuitBreakerReliability

/-! ### The health check -/

structure HealthCheckReliability (W : Type) where
  isHealthy : Bool
  lastCheckTime : ℚ
  checkCount : Nat
  failedCheckCount : Nat
  defaultCheckFn : Option (W → Except Exc Bool × W)

namespace HealthCheckReliability

variable {W : Type}

/-- Whether the last verdict still stands. -/
def isCached (h : HealthCheckReliability W) (intervalMs : Int) (now : ℚ) : Bool :=
  decide ((now - h.lastCheckTime) * 1000 < (intervalMs : ℚ)) && decide (0 < h.lastCheckTime)

/-- A fresh check begins. -/
def beginCheck (h : HealthCheckReliability W) (now : ℚ) : HealthCheckReliability W :=
  { h with checkCount := h.checkCount + 1, lastCheckTime := now }

/-- The verdict of a fresh check is recorded. -/
def settle (h : HealthCheckReliability W) (healthy : Bool) : HealthCheckReliability W :=
  if healthy then { h with isHealthy := true }
  else { h with isHealthy := false, failedCheckCount := h.failedCheckCount + 1 }

end HealthCheckReliability

/-! ### The rate limiter -/

structure RateLimiterReliability where
  timestamps : List ℚ
  totalRequests : Nat
  blockedRequests : Nat

/-- The window is cleared of old requests, and the request is counted or blocked. -/
def RateLimiterReliability.admission (r : RateLimiterReliability) (maxRequests windowMs : Int) (now : ℚ) :
    ReliabilityResult × RateLimiterReliability :=
  let timestamps := r.timestamps.filter fun t => decide (now - (windowMs : ℚ) / 1000 < t)
  if maxRequests ≤ (timestamps.length : Int) then
    (failed .rateLimiter ("Rate limit exceeded: " ++ toString timestamps.length ++ "/" ++
        toString maxRequests ++ " requests"),
      { r with timestamps := timestamps, blockedRequests := r.blockedRequests + 1 })
  else
    (succeeded .rateLimiter,
      { r with timestamps := timestamps ++ [now], totalRequests := r.totalRequests + 1 })

end FinancialRag.Reliability
