/-
  `ReliabilityEngine.execute_pipeline` and the `apply` of each mechanism, as processes.

  A mechanism's `apply` takes the inner callable and goes on with `k`: with its result, or with the
  exception it raises itself.  The pipeline is a fold of wrappers around the callable; the timeout
  submits to the one process-wide executor, so what a call does is a process of that machine
  (`Lib/Executor.lean`), one for each call, all over one engine's shared mechanisms.
-/
import FinancialRag.Reliability.Mechanisms
import FinancialRag.Lib.Dict

set_option linter.unusedVariables false

namespace FinancialRag.Reliability

/-- The mechanisms of the engine, the clock, the world, and the results of each call. -/
structure Shared (κ W : Type) where
  retry : RetryReliability
  timeout : TimeoutReliability
  breaker : CircuitBreakerReliability
  fallback : FallbackReliability
  health : HealthCheckReliability W
  limiter : RateLimiterReliability
  clock : ℚ
  world : W
  results : κ → Dict ReliabilityType ReliabilityResult

/-- The engine when every mechanism has just been created. -/
def Shared.new {κ W : Type} (clock : ℚ) (world : W) : Shared κ W where
  retry := ⟨0, none⟩
  timeout := ⟨0, 0⟩
  breaker := .new
  fallback := ⟨0, 0, 0⟩
  health := ⟨true, 0, 0, 0, none⟩
  limiter := ⟨[], 0, 0⟩
  clock := clock
  world := world
  results := fun _ => Dict.empty

/-- The log line of a fallback that took over. -/
inductive Mark where
  | fallbackUsed
  deriving DecidableEq

abbrev Process (κ W : Type) := Proc (Shared κ W) Outcome Mark

structure PipelineEntry (W : Type) where
  name : ReliabilityType
  policy : Option (ReliabilityPolicy W)

section Apply

variable {κ W : Type}

/-- How a mechanism's `apply` is left. -/
abbrev Continue (κ W : Type) := Except Exc ReliabilityResult → Process κ W

/-- `policy.enabled` of `None`. -/
def noneHasNoEnabled : Exc := raise "'NoneType' object has no attribute 'enabled'"

/-! ### Retry -/

/-- `max_retries` and `backoff_ms`, with the defaults of `apply`. -/
def retrySettings (policy : Option (ReliabilityPolicy W)) : Int × Int :=
  match policy with
  | some ⟨_, .retry maxRetries backoffMs⟩ => (maxRetries, backoffMs)
  | _ => (3, 100)

/-- The loop over the attempts: `left` of them to go. -/
def retryAttempts (inner : Process κ W) (maxRetries backoffMs : Int) (k : Continue κ W) :
    Nat → Nat → Option String → Process κ W
  | 0, _, lastError =>
    .act (fun s => { s with retry := { s.retry with lastAttempts := maxRetries } }) fun _ =>
      k (.ok { failed .retry (lastError.getD "Unknown error") with retryCount := maxRetries })
  | left + 1, attempt, _ =>
    inner.bind fun
      | .ok () =>
        .act (fun s => { s with retry := ⟨attempt, none⟩ }) fun _ =>
          k (.ok { succeeded .retry with retryCount := attempt })
      | .error e =>
        .act (fun s => { s with retry := { s.retry with lastError := some e.text } }) fun _ =>
          -- `time.sleep` refuses a negative backoff
          if (attempt : Int) < maxRetries ∧ backoffMs < 0 then
            k (.error (raise "sleep length must be non-negative"))
          else retryAttempts inner maxRetries backoffMs k left (attempt + 1) (some e.text)

/-- `RetryReliability.apply`. -/
def retryApply (inner : Process κ W) (policy : Option (ReliabilityPolicy W)) (k : Continue κ W) :
    Process κ W :=
  let settings := retrySettings policy
  retryAttempts inner settings.1 settings.2 k (settings.1 + 1).toNat 0 none

/-! ### Timeout -/

/-- `timeout_ms`, with the default of `apply`. -/
def timeoutSettings (policy : Option (ReliabilityPolicy W)) : Int :=
  match policy with
  | some ⟨_, .timeout timeoutMs⟩ => timeoutMs
  | _ => 30000

/-- The branch of `except FutureTimeoutError`. -/
def timedOut (timeoutMs : Int) (start : ℚ) (k : Continue κ W) : Process κ W :=
  .act (fun s => { s with timeout :=
      ⟨s.timeout.timeoutCount + 1, s.timeout.totalTimeoutMs + (s.clock - start) * 1000⟩ }) fun _ =>
    k (.ok { failed .timeout ("Timeout after " ++ toString timeoutMs ++ "ms") with
      timeoutOccurred := true })

/-- `TimeoutReliability.apply`: on a timeout the future is left as it is.  A `TimeoutError` of the
    callable itself ends in the same branch. -/
def timeoutApply (inner : Process κ W) (policy : Option (ReliabilityPolicy W)) (k : Continue κ W) :
    Process κ W :=
  .act id fun s =>
    .await inner fun
      | some (.ok ()) => k (.ok (succeeded .timeout))
      | some (.error e) =>
        if e.isTimeout then timedOut (timeoutSettings policy) s.clock k
        else k (.ok (failed .timeout e.text))
      | none => timedOut (timeoutSettings policy) s.clock k

/-! ### Circuit breaker -/

/-- `failure_threshold` and `recovery_timeout_ms`, with the defaults of `apply`. -/
def breakerSettings (policy : Option (ReliabilityPolicy W)) : Int × Int :=
  match policy with
  | some ⟨_, .circuitBreaker failureThreshold recoveryTimeoutMs⟩ => (failureThreshold, recoveryTimeoutMs)
  | _ => (5, 30000)

/-- `CircuitBreakerReliability.apply`: admission, the call, completion. -/
def breakerApply (inner : Process κ W) (policy : Option (ReliabilityPolicy W)) (k : Continue κ W) :
    Process κ W :=
  let settings := breakerSettings policy
  .act (fun s => { s with breaker := (s.breaker.admission settings.2 s.clock).2 }) fun s =>
    if (s.breaker.admission settings.2 s.clock).1 then
      inner.bind fun
        | .ok () =>
          .act (fun s => { s with breaker := s.breaker.onSuccess s.clock }) fun s =>
            k (.ok { succeeded .circuitBreaker with
              circuitState := some (s.breaker.onSuccess s.clock).state })
        | .error e =>
          .act (fun s => { s with breaker := s.breaker.onFailure settings.1 s.clock }) fun s =>
            k (.ok { failed .circuitBreaker e.text with
              circuitState := some (s.breaker.onFailure settings.1 s.clock).state })
    else
      k (.ok { failed .circuitBreaker "Circuit is OPEN — call rejected" with
        circuitState := some .opened })

/-! ### Fallback -/

/-- `fallback_value` and `fallback_function`. -/
def fallbackSettings (policy : ReliabilityPolicy W) :
    Option String × Option (W → Outcome × W) :=
  match policy.kind with
  | .fallback value function => (value, function)
  | _ => (none, none)

/-- A fallback is configured. -/
def hasFallback (policy : ReliabilityPolicy W) : Bool :=
  (fallbackSettings policy).1.isSome || (fallbackSettings policy).2.isSome

/-- The fallback has taken over. -/
def fallbackTookOver (k : Continue κ W) : Process κ W :=
  .act (fun s => { s with fallback :=
      { s.fallback with fallbackSuccesses := s.fallback.fallbackSuccesses + 1 } }) fun _ =>
    .emit .fallbackUsed (k (.ok (succeeded .fallback)))

/-- `FallbackReliability.apply`: a disabled fallback reports success without calling. -/
def fallbackApply (inner : Process κ W) (policy : Option (ReliabilityPolicy W)) (k : Continue κ W) :
    Process κ W :=
  match policy with
  | none => k (.error noneHasNoEnabled)
  | some policy =>
    if !policy.enabled then k (.ok (succeeded .fallback))
    else
      inner.bind fun
        | .ok () => k (.ok (succeeded .fallback))
        | .error primary =>
          if !hasFallback policy then
            k (.ok (failed .fallback ("Primary failed: " ++ primary.text)))
          else
            .act (fun s => { s with fallback :=
                { s.fallback with totalFallbacks := s.fallback.totalFallbacks + 1 } }) fun _ =>
              match (fallbackSettings policy).2 with
              | none => fallbackTookOver k
              | some function =>
                .act (fun s => { s with world := (function s.world).2 }) fun s =>
                  match (function s.world).1 with
                  | .ok () => fallbackTookOver k
                  | .error e =>
                    .act (fun s => { s with fallback :=
                        { s.fallback with fallbackFailures := s.fallback.fallbackFailures + 1 } }) fun _ =>
                      k (.ok (failed .fallback ("Primary failed: " ++ primary.text ++
                        "; Fallback failed: " ++ e.text)))

/-! ### Health check -/

/-- `interval_ms` and the policy's `check_function`, with the default of `apply`. -/
def healthSettings (policy : ReliabilityPolicy W) : Int × Option (W → Except Exc Bool × W) :=
  match policy.kind with
  | .healthCheck intervalMs checkFunction => (intervalMs, checkFunction)
  | _ => (30000, none)

def healthReport (healthy : Bool) : ReliabilityResult :=
  if healthy then succeeded .healthCheck else failed .healthCheck "Service is unhealthy"

/-- A verdict is recorded and reported. -/
def healthVerdict (healthy : Bool) (k : Continue κ W) : Process κ W :=
  .act (fun s => { s with health := s.health.settle healthy }) fun _ => k (.ok (healthReport healthy))

/-- `HealthCheckReliability.apply`. -/
def healthApply (policy : Option (ReliabilityPolicy W)) (k : Continue κ W) : Process κ W :=
  match policy with
  | none => k (.error noneHasNoEnabled)
  | some policy =>
    let settings := healthSettings policy
    if !policy.enabled then k (.ok (succeeded .healthCheck))
    else
      .act (fun s => if s.health.isCached settings.1 s.clock then s
          else { s with health := s.health.beginCheck s.clock }) fun s =>
        if s.health.isCached settings.1 s.clock then k (.ok (healthReport s.health.isHealthy))
        else
          match settings.2.or s.health.defaultCheckFn with
          | some check =>
            .act (fun s => { s with world := (check s.world).2 }) fun s =>
              match (check s.world).1 with
              | .ok healthy => healthVerdict healthy k
              | .error _ => healthVerdict false k
          | none => .act id fun s => healthVerdict s.health.isHealthy k

/-! ### Rate limiter -/

/-- `max_requests` and `window_ms`, with the defaults of `apply`. -/
def limiterSettings (policy : ReliabilityPolicy W) : Int × Int :=
  match policy.kind with
  | .rateLimiter maxRequests windowMs => (maxRequests, windowMs)
  | _ => (100, 60000)

/-- `RateLimiterReliability.apply`. -/
def limiterApply (policy : Option (ReliabilityPolicy W)) (k : Continue κ W) : Process κ W :=
  match policy with
  | none => k (.error noneHasNoEnabled)
  | some policy =>
    let settings := limiterSettings policy
    if !policy.enabled then k (.ok (succeeded .rateLimiter))
    else
      .act (fun s => { s with limiter := (s.limiter.admission settings.1 settings.2 s.clock).2 }) fun s =>
        k (.ok (s.limiter.admission settings.1 settings.2 s.clock).1)

/-! ## The pipeline -/

/-- `mechanism.apply`, by name. -/
def applyMechanism (name : ReliabilityType) (inner : Process κ W)
    (policy : Option (ReliabilityPolicy W)) (k : Continue κ W) : Process κ W :=
  match name with
  | .retry => retryApply inner policy k
  | .timeout => timeoutApply inner policy k
  | .circuitBreaker => breakerApply inner policy k
  | .fallback => fallbackApply inner policy k
  | .healthCheck => healthApply policy k
  | .rateLimiter => limiterApply policy k

/-- The mechanisms after which the wrapper calls the inner callable itself. -/
def callsAfterwards (name : ReliabilityType) : Bool :=
  name == .healthCheck || name == .rateLimiter

variable [DecidableEq κ]

/-- `pipeline_results[mechanism_name] = result`. -/
def Shared.record (s : Shared κ W) (c : κ) (name : ReliabilityType) (result : ReliabilityResult) :
    Shared κ W :=
  { s with results := Function.update s.results c ((s.results c).set name result) }

/-- What the wrapper does with the mechanism's result. -/
def wrapperEnd (c : κ) (name : ReliabilityType) (inner : Process κ W) : Continue κ W
  | .error e => .ret (.error e)
  | .ok result =>
    .act (fun s => s.record c name result) fun _ =>
      if !result.success then
        .ret (.error (raise ("Reliability mechanism '" ++ name.value ++ "' failed: " ++
          result.error.getD "None")))
      else if callsAfterwards name then inner
      else .ret (.ok ())

/-- `_make_mechanism_wrapper`. -/
def wrapper (c : κ) (entry : PipelineEntry W) (inner : Process κ W) : Process κ W :=
  applyMechanism entry.name inner entry.policy (wrapperEnd c entry.name inner)

/-- The callable of the context. -/
def callable : Process κ W := .call .ret

/-- The wrapped callable of a pipeline. -/
def pipelineProcess (c : κ) (entries : List (PipelineEntry W)) : Process κ W :=
  entries.foldr (wrapper c) callable

structure PipelineResult where
  success : Bool
  results : Dict ReliabilityType ReliabilityResult
  pipelineOrder : List ReliabilityType

/-- `execute_pipeline` once the wrapped callable has ended with `outcome`. -/
def pipelineResult (s : Shared κ W) (c : κ) (entries : List (PipelineEntry W)) (outcome : Outcome) :
    PipelineResult where
  success := outcome.isOk
  results := s.results c
  pipelineOrder := entries.map PipelineEntry.name

/-- The machine of all calls of `execute_pipeline`, each with its pipeline. -/
abbrev engineStep (pipelines : κ → List (PipelineEntry W)) :
    Executor κ (Shared κ W) Outcome Mark → Move κ (Shared κ W) Outcome →
      Option (Executor κ (Shared κ W) Outcome Mark) :=
  Executor.step fun c => pipelineProcess c (pipelines c)

end Apply

end FinancialRag.Reliability
