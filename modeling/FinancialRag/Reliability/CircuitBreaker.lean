/-
  The circuit breaker over histories of calls (`mechanisms/circuit_breaker_reliability.py`).

  * `breaker_automaton` — calls that follow one another: the record of the breaker is a function of what
    its calls have come to, and a call is rejected exactly while the last failure is too recent.
  * `single_probe_iff` — calls that overlap, admission and completion being one atomic step each.  The
    file promises ONE probe while the circuit is HALF_OPEN, but admission only looks for OPEN and
    `_on_success` closes the circuit whatever its state; the theorem says which schedules get away
    with it.
-/
import FinancialRag.Lib.Machine
import FinancialRag.Reliability.Engine

set_option linter.unusedVariables false

namespace FinancialRag.Reliability

open CircuitBreakerReliability

/-! ## One call after the other -/

/-- A call: the clock at its admission and at its completion, and what the callable does if invoked. -/
structure BreakerCall where
  admitted : ℚ
  completed : ℚ
  outcome : Outcome

/-- What a call came to. -/
inductive BreakerEvent where
  | rejected
  | succeeded
  | failed (time : ℚ)
  deriving DecidableEq

/-- What `apply` leaves behind. -/
structure Applied where
  result : ReliabilityResult
  invoked : Bool
  breaker : CircuitBreakerReliability

/-- `CircuitBreakerReliability.apply` of a call that no other call overlaps. -/
def CircuitBreakerReliability.apply {W : Type} (b : CircuitBreakerReliability)
    (policy : Option (ReliabilityPolicy W)) (call : BreakerCall) : Applied :=
  let settings := breakerSettings policy
  let admission := b.admission settings.2 call.admitted
  if admission.1 then
    match call.outcome with
    | .ok () =>
      let b := admission.2.onSuccess call.completed
      ⟨{ succeeded .circuitBreaker with circuitState := some b.state }, true, b⟩
    | .error e =>
      let b := admission.2.onFailure settings.1 call.completed
      ⟨{ failed .circuitBreaker e.text with circuitState := some b.state }, true, b⟩
  else
    ⟨{ failed .circuitBreaker "Circuit is OPEN — call rejected" with circuitState := some .opened },
      false, admission.2⟩

/-- What the call came to, told from outside. -/
def BreakerCall.event (call : BreakerCall) (invoked : Bool) : BreakerEvent :=
  if invoked then
    match call.outcome with
    | .ok () => .succeeded
    | .error _ => .failed call.completed
  else .rejected

/-- The breaker after a sequence of calls, and what they came to, LATEST FIRST. -/
def serveCalls {W : Type} (policy : Option (ReliabilityPolicy W)) :
    List BreakerCall → CircuitBreakerReliability × List BreakerEvent :=
  List.foldl (fun s call =>
    let applied := s.1.apply policy call
    (applied.breaker, call.event applied.invoked :: s.2)) (.new, [])

/-- The failed invocations since the last successful one. -/
def failuresSinceSuccess : List BreakerEvent → Nat
  | [] => 0
  | .rejected :: past => failuresSinceSuccess past
  | .succeeded :: _ => 0
  | .failed _ :: past => failuresSinceSuccess past + 1

def lastFailure : List BreakerEvent → Option ℚ
  | [] => none
  | .failed time :: _ => some time
  | _ :: past => lastFailure past

/-- The breaker says what its calls came to. -/
structure Recorded (threshold : Int) (b : CircuitBreakerReliability) (past : List BreakerEvent) : Prop where
  settled : b.state ≠ .halfOpen
  opened : b.state = .opened ↔ threshold ≤ (failuresSinceSuccess past : Int)
  failures : b.failureCount = failuresSinceSuccess past
  lastFailure : b.lastFailureTime = lastFailure past
  total : b.totalRejections + b.totalSuccesses + b.totalFailures = past.length

/-- More failures than none have a last one. -/
theorem lastFailure_isSome {past : List BreakerEvent} (h : 0 < failuresSinceSuccess past) :
    ∃ time, lastFailure past = some time := by
  induction past with
  | nil => exact absurd h (Nat.lt_irrefl 0)
  | cons event past ih =>
    cases event with
    | rejected => exact ih h
    | succeeded => exact absurd h (Nat.lt_irrefl 0)
    | failed time => exact ⟨time, rfl⟩

/-- The recovery check changes the state only. -/
theorem checkRecovery_cases (b : CircuitBreakerReliability) (recoveryMs : Int) (now : ℚ) :
    (b.checkRecovery recoveryMs now = b ∧
      ∀ last, b.state = .opened → b.lastFailureTime = some last →
        (now - last) * 1000 < (recoveryMs : ℚ)) ∨
    ∃ last, b.state = .opened ∧ b.lastFailureTime = some last ∧
      (recoveryMs : ℚ) ≤ (now - last) * 1000 ∧
      b.checkRecovery recoveryMs now = { b with state := .halfOpen } := by
  unfold checkRecovery
  split
  · rename_i hopen
    split
    · rename_i hnone
      refine Or.inl ⟨rfl, ?_⟩
      intro last _ hlast
      rw [hnone] at hlast
      cases hlast
    · rename_i last hlast
      split
      · rename_i hdue
        exact Or.inr ⟨last, hopen, hlast, hdue, rfl⟩
      · rename_i hdue
        refine Or.inl ⟨rfl, ?_⟩
        intro last' _ hlast'
        obtain rfl : last = last' := Option.some.inj (hlast.symm.trans hlast')
        exact not_le.mp hdue
  · rename_i hopen
    exact Or.inl ⟨rfl, fun _ habs => absurd habs hopen⟩

namespace Recorded

variable {threshold recoveryMs : Int} {b : CircuitBreakerReliability} {past : List BreakerEvent}

theorem new (hthreshold : 1 ≤ threshold) : Recorded threshold .new [] where
  settled := by simp [CircuitBreakerReliability.new]
  opened := by
    constructor
    · intro h
      cases h
    · intro h
      have hzero : ((failuresSinceSuccess [] : Nat) : Int) = 0 := rfl
      omega
  failures := rfl
  lastFailure := rfl
  total := rfl

/-- **Whom the breaker rejects.** -/
theorem rejects_iff (h : Recorded threshold b past) (hthreshold : 1 ≤ threshold) (now : ℚ) :
    (b.admission recoveryMs now).1 = false ↔
      b.state = .opened ∧ ∃ last, Reliability.lastFailure past = some last ∧
        (now - last) * 1000 < (recoveryMs : ℚ) := by
  unfold admission
  rcases checkRecovery_cases b recoveryMs now with ⟨heq, hrecent⟩ | ⟨last, hopen, hlast, hdue, heq⟩
  · rw [heq]
    constructor
    · intro hrejected
      have hopen : b.state = .opened := by
        by_contra hne
        simp [hne] at hrejected
      have hsome : 0 < failuresSinceSuccess past := by
        have := h.opened.mp hopen
        omega
      obtain ⟨last, hlast⟩ := lastFailure_isSome hsome
      exact ⟨hopen, last, hlast, hrecent last hopen (h.lastFailure.trans hlast)⟩
    · rintro ⟨hopen, _⟩
      simp [hopen]
  · rw [heq]
    constructor
    · intro hrejected
      simp at hrejected
    · rintro ⟨_, last', hlast', hrecent⟩
      obtain rfl : last = last' := Option.some.inj (hlast.symm.trans (h.lastFailure.trans hlast'))
      exact absurd hrecent (not_lt.mpr hdue)

/-- An admitted call finds the record as it was, up to the state, which is OPEN no more. -/
theorem admitted (h : Recorded threshold b past) {now : ℚ}
    (hadmitted : (b.admission recoveryMs now).1 = true) :
    ∃ state, (b.admission recoveryMs now).2 = { b with state := state } ∧ state ≠ .opened ∧
      (state = .closed → (failuresSinceSuccess past : Int) < threshold) ∧
      (state = .halfOpen → threshold ≤ (failuresSinceSuccess past : Int)) := by
  unfold admission at hadmitted ⊢
  rcases checkRecovery_cases b recoveryMs now with ⟨heq, _⟩ | ⟨last, hopen, _, _, heq⟩
  · rw [heq] at hadmitted ⊢
    have hne : b.state ≠ .opened := by
      intro hopen
      simp [hopen] at hadmitted
    refine ⟨b.state, ?_, hne, ?_, ?_⟩
    · simp [hne]
    · intro _
      exact not_le.mp fun hle => hne (h.opened.mpr hle)
    · intro hhalf
      exact absurd hhalf h.settled
  · rw [heq]
    refine ⟨.halfOpen, ?_, by simp, by simp, ?_⟩
    · simp
    · intro _
      exact h.opened.mp hopen

/-- A rejected call is counted and changes nothing else. -/
theorem rejected (h : Recorded threshold b past) {now : ℚ}
    (hrejected : (b.admission recoveryMs now).1 = false) :
    Recorded threshold (b.admission recoveryMs now).2 (.rejected :: past) := by
  unfold admission at hrejected ⊢
  rcases checkRecovery_cases b recoveryMs now with ⟨heq, _⟩ | ⟨last, _, _, _, heq⟩
  · rw [heq] at hrejected ⊢
    have hopen : b.state = .opened := by
      by_contra hne
      simp [hne] at hrejected
    simp only [hopen, if_true]
    refine ⟨by simp, ?_, h.failures, h.lastFailure, ?_⟩
    · constructor
      · intro _
        exact h.opened.mp hopen
      · intro _
        rfl
    · have htotal := h.total
      show b.totalRejections + 1 + b.totalSuccesses + b.totalFailures = past.length + 1
      omega
  · rw [heq] at hrejected
    simp at hrejected

theorem onSuccess (h : Recorded threshold b past) (hthreshold : 1 ≤ threshold) (state : CircuitState)
    (time : ℚ) :
    Recorded threshold (CircuitBreakerReliability.onSuccess { b with state := state } time)
      (.succeeded :: past) where
  settled := by simp [CircuitBreakerReliability.onSuccess]
  opened := by
    have hzero : ((failuresSinceSuccess (.succeeded :: past) : Nat) : Int) = 0 := rfl
    constructor
    · intro habs
      cases habs
    · intro hle
      omega
  failures := rfl
  lastFailure := h.lastFailure
  total := by
    have htotal := h.total
    show b.totalRejections + (b.totalSuccesses + 1) + b.totalFailures = past.length + 1
    omega

theorem onFailure (h : Recorded threshold b past) {state : CircuitState} (hstate : state ≠ .opened)
    (hhalf : state = .halfOpen → threshold ≤ (failuresSinceSuccess past : Int)) (time : ℚ) :
    Recorded threshold (CircuitBreakerReliability.onFailure { b with state := state } threshold time)
      (.failed time :: past) := by
  have hcount : b.failureCount + 1 = failuresSinceSuccess (.failed time :: past) := by
    rw [h.failures]
    rfl
  have hsucc : ((failuresSinceSuccess (.failed time :: past) : Nat) : Int) =
      (failuresSinceSuccess past : Int) + 1 := rfl
  have htotal : b.totalRejections + b.totalSuccesses + (b.totalFailures + 1) = past.length + 1 := by
    have := h.total
    omega
  unfold CircuitBreakerReliability.onFailure
  by_cases hprobe : state = .halfOpen
  · have hle := hhalf hprobe
    simp only [hprobe, if_true]
    refine ⟨by simp, ?_, hcount, rfl, htotal⟩
    constructor
    · intro _
      omega
    · intro _
      rfl
  · simp only [hprobe, if_false]
    split
    · rename_i hle
      refine ⟨by simp, ?_, hcount, rfl, htotal⟩
      constructor
      · intro _
        rw [← hcount]
        exact hle
      · intro _
        rfl
    · rename_i hlt
      refine ⟨hprobe, ?_, hcount, rfl, htotal⟩
      constructor
      · intro habs
        exact absurd habs hstate
      · intro hle
        rw [← hcount] at hle
        exact absurd hle hlt

end Recorded

section Sequential

variable (W : Type)

/-- **The call lemma.**  One call keeps the record up with what it came to. -/
theorem Recorded.apply (enabled : Bool) {threshold : Int} (recoveryMs : Int) (hthreshold : 1 ≤ threshold)
    {b : CircuitBreakerReliability} {past : List BreakerEvent} (h : Recorded threshold b past)
    (call : BreakerCall) :
    let policy : Option (ReliabilityPolicy W) := some ⟨enabled, .circuitBreaker threshold recoveryMs⟩
    let applied := b.apply policy call
    Recorded threshold applied.breaker (call.event applied.invoked :: past) ∧
      applied.invoked = (b.admission recoveryMs call.admitted).1 := by
  intro policy applied
  show Recorded threshold (b.apply policy call).breaker
    (call.event (b.apply policy call).invoked :: past) ∧ (b.apply policy call).invoked = _
  unfold CircuitBreakerReliability.apply
  show Recorded threshold (Applied.breaker (if (b.admission recoveryMs call.admitted).1 then _ else _)) _ ∧ _
  by_cases hadmitted : (b.admission recoveryMs call.admitted).1 = true
  · obtain ⟨state, hbreaker, hstate, _, hhalf⟩ := h.admitted hadmitted
    simp only [policy, breakerSettings, hadmitted, if_true, hbreaker]
    cases houtcome : call.outcome with
    | ok u =>
      refine ⟨?_, rfl⟩
      show Recorded threshold _ (call.event true :: past)
      unfold BreakerCall.event
      rw [if_pos rfl, houtcome]
      exact h.onSuccess hthreshold state call.completed
    | error e =>
      refine ⟨?_, rfl⟩
      show Recorded threshold _ (call.event true :: past)
      unfold BreakerCall.event
      rw [if_pos rfl, houtcome]
      exact h.onFailure hstate hhalf call.completed
  · have hrejected := Bool.eq_false_iff.mpr hadmitted
    simp only [policy, breakerSettings, hrejected]
    exact ⟨h.rejected hrejected, rfl⟩

/-- The record is kept up over any sequence of calls. -/
theorem recorded_serveCalls (enabled : Bool) {threshold : Int} (recoveryMs : Int)
    (hthreshold : 1 ≤ threshold) (calls : List BreakerCall) :
    let policy : Option (ReliabilityPolicy W) := some ⟨enabled, .circuitBreaker threshold recoveryMs⟩
    let served := serveCalls policy calls
    Recorded threshold served.1 served.2 ∧ served.2.length = calls.length := by
  intro policy served
  show Recorded threshold (serveCalls policy calls).1 (serveCalls policy calls).2 ∧
    (serveCalls policy calls).2.length = calls.length
  unfold serveCalls
  induction calls using List.reverseRecOn with
  | nil => exact ⟨.new hthreshold, rfl⟩
  | append_singleton calls call ih =>
    rw [List.foldl_append]
    refine ⟨(ih.1.apply W enabled recoveryMs hthreshold call).1, ?_⟩
    rw [List.length_append]
    exact congrArg (· + 1) ih.2

/-- **The automaton.**  After any calls that follow one another, the circuit is CLOSED or OPEN, OPEN
    exactly from `failure_threshold` failures since the last success on; the next call is rejected,
    and its callable not invoked, exactly while the circuit is OPEN and the last failure less than
    `recovery_timeout_ms` ago; and every call is counted once. -/
theorem breaker_automaton (enabled : Bool) {threshold : Int} (recoveryMs : Int)
    (hthreshold : 1 ≤ threshold) (calls : List BreakerCall) :
    let policy : Option (ReliabilityPolicy W) := some ⟨enabled, .circuitBreaker threshold recoveryMs⟩
    let b := (serveCalls policy calls).1
    let past := (serveCalls policy calls).2
    b.state ≠ .halfOpen ∧
      (b.state = .opened ↔ threshold ≤ (failuresSinceSuccess past : Int)) ∧
      b.failureCount = failuresSinceSuccess past ∧
      (∀ call, (b.apply policy call).invoked = false ↔
        b.state = .opened ∧ ∃ last, lastFailure past = some last ∧
          (call.admitted - last) * 1000 < (recoveryMs : ℚ)) ∧
      b.totalRejections + b.totalSuccesses + b.totalFailures = calls.length := by
  intro policy b past
  obtain ⟨hrecorded, hlength⟩ := recorded_serveCalls W enabled recoveryMs hthreshold calls
  refine ⟨hrecorded.settled, hrecorded.opened, hrecorded.failures, ?_, hrecorded.total.trans hlength⟩
  intro call
  rw [(hrecorded.apply W enabled recoveryMs hthreshold call).2]
  exact hrecorded.rejects_iff hthreshold call.admitted

/-- Two failures open the circuit; a call half a second later is rejected, a probe after the timeout
    fails, and one after that succeeds. -/
def sampleCalls : List BreakerCall :=
  [⟨0, 1, .error (raise "down")⟩, ⟨2, 3, .error (raise "down")⟩, ⟨7 / 2, 7 / 2, .ok ()⟩,
    ⟨5, 6, .error (raise "down")⟩, ⟨9, 10, .ok ()⟩]

theorem sampleCalls_automaton :
    let policy : Option (ReliabilityPolicy Unit) := some ⟨true, .circuitBreaker 2 1000⟩
    let b := (serveCalls policy sampleCalls).1
    (serveCalls policy sampleCalls).2 =
        [.succeeded, .failed 6, .rejected, .failed 3, .failed 1] ∧
      b.state ≠ .halfOpen ∧ b.totalRejections + b.totalSuccesses + b.totalFailures = 5 := by
  have h := breaker_automaton Unit true 1000 (by decide : (1 : Int) ≤ 2) sampleCalls
  refine ⟨?_, h.1, h.2.2.2.2⟩
  decide +kernel

end Sequential

/-! ## Calls that overlap -/

/-- A call in flight: the state it was admitted in, and how often the circuit had opened by then. -/
structure Admission where
  state : CircuitState
  openings : Nat
  deriving DecidableEq

/-- One breaker and the callers that share it.  `openings` counts how often the circuit has opened, and
    `staleClosings` how often a call admitted before the circuit opened has closed it. -/
structure SharedBreaker (κ : Type) where
  breaker : CircuitBreakerReliability
  inFlight : κ → Option Admission
  openings : Nat
  staleClosings : Nat

/-- A call arrives, its callable returns or raises; each caller brings its own policy. -/
inductive BreakerMove (κ : Type) where
  | arrive (c : κ) (recoveryTimeoutMs : Int) (now : ℚ)
  | succeed (c : κ) (now : ℚ)
  | fail (c : κ) (failureThreshold : Int) (now : ℚ)

namespace SharedBreaker

variable {κ : Type}

def new : SharedBreaker κ := ⟨.new, fun _ => none, 0, 0⟩

/-- The call in flight was admitted while the circuit was HALF_OPEN. -/
def IsProbe (s : SharedBreaker κ) (c : κ) : Prop :=
  ∃ admission, s.inFlight c = some admission ∧ admission.state = .halfOpen

/-- At most one probe is in flight, and no call has closed a circuit that opened after its admission. -/
structure SingleProbe (s : SharedBreaker κ) : Prop where
  single : ∀ c d, s.IsProbe c → s.IsProbe d → c = d
  notStale : s.staleClosings = 0

/-- The schedules that get away with it: whoever arrives at a HALF_OPEN circuit, or at an OPEN one whose
    recovery timeout has passed, finds no probe in flight; and who succeeds does not find it OPEN. -/
def Spaced (s : SharedBreaker κ) : BreakerMove κ → Prop
  | .arrive _ recoveryMs now => (s.breaker.checkRecovery recoveryMs now).state = .halfOpen → ∀ d, ¬ s.IsProbe d
  | .succeed _ _ => s.breaker.state ≠ .opened
  | .fail _ _ _ => True

/-- Nobody in flight knows of an opening yet to come, and while the circuit is OPEN, nobody of the last. -/
structure Dated (s : SharedBreaker κ) : Prop where
  past : ∀ c admission, s.inFlight c = some admission → admission.openings ≤ s.openings
  opened : s.breaker.state = .opened → ∀ c admission, s.inFlight c = some admission →
    admission.openings < s.openings

theorem dated_new : (new : SharedBreaker κ).Dated where
  past := by
    intro c admission h
    cases h
  opened := by
    intro h
    cases h

theorem singleProbe_new : (new : SharedBreaker κ).SingleProbe where
  single := by
    rintro c d ⟨_, habs, _⟩
    cases habs
  notStale := rfl

/-- The state an arriving call is admitted in is the one the recovery check leaves. -/
theorem admission_cases (b : CircuitBreakerReliability) (recoveryMs : Int) (now : ℚ) :
    ((b.admission recoveryMs now).1 = false ∧ (b.admission recoveryMs now).2.state = .opened ∧
        b.state = .opened) ∨
      ((b.admission recoveryMs now).1 = true ∧
        (b.admission recoveryMs now).2 = b.checkRecovery recoveryMs now ∧
        (b.checkRecovery recoveryMs now).state ≠ .opened) := by
  unfold admission
  by_cases hopen : (b.checkRecovery recoveryMs now).state = .opened
  · left
    refine ⟨by simp [hopen], by simp [hopen], ?_⟩
    rcases checkRecovery_cases b recoveryMs now with ⟨heq, _⟩ | ⟨_, hb, _⟩
    · rwa [heq] at hopen
    · exact hb
  · exact Or.inr ⟨by simp [hopen], by simp [hopen], hopen⟩

variable [DecidableEq κ]

/-- Admission and completion, one atomic step each. -/
def step (s : SharedBreaker κ) : BreakerMove κ → Option (SharedBreaker κ)
  | .arrive c recoveryMs now =>
    match s.inFlight c with
    | some _ => none
    | none =>
      let admission := s.breaker.admission recoveryMs now
      some { s with
        breaker := admission.2
        inFlight := if admission.1 then
            Function.update s.inFlight c (some ⟨admission.2.state, s.openings⟩)
          else s.inFlight }
  | .succeed c now =>
    match s.inFlight c with
    | none => none
    | some admission =>
      some { s with
        breaker := s.breaker.onSuccess now
        inFlight := Function.update s.inFlight c none
        -- the circuit is closed although it opened after this call was admitted
        staleClosings := if s.breaker.state = .opened ∧ admission.openings < s.openings then
            s.staleClosings + 1
          else s.staleClosings }
  | .fail c threshold now =>
    match s.inFlight c with
    | none => none
    | some _ =>
      let breaker := s.breaker.onFailure threshold now
      some { s with
        breaker := breaker
        inFlight := Function.update s.inFlight c none
        openings := if s.breaker.state ≠ .opened ∧ breaker.state = .opened then s.openings + 1
          else s.openings }

theorem isProbe_update {s : SharedBreaker κ} {c d : κ} {x : Option Admission}
    {t : SharedBreaker κ} (ht : t.inFlight = Function.update s.inFlight c x) (h : t.IsProbe d) :
    (d = c ∧ ∃ admission, x = some admission ∧ admission.state = .halfOpen) ∨ (d ≠ c ∧ s.IsProbe d) := by
  obtain ⟨admission, hadmission, hstate⟩ := h
  rw [ht] at hadmission
  rcases Machine.update_cases hadmission with ⟨rfl, rfl⟩ | ⟨hne, hold⟩
  · exact Or.inl ⟨rfl, admission, rfl, hstate⟩
  · exact Or.inr ⟨hne, admission, hold, hstate⟩

/-- A completed call is in flight no more, and nobody else is touched. -/
theorem inFlight_of_update_none {s t : SharedBreaker κ} {c d : κ} {admission : Admission}
    (ht : t.inFlight = Function.update s.inFlight c none) (h : t.inFlight d = some admission) :
    s.inFlight d = some admission := by
  rw [ht] at h
  rcases Machine.update_cases h with ⟨_, habs⟩ | ⟨_, hold⟩
  · cases habs
  · exact hold

/-- The dates are kept by every step. -/
theorem Dated.step {s t : SharedBreaker κ} {m : BreakerMove κ} (h : s.Dated)
    (hstep : step s m = some t) : t.Dated := by
  cases m with
  | arrive c recoveryMs now =>
    simp only [SharedBreaker.step] at hstep
    split at hstep
    · cases hstep
    · cases hstep
      rcases admission_cases s.breaker recoveryMs now with ⟨hadmitted, _, hopen⟩ | ⟨hadmitted, heq, hne⟩
      · simp only [hadmitted]
        exact ⟨h.past, fun _ => h.opened hopen⟩
      · simp only [hadmitted, if_true]
        refine ⟨?_, ?_⟩
        · intro d admission hd
          rcases Machine.update_cases hd with ⟨_, hnew⟩ | ⟨_, hold⟩
          · obtain rfl := Option.some.inj hnew
            exact le_refl _
          · exact h.past d admission hold
        · intro habs
          rw [heq] at habs
          exact absurd habs hne
  | succeed c now =>
    simp only [SharedBreaker.step] at hstep
    split at hstep
    · cases hstep
    · cases hstep
      refine ⟨?_, ?_⟩
      · intro d admission hd
        exact h.past d admission (inFlight_of_update_none rfl hd)
      · intro habs
        cases habs
  | fail c threshold now =>
    simp only [SharedBreaker.step] at hstep
    split at hstep
    · cases hstep
    · cases hstep
      refine ⟨?_, ?_⟩
      · intro d admission hd
        have hpast := h.past d admission (inFlight_of_update_none rfl hd)
        show admission.openings ≤ if _ then _ else _
        split
        · exact Nat.le_succ_of_le hpast
        · exact hpast
      · intro hopened d admission hd
        have hold := inFlight_of_update_none rfl hd
        have hpast := h.past d admission hold
        show admission.openings < if _ then _ else _
        split
        · exact Nat.lt_succ_of_le hpast
        · rename_i hsame
          by_cases hbefore : s.breaker.state = .opened
          · exact h.opened hbefore d admission hold
          · exact absurd ⟨hbefore, hopened⟩ hsame

/-- A step of a spaced schedule leaves one probe at most. -/
theorem SingleProbe.step {s t : SharedBreaker κ} {m : BreakerMove κ} (h : s.SingleProbe)
    (hspaced : Spaced s m) (hstep : step s m = some t) :
    t.SingleProbe := by
  cases m with
  | arrive c recoveryMs now =>
    simp only [SharedBreaker.step] at hstep
    split at hstep
    · cases hstep
    · rename_i hidle
      cases hstep
      refine ⟨?_, h.notStale⟩
      rcases admission_cases s.breaker recoveryMs now with ⟨hadmitted, _, _⟩ | ⟨hadmitted, heq, _⟩
      · simp only [hadmitted]
        exact h.single
      · simp only [hadmitted, if_true]
        -- a new probe was admitted only where there was none
        intro d e hd he
        rcases isProbe_update rfl hd with ⟨rfl, a, ha, hprobe⟩ | ⟨_, hd'⟩ <;>
          rcases isProbe_update rfl he with ⟨rfl, a', ha', hprobe'⟩ | ⟨_, he'⟩
        · rfl
        · obtain rfl := Option.some.inj ha
          rw [heq] at hprobe
          exact absurd he' (hspaced hprobe e)
        · obtain rfl := Option.some.inj ha'
          rw [heq] at hprobe'
          exact absurd hd' (hspaced hprobe' d)
        · exact h.single d e hd' he'
  | succeed c now =>
    simp only [SharedBreaker.step] at hstep
    split at hstep
    · cases hstep
    · cases hstep
      refine ⟨?_, ?_⟩
      · intro d e hd he
        obtain ⟨a, ha, hprobe⟩ := hd
        obtain ⟨a', ha', hprobe'⟩ := he
        exact h.single d e ⟨a, inFlight_of_update_none rfl ha, hprobe⟩
          ⟨a', inFlight_of_update_none rfl ha', hprobe'⟩
      · show (if _ then _ else _) = 0
        rw [if_neg]
        · exact h.notStale
        · rintro ⟨habs, _⟩
          exact hspaced habs
  | fail c threshold now =>
    simp only [SharedBreaker.step] at hstep
    split at hstep
    · cases hstep
    · cases hstep
      refine ⟨?_, h.notStale⟩
      intro d e hd he
      obtain ⟨a, ha, hprobe⟩ := hd
      obtain ⟨a', ha', hprobe'⟩ := he
      exact h.single d e ⟨a, inFlight_of_update_none rfl ha, hprobe⟩
        ⟨a', inFlight_of_update_none rfl ha', hprobe'⟩

/-- A step that is not spaced does the damage at once. -/
theorem not_singleProbe_step {s t : SharedBreaker κ} {m : BreakerMove κ} (hdated : s.Dated)
    (hspaced : ¬ Spaced s m) (hstep : step s m = some t) :
    ¬ t.SingleProbe := by
  cases m with
  | arrive c recoveryMs now =>
    simp only [SharedBreaker.step] at hstep
    split at hstep
    · cases hstep
    · rename_i hidle
      cases hstep
      obtain ⟨hhalf, hprobes⟩ := Classical.not_imp.mp hspaced
      obtain ⟨d, hd⟩ := not_forall_not.mp hprobes
      rcases admission_cases s.breaker recoveryMs now with ⟨_, _, hopen⟩ | ⟨hadmitted, heq, _⟩
      · rename_i hrejected hstill
        exfalso
        unfold admission at hstill
        simp [hhalf] at hstill
      · simp only [hadmitted, if_true]
        intro hsingle
        obtain ⟨a, ha, hprobe⟩ := hd
        have hne : d ≠ c := by
          rintro rfl
          rw [hidle] at ha
          cases ha
        have hnew := hsingle.single c d
          ⟨_, Function.update_self .., by rw [heq]; exact hhalf⟩
          ⟨a, (Function.update_of_ne hne _ _).trans ha, hprobe⟩
        exact hne hnew.symm
  | succeed c now =>
    simp only [SharedBreaker.step] at hstep
    split at hstep
    · cases hstep
    · rename_i admission hflight
      cases hstep
      have hopen : s.breaker.state = .opened := not_not.mp hspaced
      intro hsingle
      have hstale : (if s.breaker.state = .opened ∧ admission.openings < s.openings then
          s.staleClosings + 1 else s.staleClosings) = 0 := hsingle.notStale
      rw [if_pos ⟨hopen, hdated.opened hopen c admission hflight⟩] at hstale
      exact absurd hstale (Nat.succ_ne_zero _)
  | fail c threshold now => exact absurd trivial hspaced

/-- **Exactly the spaced schedules keep to one probe**: a schedule passes only through states with at most
    one probe in flight, none of its calls having closed a circuit that opened after its admission, if
    and only if every arrival at a circuit due for a probe finds none in flight, and no call succeeds
    while the circuit is OPEN. -/
theorem single_probe_iff {ms : List (BreakerMove κ)} {t : SharedBreaker κ}
    (h : Machine.exec step new ms = some t) :
    (∀ pre suf u, ms = pre ++ suf → Machine.exec step new pre = some u →
        u.SingleProbe) ↔
      Machine.Run step Spaced new ms t := by
  refine Machine.good_prefixes_iff_run (I := fun s : SharedBreaker κ => s.SingleProbe ∧ s.Dated)
    ?_ ?_ ?_ ⟨singleProbe_new, dated_new⟩ h
  · intro s hs
    exact hs.1
  · rintro s m u ⟨hsingle, hdated⟩ hspaced hstep
    exact ⟨hsingle.step hspaced hstep, hdated.step hstep⟩
  · rintro s m u ⟨_, hdated⟩ hspaced hstep
    exact not_singleProbe_step hdated hspaced hstep

/-- A test that only spaced moves of two callers pass. -/
def spacedTest (s : SharedBreaker Bool) : BreakerMove Bool → Bool
  | .arrive _ recoveryMs now =>
    decide ((s.breaker.checkRecovery recoveryMs now).state ≠ .halfOpen) ||
      [true, false].all fun d => (s.inFlight d).all fun admission => admission.state != .halfOpen
  | .succeed _ _ => s.breaker.state != .opened
  | .fail _ _ _ => true

theorem spaced_of_test (s : SharedBreaker Bool) (m : BreakerMove Bool) (h : spacedTest s m = true) :
    Spaced s m := by
  cases m with
  | arrive c recoveryMs now =>
    rintro hhalf d ⟨admission, hd, hprobe⟩
    simp only [spacedTest, hhalf] at h
    cases d <;> simp [hd, hprobe] at h
  | succeed c now =>
    intro hopen
    simp only [spacedTest, hopen] at h
    cases h
  | fail c threshold now => trivial

/-- The circuit opens, a call is rejected, a probe succeeds, and a call fails in the closed circuit. -/
def oneProbe : List (BreakerMove Bool) :=
  [.arrive true 30000 0, .fail true 1 1, .arrive false 30000 2, .arrive true 30000 32,
    .succeed true 33, .arrive false 30000 34, .fail false 5 35]

theorem oneProbe_single :
    ∃ t, Machine.exec step new oneProbe = some t ∧ t.openings = 1 ∧ t.breaker.state = .closed ∧
      ∀ pre suf u, oneProbe = pre ++ suf → Machine.exec step new pre = some u → u.SingleProbe := by
  have hexec : (Machine.execIf spacedTest step new oneProbe).any (fun t =>
      decide (t.openings = 1) && decide (t.breaker.state = .closed)) = true := by decide +kernel
  obtain ⟨t, ht, hend⟩ := (Option.any_eq_true _ _).mp hexec
  have hrun : Machine.Run step Spaced new oneProbe t := Machine.run_of_execIf spaced_of_test ht
  have halways : Machine.Run step Machine.Always new oneProbe t :=
    hrun.strengthen (I := fun _ => True) (fun _ _ _ _ _ _ => trivial) (fun _ _ _ _ => trivial) trivial
  simp only [Bool.and_eq_true, decide_eq_true_eq] at hend
  exact ⟨t, Machine.run_iff_exec.mp halways, hend.1, hend.2,
    (single_probe_iff (Machine.run_iff_exec.mp halways)).mpr hrun⟩

/-- Two callers arrive after the recovery timeout, before the first probe has completed. -/
def twoProbes : List (BreakerMove Bool) :=
  [.arrive true 30000 0, .fail true 1 1, .arrive true 30000 32, .arrive false 30000 32]

/-- A call outlives the failure that opens the circuit, and succeeds. -/
def straggler : List (BreakerMove Bool) :=
  [.arrive true 30000 0, .arrive false 30000 0, .fail false 1 1, .succeed true 2]

/-- Two probes are in flight at once, and a success from before the opening closes the circuit. -/
theorem two_probes_and_stale_closing :
    (∃ t, Machine.exec step new twoProbes = some t ∧ t.IsProbe true ∧ t.IsProbe false) ∧
      ∃ t, Machine.exec step new straggler = some t ∧ t.staleClosings = 1 ∧
        t.breaker.state = .closed := by
  constructor
  · have hexec : (Machine.exec step new twoProbes).any (fun t =>
        decide (t.inFlight true = some ⟨.halfOpen, 1⟩) &&
          decide (t.inFlight false = some ⟨.halfOpen, 1⟩)) = true := by decide +kernel
    obtain ⟨t, ht, hend⟩ := (Option.any_eq_true _ _).mp hexec
    simp only [Bool.and_eq_true, decide_eq_true_eq] at hend
    exact ⟨t, ht, ⟨_, hend.1, rfl⟩, _, hend.2, rfl⟩
  · have hexec : (Machine.exec step new straggler).any (fun t =>
        decide (t.staleClosings = 1) && decide (t.breaker.state = .closed)) = true := by
      decide +kernel
    obtain ⟨t, ht, hend⟩ := (Option.any_eq_true _ _).mp hexec
    simp only [Bool.and_eq_true, decide_eq_true_eq] at hend
    exact ⟨t, ht, hend.1, hend.2⟩

end SharedBreaker

end FinancialRag.Reliability
