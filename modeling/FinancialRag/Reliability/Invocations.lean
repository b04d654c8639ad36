/-
  How often, and how late, a reliability pipeline calls its callable.

  * `pipeline_invocations` — however often timers fire, one call of `execute_pipeline` invokes the
    callable at most as often as the attempts of its retry entries multiply to: every wrapper multiplies
    the weight of what it wraps by its attempts (`weight_wrapper_le`).
  * `late_invocation` — after the call has returned, only the worker can still invoke the callable, and
    only if a timeout of the call had fired.  The future of a timeout is never cancelled, so this
    happens (`invocation_after_timeout`).
-/
import Mathlib.Algebra.BigOperators.Group.List.Basic
import FinancialRag.Lib.ExecutorCalls
import FinancialRag.Lib.ExecutorTickets
import FinancialRag.Reliability.Engine

set_option linter.unusedVariables false

namespace FinancialRag.Reliability

variable {κ W : Type}

/-! ## The weight of a wrapper -/

/-- How often an entry may run what it wraps. -/
def attempts (entry : PipelineEntry W) : Nat :=
  match entry.name with
  | .retry => ((retrySettings entry.policy).1 + 1).toNat
  | _ => 1

section Mechanisms

variable {inner : Process κ W} {k : Continue κ W} {n : ℕ∞}

theorem weight_retryAttempts_le (hk : ∀ res, (k res).weight ≤ n) (maxRetries backoffMs : Int)
    (left attempt : Nat) (lastError : Option String) :
    (retryAttempts inner maxRetries backoffMs k left attempt lastError).weight ≤
      left * inner.weight + n := by
  induction left generalizing attempt lastError with
  | zero =>
    refine Proc.weight_act_le fun s => (hk _).trans ?_
    exact le_add_self
  | succ left ih =>
    have hrest : ∀ m : ℕ∞, n ≤ m + n := fun m => le_add_self
    have hbind : (retryAttempts inner maxRetries backoffMs k (left + 1) attempt lastError).weight ≤
        inner.weight + (left * inner.weight + n) := by
      refine Proc.weight_bind_le _ _ ?_
      intro r
      cases r with
      | ok u => exact Proc.weight_act_le fun s => (hk _).trans (hrest _)
      | error e =>
        refine Proc.weight_act_le fun s => ?_
        show Proc.weight (if _ then _ else _) ≤ _
        split
        · exact (hk _).trans (hrest _)
        · exact ih (attempt + 1) (some e.text)
    refine hbind.trans (le_of_eq ?_)
    push_cast
    ring

theorem weight_timeoutApply_le (hk : ∀ res, (k res).weight ≤ n)
    (policy : Option (ReliabilityPolicy W)) :
    (timeoutApply inner policy k).weight ≤ inner.weight + n := by
  refine Proc.weight_act_le fun s => ?_
  have htimedOut : ∀ ms start, (timedOut ms start k).weight ≤ n :=
    fun ms start => Proc.weight_act_le fun s => hk _
  show inner.weight + ⨆ r, _ ≤ _
  gcongr
  refine iSup_le fun r => ?_
  rcases r with _ | r
  · exact htimedOut _ _
  · cases r with
    | ok u => exact hk _
    | error e =>
      show Proc.weight (if _ then _ else _) ≤ _
      split
      · exact htimedOut _ _
      · exact hk _

theorem weight_breakerApply_le (hk : ∀ res, (k res).weight ≤ n)
    (policy : Option (ReliabilityPolicy W)) :
    (breakerApply inner policy k).weight ≤ inner.weight + n := by
  refine Proc.weight_act_le fun s => ?_
  show Proc.weight (if _ then _ else _) ≤ _
  split
  · refine Proc.weight_bind_le _ _ ?_
    intro r
    cases r with
    | ok u => exact Proc.weight_act_le fun s => hk _
    | error e => exact Proc.weight_act_le fun s => hk _
  · exact (hk _).trans le_add_self

theorem weight_fallbackApply_le (hk : ∀ res, (k res).weight ≤ n)
    (policy : Option (ReliabilityPolicy W)) :
    (fallbackApply inner policy k).weight ≤ inner.weight + n := by
  have htook : (fallbackTookOver k).weight ≤ n := Proc.weight_act_le fun s => hk _
  cases policy with
  | none => exact (hk _).trans le_add_self
  | some policy =>
    show Proc.weight (if _ then _ else _) ≤ _
    split
    · exact (hk _).trans le_add_self
    · refine Proc.weight_bind_le _ _ ?_
      intro r
      cases r with
      | ok u => exact hk _
      | error primary =>
        show Proc.weight (if _ then _ else _) ≤ _
        split
        · exact hk _
        · refine Proc.weight_act_le fun s => ?_
          dsimp only
          split
          · exact htook
          · rename_i function _
            refine Proc.weight_act_le fun s' => ?_
            split
            · exact htook
            · exact Proc.weight_act_le fun s'' => hk _

/-- A health check only acts, and goes on with its result. -/
theorem defers_healthApply {inner : Process κ W} (hk : ∀ res, Proc.Defers inner (k res))
    (policy : Option (ReliabilityPolicy W)) : Proc.Defers inner (healthApply policy k) := by
  have hverdict : ∀ healthy, Proc.Defers inner (healthVerdict healthy k) :=
    fun healthy => .act _ fun s => hk _
  cases policy with
  | none => exact hk _
  | some policy =>
    show Proc.Defers inner (if _ then _ else _)
    split
    · exact hk _
    · refine .act _ fun s => ?_
      show Proc.Defers inner (if _ then _ else _)
      split
      · exact hk _
      · split
        · rename_i check _
          refine .act _ fun s' => ?_
          split
          · exact hverdict _
          · exact hverdict _
        · exact .act _ fun s' => hverdict _

theorem defers_limiterApply {inner : Process κ W} (hk : ∀ res, Proc.Defers inner (k res))
    (policy : Option (ReliabilityPolicy W)) : Proc.Defers inner (limiterApply policy k) := by
  cases policy with
  | none => exact hk _
  | some policy =>
    show Proc.Defers inner (if _ then _ else _)
    split
    · exact hk _
    · exact .act _ fun s => hk _

variable [DecidableEq κ]

/-- What follows the mechanism returns, or goes on as the inner callable. -/
theorem defers_wrapperEnd (c : κ) (name : ReliabilityType) (inner : Process κ W)
    (res : Except Exc ReliabilityResult) : Proc.Defers inner (wrapperEnd c name inner res) := by
  cases res with
  | error e => exact .ret _
  | ok result =>
    refine .act _ fun s => ?_
    show Proc.Defers inner (if _ then _ else _)
    split
    · exact .ret _
    · split
      · exact .here
      · exact .ret _

/-- A health check or a rate limiter leaves the call to what it wraps. -/
theorem defers_wrapper (c : κ) (entry : PipelineEntry W) (inner : Process κ W)
    (hafter : callsAfterwards entry.name = true) : Proc.Defers inner (wrapper c entry inner) := by
  obtain ⟨name, policy⟩ := entry
  cases name with
  | healthCheck => exact defers_healthApply (defers_wrapperEnd c _ inner) policy
  | rateLimiter => exact defers_limiterApply (defers_wrapperEnd c _ inner) policy
  | _ => cases hafter

theorem weight_wrapperEnd_eq (c : κ) {name : ReliabilityType} (hafter : callsAfterwards name = false)
    (inner : Process κ W) (res : Except Exc ReliabilityResult) :
    (wrapperEnd c name inner res).weight ≤ 0 := by
  cases res with
  | error e => exact le_rfl
  | ok result =>
    refine Proc.weight_act_le fun s => ?_
    rw [hafter]
    show Proc.weight (if _ then _ else _) ≤ _
    split
    · exact le_rfl
    · exact le_rfl

/-- **A wrapper runs what it wraps at most `attempts` times.** -/
theorem weight_wrapper_le (c : κ) (entry : PipelineEntry W) (inner : Process κ W) :
    (wrapper c entry inner).weight ≤ attempts entry * inner.weight := by
  have hone : ∀ {p : Process κ W}, p.weight ≤ inner.weight + 0 →
      p.weight ≤ ((1 : Nat) : ℕ∞) * inner.weight := by
    intro p hp
    rwa [Nat.cast_one, one_mul, ← add_zero inner.weight]
  by_cases hafter : callsAfterwards entry.name = true
  · have hattempts : attempts entry = 1 := by
      obtain ⟨name, policy⟩ := entry
      cases name with
      | retry => cases hafter
      | _ => rfl
    rw [hattempts, Nat.cast_one, one_mul]
    exact (defers_wrapper c entry inner hafter).weight_le
  · have hend := weight_wrapperEnd_eq c (Bool.eq_false_iff.mpr hafter) inner
    obtain ⟨name, policy⟩ := entry
    cases name with
    | retry =>
      refine (weight_retryAttempts_le hend _ _ _ _ _).trans (le_of_eq ?_)
      rw [add_zero]
      rfl
    | timeout => exact hone (weight_timeoutApply_le hend policy)
    | circuitBreaker => exact hone (weight_breakerApply_le hend policy)
    | fallback => exact hone (weight_fallbackApply_le hend policy)
    | healthCheck => exact absurd rfl hafter
    | rateLimiter => exact absurd rfl hafter

end Mechanisms

/-! ## How often -/

section Runs

variable [DecidableEq κ]

theorem weight_pipelineProcess_le (c : κ) (entries : List (PipelineEntry W)) :
    (pipelineProcess c entries).weight ≤ ((entries.map attempts).prod : Nat) := by
  induction entries with
  | nil =>
    show 1 + ⨆ r : Outcome, (0 : ℕ∞) ≤ _
    simp
  | cons entry entries ih =>
    rw [List.map_cons, List.prod_cons, Nat.cast_mul]
    refine (weight_wrapper_le c entry _).trans ?_
    gcongr
    exact ih

/-- `max_retries + 1` of each retry entry. -/
def retryAllowances (entries : List (PipelineEntry W)) : List Int :=
  (entries.filter fun entry => decide (entry.name = .retry)).map fun entry =>
    (retrySettings entry.policy).1 + 1

/-- Only the retry entries count. -/
theorem prod_attempts (entries : List (PipelineEntry W))
    (hretries : ∀ entry ∈ entries, entry.name = .retry → 0 ≤ (retrySettings entry.policy).1) :
    (((entries.map attempts).prod : Nat) : Int) = (retryAllowances entries).prod := by
  induction entries with
  | nil => rfl
  | cons entry entries ih =>
    have hrest := ih fun e he => hretries e (List.mem_cons_of_mem _ he)
    have hnonneg := hretries entry List.mem_cons_self
    unfold retryAllowances at hrest ⊢
    rw [List.map_cons, List.prod_cons, Nat.cast_mul, hrest]
    by_cases hname : entry.name = .retry
    · rw [List.filter_cons_of_pos (by simpa using hname), List.map_cons, List.prod_cons]
      have hattempts : (attempts entry : Int) = (retrySettings entry.policy).1 + 1 := by
        have hsettings := hnonneg hname
        unfold attempts
        rw [hname]
        show ((((retrySettings entry.policy).1 + 1).toNat : Nat) : Int) = _
        omega
      rw [hattempts]
    · rw [List.filter_cons_of_neg (by simpa using hname)]
      have hattempts : attempts entry = 1 := by
        unfold attempts
        split
        · rename_i habs
          exact absurd habs hname
        · rfl
      rw [hattempts, Nat.cast_one, one_mul]

/-- **The invocations of one call**: at most the product of what its retry entries allow, timers firing
    or not; and a health check or a rate limiter makes none of its own. -/
theorem pipeline_invocations (pipelines : κ → List (PipelineEntry W)) (c : κ)
    (hretries : ∀ entry ∈ pipelines c, entry.name = .retry → 0 ≤ (retrySettings entry.policy).1)
    {shared : Shared κ W} {ms : List (Move κ (Shared κ W) Outcome)}
    {t : Executor κ (Shared κ W) Outcome Mark}
    (h : Machine.Run (engineStep pipelines) Machine.Always (Executor.idle shared) ms t) :
    (t.calls c : Int) ≤ (retryAllowances (pipelines c)).prod ∧
      ∀ entry : PipelineEntry W, callsAfterwards entry.name = true →
        ∀ inner : Process κ W, Proc.Defers inner (wrapper c entry inner) := by
  constructor
  · rw [← prod_attempts _ hretries]
    have hweight := (Executor.calls_le_weight _ h c).trans (weight_pipelineProcess_le c (pipelines c))
    exact_mod_cast hweight
  · intro entry hafter inner
    exact defers_wrapper c entry inner hafter

/-- One retry: a first attempt that fails, a second that completes, and no third. -/
theorem twoAttempts_invocations :
    ∃ ms t, Machine.Run (engineStep fun _ : Unit => [⟨.retry, some ⟨true, .retry 1 100⟩⟩])
        Machine.Always (Executor.idle (Shared.new 0 ())) ms t ∧
      t.callers () = some (.ended (.ok ())) ∧ t.calls () = 2 ∧ (t.calls () : Int) ≤ 2 := by
  let attempt : Outcome → List (Move Unit (Shared Unit Unit) Outcome) := fun outcome =>
    [.step (.caller ()), .answer (.caller ()) outcome, .step (.caller ())]
  let schedule := [.begin ()] ++ attempt (.error (raise "provider unavailable")) ++
    attempt (.ok ()) ++ [.step (.caller ()), .step (.caller ())]
  refine ⟨schedule, _, Machine.run_iff_exec.mpr rfl, rfl, rfl, ?_⟩
  refine (pipeline_invocations (fun _ => [⟨.retry, some ⟨true, .retry 1 100⟩⟩]) () ?_
    (Machine.run_iff_exec.mpr (rfl : Machine.exec _ (Executor.idle (Shared.new 0 ())) schedule =
      some _))).1
  intro entry hentry _
  obtain rfl := List.mem_singleton.mp hentry
  decide

/-! ## How late -/

/-- **Late invocations.**  Once a call has returned, it invokes nothing more unless a timeout of it had
    fired; and what still starts an invocation then is the worker, at a job of this call. -/
theorem late_invocation (pipelines : κ → List (PipelineEntry W)) {shared : Shared κ W}
    {ms ms' : List (Move κ (Shared κ W) Outcome)} {s t : Executor κ (Shared κ W) Outcome Mark}
    (h : Machine.Run (engineStep pipelines) Machine.Always (Executor.idle shared) ms s)
    (h' : Machine.Run (engineStep pipelines) Machine.Always s ms' t) {c : κ} {outcome : Outcome}
    (hreturned : s.callers c = some (.ended outcome)) :
    (¬ s.Fired c → t.calls c = s.calls c) ∧
      ∀ m u, engineStep pipelines t m = some u → u.calls c ≠ t.calls c →
        s.Fired c ∧ m = .step .worker ∧ ∃ job, t.worker = some job ∧ job.owner = c := by
  constructor
  · exact Executor.no_call_after_end h h' hreturned
  · intro m u hstep hcalls
    constructor
    · by_contra hfired
      have hu := Executor.no_call_after_end h (h'.append (.cons trivial hstep (.nil u))) hreturned hfired
      have ht := Executor.no_call_after_end h h' hreturned hfired
      exact hcalls (hu.trans ht.symm)
    · exact Executor.worker_of_late_call (Executor.ended_of_run h' hreturned) hstep hcalls

end Runs

/-! ### A job left behind -/

/-- The pipeline of a timeout. -/
def fiveSeconds : List (PipelineEntry Unit) := [⟨.timeout, some ⟨true, .timeout 5000⟩⟩]

/-- The second call times out in the queue, behind the first call's job, and returns. -/
def leftBehind : List (Move Bool (Shared Bool Unit) Outcome) :=
  [.begin false, .step (.caller false), .step (.caller false), .take, .step .worker,
    .begin true, .step (.caller true), .step (.caller true), .fire (.caller true),
    .step (.caller true), .step (.caller true), .step (.caller true)]

/-- The first call's job completes, and the worker takes the one left behind. -/
def thenTaken : List (Move Bool (Shared Bool Unit) Outcome) :=
  [.answer .worker (.ok ()), .step .worker, .take]

/-- After the second call has returned its timeout failure, its callable is invoked. -/
theorem invocation_after_timeout :
    ∃ ms ms' s t outcome,
      Machine.Run (engineStep fun _ : Bool => fiveSeconds) Machine.Always
        (Executor.idle (Shared.new 0 ())) ms s ∧
      s.callers true = some (.ended outcome) ∧
      Machine.Run (engineStep fun _ => fiveSeconds) Machine.Always s ms' t ∧
      s.calls true = 0 ∧ t.calls true = 1 :=
  ⟨leftBehind, thenTaken ++ [.step .worker], _, _, _, Machine.run_iff_exec.mpr rfl, rfl,
    Machine.run_iff_exec.mpr rfl, rfl, rfl⟩

/-- The same schedule up to that invocation: the worker starts it, and the timeout had fired. -/
theorem leftBehind_late_invocation :
    ∃ s t u, Machine.exec (engineStep fun _ : Bool => fiveSeconds)
        (Executor.idle (Shared.new 0 ())) leftBehind = some s ∧
      Machine.exec (engineStep fun _ => fiveSeconds) s thenTaken = some t ∧
      engineStep (fun _ => fiveSeconds) t (.step .worker) = some u ∧
      s.Fired true ∧ ∃ job, t.worker = some job ∧ job.owner = true := by
  refine ⟨_, _, _, rfl, rfl, rfl, ?_⟩
  have hlate := late_invocation (fun _ : Bool => fiveSeconds)
    (Machine.run_iff_exec.mpr (rfl : Machine.exec _ (Executor.idle (Shared.new 0 ())) leftBehind =
      some _))
    (Machine.run_iff_exec.mpr (rfl : Machine.exec _ _ thenTaken = some _)) (c := true) rfl
  obtain ⟨hfired, _, hjob⟩ := hlate.2 (.step .worker) _ rfl (by decide)
  exact ⟨hfired, hjob⟩

end FinancialRag.Reliability
