/-
  When a reliability pipeline reports success.

  A pipeline whose fallback entries are enabled reports success only if the callable completed, or a
  CONFIGURED fallback took over (`pipeline_success_earned`).  Every wrapper is sound if the callable it
  wraps is (`wrapper_sound`), by one lemma for each mechanism; the machine's rule for honest callers
  does the rest.
-/
import FinancialRag.Lib.ExecutorCredit
import FinancialRag.Reliability.Engine

set_option linter.unusedVariables false

namespace FinancialRag.Reliability

variable {κ W : Type}

/-! ## Soundness -/

/-- What earns a success: a completed call, or a fallback that took over where one is configured. -/
def Credit (configured : Prop) : Obs Outcome Mark → Prop := fun o =>
  o = .returned (.ok ()) ∨ o = .emitted .fallbackUsed ∧ configured

/-- No exception. -/
def Completed (r : Outcome) : Prop := r = .ok ()

/-- A process of the pipeline that ends without an exception only if that was earned. -/
def Sound (configured earned : Prop) (p : Process κ W) : Prop :=
  p.Honest Completed (Credit configured) earned

/-- A mechanism's result can be trusted: a success of one that calls the inner callable is earned. -/
def Trusted (name : ReliabilityType) (res : Except Exc ReliabilityResult) (earned : Prop) : Prop :=
  ∀ result, res = .ok result → result.success = true → callsAfterwards name = false → earned

/-- What follows a mechanism is sound wherever the mechanism's result can be trusted. -/
def Follows (configured : Prop) (name : ReliabilityType) (earned : Prop) (k : Continue κ W) : Prop :=
  ∀ res (earned' : Prop), (earned → earned') → Trusted name res earned' →
    Sound configured earned' (k res)

section Mechanisms

variable {configured : Prop} {inner : Process κ W} {k : Continue κ W}

theorem trusted_failure {name : ReliabilityType} {result : ReliabilityResult} {earned : Prop}
    (hfail : result.success = false) : Trusted name (.ok result) earned := by
  intro result' heq hsuccess
  cases heq
  rw [hfail] at hsuccess
  cases hsuccess

theorem trusted_raise {name : ReliabilityType} {e : Exc} {earned : Prop} :
    Trusted name (.error e) earned := by
  intro result heq
  cases heq

theorem trusted_earned {name : ReliabilityType} {res : Except Exc ReliabilityResult} {earned : Prop}
    (h : earned) : Trusted name res earned :=
  fun _ _ _ _ => h

theorem retryAttempts_sound (hinner : Sound configured False inner) (maxRetries backoffMs : Int)
    (left attempt : Nat) (lastError : Option String) {earned : Prop}
    (hk : Follows configured .retry earned k) :
    Sound configured earned (retryAttempts inner maxRetries backoffMs k left attempt lastError) := by
  induction left generalizing attempt lastError earned with
  | zero =>
    intro s
    exact hk _ earned id (trusted_failure rfl)
  | succ left ih =>
    refine Proc.Honest.bind (hinner.mono False.elim) ?_
    intro r earned' himp hok
    cases r with
    | ok u =>
      intro s
      exact hk _ earned' himp (trusted_earned (hok rfl))
    | error e =>
      intro s
      have hrest : Follows configured .retry earned' k :=
        fun res earned'' himp' => hk res earned'' (himp' ∘ himp)
      show Sound configured earned' (if _ then _ else _)
      split
      · exact hrest _ earned' id trusted_raise
      · exact ih (attempt + 1) (some e.text) hrest

theorem timeoutApply_sound (hinner : Sound configured False inner)
    (policy : Option (ReliabilityPolicy W)) {earned : Prop}
    (hk : Follows configured .timeout earned k) :
    Sound configured earned (timeoutApply inner policy k) := by
  intro s
  refine ⟨hinner.mono False.elim, ?_⟩
  have htimedOut : ∀ earned' : Prop, (earned → earned') →
      Sound configured earned' (timedOut (timeoutSettings policy) s.clock k) := by
    intro earned' himp s'
    exact hk _ earned' himp (trusted_failure rfl)
  intro r
  rcases r with _ | r
  · exact htimedOut _ Or.inl
  · cases r with
    | ok u => exact hk _ _ Or.inl (trusted_earned (Or.inr ⟨.ok (), rfl, rfl⟩))
    | error e =>
      show Sound configured _ (if _ then _ else _)
      split
      · exact htimedOut _ Or.inl
      · exact hk _ _ Or.inl (trusted_failure rfl)

theorem breakerApply_sound (hinner : Sound configured False inner)
    (policy : Option (ReliabilityPolicy W)) {earned : Prop}
    (hk : Follows configured .circuitBreaker earned k) :
    Sound configured earned (breakerApply inner policy k) := by
  intro s
  show Sound configured earned (if _ then _ else _)
  split
  · refine Proc.Honest.bind (hinner.mono False.elim) ?_
    intro r earned' himp hok
    cases r with
    | ok u =>
      intro s'
      exact hk _ earned' himp (trusted_earned (hok rfl))
    | error e =>
      intro s'
      exact hk _ earned' himp (trusted_failure rfl)
  · exact hk _ earned id (trusted_failure rfl)

/-- An enabled fallback: if it takes over, one is configured. -/
theorem fallbackApply_sound (hinner : Sound configured False inner)
    (policy : Option (ReliabilityPolicy W)) (henabled : ∀ p, policy = some p → p.enabled = true)
    (hconfigured : ∀ p, policy = some p → hasFallback p = true → configured) {earned : Prop}
    (hk : Follows configured .fallback earned k) :
    Sound configured earned (fallbackApply inner policy k) := by
  cases policy with
  | none => exact hk _ earned id trusted_raise
  | some policy =>
    unfold fallbackApply
    simp only [henabled policy rfl, Bool.not_true, Bool.false_eq_true, if_false]
    refine Proc.Honest.bind (hinner.mono False.elim) ?_
    intro r earned' himp hok
    cases r with
    | ok u => exact hk _ earned' himp (trusted_earned (hok rfl))
    | error primary =>
      show Sound configured earned' (if _ then _ else _)
      split
      · exact hk _ earned' himp (trusted_failure rfl)
      · rename_i hhas
        have hcredit : Credit configured (.emitted .fallbackUsed) := by
          refine Or.inr ⟨rfl, hconfigured policy rfl ?_⟩
          simpa using hhas
        have htook : Sound configured earned' (fallbackTookOver k) := by
          intro s
          exact hk _ _ (fun he => Or.inl (himp he)) (trusted_earned (Or.inr hcredit))
        intro s
        dsimp only
        split
        · exact htook
        · rename_i function _
          intro s'
          dsimp only
          split
          · exact htook
          · intro s''
            exact hk _ earned' himp (trusted_failure rfl)

/-- A health check calls nothing; its success promises nothing. -/
theorem healthApply_sound (policy : Option (ReliabilityPolicy W)) {earned : Prop}
    (hk : Follows configured .healthCheck earned k) :
    Sound configured earned (healthApply policy k) := by
  have hany : ∀ res, Sound configured earned (k res) := by
    intro res
    refine hk res earned id ?_
    intro result _ _ hcalls
    cases hcalls
  have hverdict : ∀ healthy, Sound configured earned (healthVerdict healthy k) :=
    fun healthy s => hany _
  cases policy with
  | none => exact hany _
  | some policy =>
    show Sound configured earned (if _ then _ else _)
    split
    · exact hany _
    · intro s
      show Sound configured earned (if _ then _ else _)
      split
      · exact hany _
      · split
        · rename_i check _
          intro s'
          dsimp only
          split
          · exact hverdict _
          · exact hverdict _
        · exact fun s' => hverdict _

theorem limiterApply_sound (policy : Option (ReliabilityPolicy W)) {earned : Prop}
    (hk : Follows configured .rateLimiter earned k) :
    Sound configured earned (limiterApply policy k) := by
  have hany : ∀ res, Sound configured earned (k res) := by
    intro res
    refine hk res earned id ?_
    intro result _ _ hcalls
    cases hcalls
  cases policy with
  | none => exact hany _
  | some policy =>
    show Sound configured earned (if _ then _ else _)
    split
    · exact hany _
    · exact fun s => hany _

variable [DecidableEq κ]

/-- **A wrapper is sound if the callable it wraps is.** -/
theorem wrapper_sound (c : κ) (entry : PipelineEntry W) (hinner : Sound configured False inner)
    (henabled : entry.name = .fallback → ∀ p, entry.policy = some p → p.enabled = true)
    (hconfigured : entry.name = .fallback → ∀ p, entry.policy = some p →
      hasFallback p = true → configured) :
    Sound configured False (wrapper c entry inner) := by
  have hend : ∀ name, Follows configured name False (wrapperEnd c name inner) := by
    intro name res earned' _ htrusted
    cases res with
    | error e =>
      intro habs
      cases habs
    | ok result =>
      intro s
      show Sound configured earned' (if _ then _ else _)
      split
      · intro habs
        cases habs
      · rename_i hsuccess
        split
        · exact hinner.mono False.elim
        · rename_i hcalls
          intro _
          exact htrusted result rfl (by simpa using hsuccess) (by simpa using hcalls)
  unfold wrapper applyMechanism
  obtain ⟨name, policy⟩ := entry
  cases name with
  | retry => exact retryAttempts_sound hinner _ _ _ _ _ (hend _)
  | timeout => exact timeoutApply_sound hinner _ (hend _)
  | circuitBreaker => exact breakerApply_sound hinner _ (hend _)
  | fallback =>
    exact fallbackApply_sound hinner _ (henabled rfl) (hconfigured rfl) (hend _)
  | healthCheck => exact healthApply_sound _ (hend _)
  | rateLimiter => exact limiterApply_sound _ (hend _)

end Mechanisms

section Pipeline

variable [DecidableEq κ]

/-- Some fallback of the pipeline has a value or a function to take over with. -/
def Configured (entries : List (PipelineEntry W)) : Prop :=
  ∃ entry ∈ entries, entry.name = .fallback ∧ ∃ p, entry.policy = some p ∧ hasFallback p = true

/-- No fallback of the pipeline is switched off. -/
def FallbacksEnabled (entries : List (PipelineEntry W)) : Prop :=
  ∀ entry ∈ entries, entry.name = .fallback → ∀ p, entry.policy = some p → p.enabled = true

theorem pipelineProcess_sound (c : κ) {configured : Prop} (entries : List (PipelineEntry W))
    (henabled : FallbacksEnabled entries) (hconfigured : Configured entries → configured) :
    Sound configured False (pipelineProcess c entries) := by
  induction entries with
  | nil =>
    intro r hok
    subst hok
    exact Or.inr (Or.inl rfl)
  | cons entry entries ih =>
    have hinner : Sound configured False (pipelineProcess c entries) := by
      refine ih (fun e he => henabled e (List.mem_cons_of_mem _ he)) ?_
      rintro ⟨e, he, hrest⟩
      exact hconfigured ⟨e, List.mem_cons_of_mem _ he, hrest⟩
    refine wrapper_sound c entry hinner (henabled entry List.mem_cons_self) ?_
    intro hname p hp hhas
    exact hconfigured ⟨entry, List.mem_cons_self, hname, p, hp, hhas⟩

/-- **A reported success is earned**: the callable has completed, or a configured fallback has taken
    over. -/
theorem pipeline_success_earned (pipelines : κ → List (PipelineEntry W)) (c : κ)
    (henabled : FallbacksEnabled (pipelines c)) {shared : Shared κ W}
    {ms : List (Move κ (Shared κ W) Outcome)} {t : Executor κ (Shared κ W) Outcome Mark}
    (h : Machine.Run (engineStep pipelines) Machine.Always (Executor.idle shared) ms t)
    {outcome : Outcome} (hended : t.callers c = some (.ended outcome))
    (hsuccess : (pipelineResult t.shared c (pipelines c) outcome).success = true) :
    t.Earned (Credit (Configured (pipelines c))) c := by
  have hok : Completed outcome := by
    cases outcome with
    | ok u => rfl
    | error e => cases hsuccess
  refine Executor.credit_of_ended ?_ h hended hok
  exact pipelineProcess_sound c _ henabled id

end Pipeline

/-! ### A fallback that takes over -/

/-- The pipeline of a value to fall back on. -/
def cachedAnswer : List (PipelineEntry Unit) :=
  [⟨.fallback, some ⟨true, .fallback (some "cached_response") none⟩⟩]

/-- One call of that pipeline: the callable ends with `outcome`, and `rest` steps follow. -/
def oneCall (outcome : Outcome) (rest : Nat) : List (Move Unit (Shared Unit Unit) Outcome) :=
  [.begin (), .step (.caller ()), .answer (.caller ()) outcome] ++
    List.replicate rest (.step (.caller ()))

/-- The callable fails, the value takes over: success without a completed call. -/
theorem success_without_completion :
    ∃ ms t outcome, Machine.Run (engineStep fun _ : Unit => cachedAnswer) Machine.Always
        (Executor.idle (Shared.new 0 ())) ms t ∧
      t.callers () = some (.ended outcome) ∧
      (pipelineResult t.shared () cachedAnswer outcome).success = true ∧
      ¬ t.Earned (fun o => o = .returned (.ok ())) () := by
  refine ⟨oneCall (.error (raise "provider unavailable")) 5, _, .ok (),
    Machine.run_iff_exec.mpr rfl, rfl, rfl, ?_⟩
  rintro ⟨entry, hentry, _, hcompleted⟩
  have hlog : entry ∈ [((), Obs.called), ((), .returned (.error (raise "provider unavailable"))),
      ((), .emitted Mark.fallbackUsed)] := hentry
  simp only [List.mem_cons, List.not_mem_nil, or_false] at hlog
  rcases hlog with rfl | rfl | rfl
  · cases hcompleted
  · cases hcompleted
  · cases hcompleted

/-- A call of the same pipeline whose callable completes. -/
theorem cachedAnswer_earned :
    ∃ ms t, Machine.Run (engineStep fun _ : Unit => cachedAnswer) Machine.Always
        (Executor.idle (Shared.new 0 ())) ms t ∧
      t.callers () = some (.ended (.ok ())) ∧ t.Earned (Credit (Configured cachedAnswer)) () := by
  have henabled : FallbacksEnabled cachedAnswer := by
    intro entry hentry _ p hp
    obtain rfl := List.mem_singleton.mp hentry
    obtain rfl := Option.some.inj hp
    rfl
  refine ⟨oneCall (.ok ()) 2, _, Machine.run_iff_exec.mpr rfl, rfl, ?_⟩
  exact pipeline_success_earned (fun _ => cachedAnswer) () henabled
    (Machine.run_iff_exec.mpr (rfl : Machine.exec _ (Executor.idle (Shared.new 0 ()))
      (oneCall (.ok ()) 2) = some _)) rfl rfl

end FinancialRag.Reliability
