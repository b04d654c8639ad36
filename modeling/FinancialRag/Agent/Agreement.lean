/-
  What the two schedules of a plan have in common, and which steps the parallel one runs.

  * `parallel_agrees_with_sequential` — with handlers that read only what their step declares, the
    completion order, the waves and the number of workers cannot be told from the results: the two
    schedules settle every step alike.  Both ends are `Settled`, and an attempt is determined by the
    end of its own schedule (`Settled.attempt_eq`); the plan order then settles the attempts one by one.
  * `parallel_least_fixpoint` — for ANY handlers and ANY dependencies, the loop ends and the handlers
    that run are those of the least set closed under "every dependency is in the set and succeeded".
-/
import FinancialRag.Agent.Schedule

set_option linter.unusedVariables false

namespace FinancialRag.Agent

open FinancialRag.Storage FinancialRag.Retrieval

section Agreement

variable {A Ctx Out F W : Type}

/-- Handlers whose doing depends only on the step, the caller's context and the outputs of the step's
    declared dependencies. -/
def ReadsDeclared (handlers : StepType → Option (Handler A Ctx Out F W)) : Prop :=
  ∀ stepType handler, handlers stepType = some handler →
    ∀ step (sh sh' : SharedContext Ctx Out F) (w w' : W), sh.base = sh'.base →
      (∀ dep ∈ step.dependsOn, sh.stepResults.get dep = sh'.stepResults.get dep) →
      (handler step sh w).1 = (handler step sh' w').1

theorem dependenciesMet_congr {step : PlanStep A} {c d : Dict Int Out}
    (hdeps : ∀ dep ∈ step.dependsOn, c.get dep = d.get dep) :
    dependenciesMet step c = dependenciesMet step d := by
  rw [Bool.eq_iff_iff, dependenciesMet_iff, dependenciesMet_iff]
  constructor
  · intro h dep hdep
    rw [← hdeps dep hdep]
    exact h dep hdep
  · intro h dep hdep
    rw [hdeps dep hdep]
    exact h dep hdep

/-- Attempts on two frames that agree on the dependencies are the same. -/
theorem attempt_congr {handlers : StepType → Option (Handler A Ctx Out F W)}
    (hreads : ReadsDeclared handlers) {step : PlanStep A} {fr fr' : Frame Ctx Out F W}
    (hbase : fr.shared.base = fr'.shared.base)
    (hdeps : ∀ dep ∈ step.dependsOn, fr.completed.get dep = fr'.completed.get dep) :
    (attempt handlers step fr).1 = (attempt handlers step fr').1 := by
  unfold attempt
  rw [dependenciesMet_congr hdeps]
  split
  · cases hhandler : handlers step.stepType with
    | none => rfl
    | some handler =>
      simp only [hreads step.stepType handler hhandler step _ _ fr.board.world fr'.board.world
        (show ({ fr.shared with stepResults := fr.completed } : SharedContext Ctx Out F).base =
          ({ fr'.shared with stepResults := fr'.completed } : SharedContext Ctx Out F).base from hbase)
        hdeps]
  · rfl

/-! ## The log of the handler calls -/

/-- The handler was called. -/
def Attempt.isRan : Attempt Out F → Bool
  | .ran _ => true
  | _ => false

theorem isRan_attempt {handlers : StepType → Option (Handler A Ctx Out F W)} {step : PlanStep A}
    {fr : Frame Ctx Out F W} : (attempt handlers step fr).1.isRan = true ↔
      (attempt handlers step fr).1 ≠ .unmet ∧ (handlers step.stepType).isSome = true := by
  unfold attempt
  split
  · cases handlers step.stepType with
    | none => simp [Attempt.isRan]
    | some handler => simp [Attempt.isRan]
  · simp [Attempt.isRan]

theorem stepIds_calls (h : List (Entry A Out F)) :
    (h.flatMap fun e => e.attempt.calls e.stepId).map Call.stepId =
      (h.filter fun e => e.attempt.isRan).map Entry.stepId := by
  induction h with
  | nil => rfl
  | cons e h ih =>
    rw [List.flatMap_cons, List.map_append, ih, List.filter_cons]
    cases hattempt : e.attempt with
    | unmet => rfl
    | unregistered stepType => rfl
    | ran run => rfl

variable [Inhabited Out] {ctx : ExecutionHandlerContext A Ctx Out F W} {w w' : W}
  {h h' : List (Entry A Out F)} {t t' : Frame Ctx Out F W}

/-- The steps whose handlers were called, in some order. -/
theorem Settled.stepIds_calls_perm (hset : Settled ctx w h t) :
    (t.board.calls.map Call.stepId).Perm
      ((h.filter fun e => e.attempt.isRan).map Entry.stepId) := by
  rw [← stepIds_calls]
  exact hset.ran.board.calls.map _

/-- No handler is called twice. -/
theorem Settled.nodup_calls (hset : Settled ctx w h t) :
    (t.board.calls.map Call.stepId).Nodup :=
  hset.stepIds_calls_perm.nodup_iff.mpr (hset.nodup.sublist (List.filter_sublist.map _))

theorem Settled.mem_calls_iff (hset : Settled ctx w h t) {e : Entry A Out F} (he : e ∈ h) :
    e.stepId ∈ t.board.calls.map Call.stepId ↔ e.attempt.isRan = true := by
  rw [hset.stepIds_calls_perm.mem_iff, List.mem_map]
  constructor
  · rintro ⟨e', he', hid⟩
    obtain ⟨hmem, hran⟩ := List.mem_filter.mp he'
    obtain rfl : e' = e := List.inj_on_of_nodup_map hset.nodup hmem he hid
    exact hran
  · intro hran
    exact ⟨e, List.mem_filter.mpr ⟨he, hran⟩, rfl⟩

/-! ## Two schedules of one plan -/

/-- **An attempt is determined by the end of its schedule**: it is the one that would be made there. -/
theorem Settled.attempt_eq (hset : Settled ctx w h t) (hreads : ReadsDeclared ctx.handlers)
    {e : Entry A Out F} (he : e ∈ h) (b : Board Out F W) :
    (attempt ctx.handlers e.step (isolated ctx t.completed b)).1 = e.attempt := by
  obtain ⟨fr, hbase, _, hgrows, hattempt⟩ := hset.ran.tried e he
  cases hmet : dependenciesMet e.step fr.completed with
  | true =>
    rw [← hattempt]
    refine attempt_congr hreads hbase.symm ?_
    intro dep hdep
    obtain ⟨output, hget⟩ := dependenciesMet_iff.mp hmet dep hdep
    rw [hget]
    exact hgrows dep output hget
  | false =>
    have hunmet : e.attempt = .unmet := hattempt ▸ attempt_eq_unmet_iff.mpr hmet
    rw [hunmet]
    exact attempt_eq_unmet_iff.mpr (hset.unmet e he hunmet)

/-- Two settled schedules agree on every beginning of the plan, by induction on it. -/
theorem attempts_agree (hset : Settled ctx w h t) (hset' : Settled ctx w' h' t')
    (hreads : ReadsDeclared ctx.handlers) (hplan : ctx.plan.EarlierOrUnknown)
    (pre suf : List (PlanStep A)) (htasks : ctx.plan.tasks = pre ++ suf) :
    ∀ e ∈ h, ∀ e' ∈ h', e.step = e'.step → e.step ∈ pre → e.attempt = e'.attempt := by
  induction pre using List.reverseRecOn generalizing suf with
  | nil => exact fun e _ e' _ _ hpre => absurd hpre List.not_mem_nil
  | append_singleton pre step ih =>
    rw [List.append_assoc] at htasks
    have hearlier := ih ([step] ++ suf) htasks
    intro e he e' he' hsame hpre
    rcases List.mem_append.mp hpre with hpre | hlast
    · exact hearlier e he e' he' hsame hpre
    have hstep : e.step = step := List.mem_singleton.mp hlast
    rw [← hset.attempt_eq hreads he t.board, ← hset'.attempt_eq hreads he' t.board, ← hsame]
    refine attempt_congr hreads rfl ?_
    intro dep hdep
    show t.completed.get dep = t'.completed.get dep
    rcases hplan.cut htasks (hstep ▸ hdep) with hmem | hunknown
    · -- an earlier step: the two schedules agree on it already
      obtain ⟨step₀, hstep₀, rfl⟩ := List.mem_map.mp hmem
      have hin : step₀ ∈ ctx.plan.tasks := htasks ▸ List.mem_append_left _ hstep₀
      obtain ⟨d, hd, hdstep⟩ := hset.exists_entry hin
      obtain ⟨d', hd', hdstep'⟩ := hset'.exists_entry hin
      have hagree := hearlier d hd d' hd' (hdstep.trans hdstep'.symm) (hdstep ▸ hstep₀)
      have hget := hset.get_completed hd
      have hget' := hset'.get_completed hd'
      rw [Entry.stepId, hdstep] at hget
      rw [Entry.stepId, hdstep'] at hget'
      rw [hget, hget', hagree]
    · rw [hset.get_completed_of_unknown hunknown, hset'.get_completed_of_unknown hunknown]

/-- **Two settled schedules made the same attempts**, in two orders. -/
theorem entries_perm (hset : Settled ctx w h t) (hset' : Settled ctx w' h' t')
    (hreads : ReadsDeclared ctx.handlers) (hplan : ctx.plan.EarlierOrUnknown) : h.Perm h' := by
  refine PyList.perm_of_map_perm ?_ (hset.steps.trans hset'.steps.symm)
  intro e he e' he' hsame
  have hattempt := attempts_agree hset hset' hreads hplan ctx.plan.tasks [] (List.append_nil _).symm
    e he e' he' hsame (hset.step_mem he)
  obtain ⟨step, attempt⟩ := e
  obtain ⟨step', attempt'⟩ := e'
  cases hsame
  cases hattempt
  rfl

/-- The results of a settled schedule, in plan order: exactly one for each step. -/
theorem Settled.results (hset : Settled ctx w h t) :
    (ctx.plan.tasks.filterMap fun step => t.board.result step.stepId).map ExecutionResult.stepId =
      ctx.plan.tasks.map PlanStep.stepId := by
  have hall : ∀ step ∈ ctx.plan.tasks,
      (t.board.result step.stepId).map ExecutionResult.stepId = some step.stepId := by
    intro step hstep
    obtain ⟨e, he, rfl⟩ := hset.exists_entry hstep
    have hresult := hset.ran.board.result e he
    rw [Entry.stepId] at hresult
    rw [hresult, Option.map_some, Attempt.stepId_result]
  generalize ctx.plan.tasks = tasks at hall
  induction tasks with
  | nil => rfl
  | cons step tasks ih =>
    obtain ⟨result, hresult, hid⟩ := Option.map_eq_some_iff.mp (hall step List.mem_cons_self)
    rw [List.filterMap_cons, hresult, List.map_cons, List.map_cons, hid,
      ih fun step' hstep' => hall step' (List.mem_cons_of_mem _ hstep')]

variable [PyFloat F]

/-- **The parallel schedule agrees with the sequential one**, whatever the number of workers, the
    completion orders and the worlds the handlers start from: the same status and the same result for
    every step, the same handler calls, none of them twice, and the same evidence up to order. -/
theorem parallel_agrees_with_sequential (ctx : ExecutionHandlerContext A Ctx Out F W)
    (hplan : ctx.plan.EarlierOrUnknown) (hreads : ReadsDeclared ctx.handlers) (pool : Pool A)
    (w w' : W) (fuel : Nat) (hfuel : ctx.plan.tasks.length < fuel) :
    ∃ par, executeParallelRetrievals ctx pool w fuel = some par ∧
      (∀ step ∈ ctx.plan.tasks,
        par.board.status step.stepId = (executeSequential ctx w').board.status step.stepId ∧
        par.board.result step.stepId = (executeSequential ctx w').board.result step.stepId) ∧
      par.output.executionResults = (executeSequential ctx w').output.executionResults ∧
      par.board.calls.Perm (executeSequential ctx w').board.calls ∧
      (par.board.calls.map Call.stepId).Nodup ∧
      par.output.evidences.Perm (executeSequential ctx w').output.evidences := by
  obtain ⟨t, h, hloop, _, hset⟩ := settled_parallel ctx pool w fuel hfuel
  obtain ⟨h', _, hset'⟩ := settled_sequential ctx hplan w'
  have hperm := entries_perm hset hset' hreads hplan
  have hsteps : ∀ step ∈ ctx.plan.tasks,
      t.board.status step.stepId = (executeSequential ctx w').board.status step.stepId ∧
      t.board.result step.stepId = (executeSequential ctx w').board.result step.stepId := by
    intro step hstep
    obtain ⟨e, he, rfl⟩ := hset.exists_entry hstep
    have he' := hperm.mem_iff.mp he
    exact ⟨(hset.ran.board.status e he).trans (hset'.ran.board.status e he').symm,
      (hset.ran.board.result e he).trans (hset'.ran.board.result e he').symm⟩
  refine ⟨t.finish ctx, by rw [executeParallelRetrievals, hloop]; rfl, hsteps, ?_, ?_,
    hset.nodup_calls, ?_⟩
  · exact List.filterMap_congr fun step hstep => (hsteps step hstep).2
  · exact hset.ran.board.calls.trans ((hperm.flatMap_right _).trans hset'.ran.board.calls.symm)
  · show t.shared.allEvidence.Perm _
    rw [hset.ran.evidence]
    refine (hperm.flatMap_right _).trans ?_
    show List.Perm _ (ctx.plan.tasks.foldl (runIsolated ctx)
      (baseFrame ctx (.fresh w'))).shared.allEvidence
    rw [hset'.ran.evidence]
    exact .refl _

end Agreement

/-! ### A sample plan -/

/-- A handler that fails where its argument says so, and otherwise appends one evidence and returns
    the sum of its own number and its dependencies' outputs. -/
def sampleHandler : Handler Bool Unit Int ℚ Nat := fun step shared world =>
  (⟨[⟨"evidence", .int step.stepId, .none, 0, .empty⟩],
    if step.args then .error "failed"
    else .ok (step.stepId +
      (step.dependsOn.map fun dep => (shared.stepResults.get dep).getD 0).sum)⟩, world + 1)

def samplePlan (tasks : List (PlanStep Bool))
    (hnodup : (tasks.map PlanStep.stepId).Nodup := by decide) : ExecutionPlan Bool :=
  ⟨tasks, hnodup⟩

/-- Two retrievals, one of which waits for the other, a failing tool call, a comparison blocked by it
    and a synthesis that waits for a step the plan does not have. -/
def mixedPlan : ExecutionPlan Bool :=
  samplePlan [⟨1, .retrieve, [], false⟩, ⟨2, .retrieve, [1], false⟩, ⟨3, .toolCall, [], true⟩,
    ⟨4, .compare, [1, 3], false⟩, ⟨5, .synthesis, [9], false⟩, ⟨6, .retrieve, [], false⟩]

def sampleContext (plan : ExecutionPlan Bool) : ExecutionHandlerContext Bool Unit Int ℚ Nat :=
  ⟨plan, (), 3, fun _ => some sampleHandler⟩

theorem readsDeclared_sample (plan : ExecutionPlan Bool) :
    ReadsDeclared (sampleContext plan).handlers := by
  rintro stepType handler hhandler step sh sh' w w' _ hdeps
  obtain rfl : sampleHandler = handler := Option.some.inj hhandler
  have hmap : (step.dependsOn.map fun dep => (sh.stepResults.get dep).getD 0) =
      step.dependsOn.map fun dep => (sh'.stepResults.get dep).getD 0 :=
    List.map_congr_left fun dep hdep => by rw [hdeps dep hdep]
  simp only [sampleHandler, hmap]

theorem mixedPlan_agrees : mixedPlan.EarlierOrUnknown ∧
    ∃ par, executeParallelRetrievals (sampleContext mixedPlan) .inOrder 0 7 = some par ∧
      (∀ step ∈ mixedPlan.tasks,
        par.board.status step.stepId =
          (executeSequential (sampleContext mixedPlan) 0).board.status step.stepId ∧
        par.board.result step.stepId =
          (executeSequential (sampleContext mixedPlan) 0).board.result step.stepId) ∧
      par.output.executionResults =
        (executeSequential (sampleContext mixedPlan) 0).output.executionResults ∧
      par.board.calls.Perm (executeSequential (sampleContext mixedPlan) 0).board.calls ∧
      (par.board.calls.map Call.stepId).Nodup ∧
      par.output.evidences.Perm (executeSequential (sampleContext mixedPlan) 0).output.evidences := by
  have hplan : mixedPlan.EarlierOrUnknown := by decide
  exact ⟨hplan, parallel_agrees_with_sequential (sampleContext mixedPlan) hplan
    (readsDeclared_sample mixedPlan) .inOrder 0 0 7 (by decide)⟩

/-! ## The least fixpoint -/

section Fixpoint

variable {A Ctx Out F W : Type}

/-- The least set of step ids such that every dependency of a step is in it and has succeeded. -/
inductive Reached (plan : ExecutionPlan A) (succeeded : Int → Prop) : Int → Prop
  | step {step : PlanStep A} : step ∈ plan.tasks →
      (∀ dep ∈ step.dependsOn, Reached plan succeeded dep) →
      (∀ dep ∈ step.dependsOn, succeeded dep) → Reached plan succeeded step.stepId

theorem Reached.mono {plan : ExecutionPlan A} {p q : Int → Prop} (hpq : ∀ id, p id → q id) {id : Int}
    (h : Reached plan p id) : Reached plan q id := by
  induction h with
  | step hmem _ hsucc ih => exact .step hmem ih fun dep hdep => hpq dep (hsucc dep hdep)

theorem Reached.cases_step {plan : ExecutionPlan A} {p : Int → Prop} {step : PlanStep A}
    (hstep : step ∈ plan.tasks) (h : Reached plan p step.stepId) :
    ∀ dep ∈ step.dependsOn, p dep := by
  generalize hid : step.stepId = id at h
  cases h with
  | @step step' hmem _ hsucc =>
    obtain rfl : step = step' := List.inj_on_of_nodup_map plan.stepIdsNodup hstep hmem hid
    exact hsucc

/-- The handler of a step was called and returned. -/
def Board.Succeeded (b : Board Out F W) (id : Int) : Prop :=
  ∃ call ∈ b.calls, call.stepId = id ∧ ∃ output, call.run.outcome = .ok output

/-- The step is in the completed map. -/
def Done (c : Dict Int Out) (id : Int) : Prop := ∃ output, c.get id = some output

variable [Inhabited Out] {ctx : ExecutionHandlerContext A Ctx Out F W}

/-- **What the loop runs is reached**, by induction over its waves: the dependencies of a wave were
    completed by the waves before it. -/
theorem Scheduled.reached {pending : List (PlanStep A)} {h : List (Entry A Out F)}
    {s t : Frame Ctx Out F W} (hsched : Scheduled ctx pending h s t)
    (hfresh : Fresh pending s.completed) (hpending : ∀ step ∈ pending, step ∈ ctx.plan.tasks)
    (hdone : ∀ id, Done s.completed id → Reached ctx.plan (Done s.completed) id) :
    ∀ e ∈ h, e.attempt ≠ .unmet → Reached ctx.plan (Done t.completed) e.stepId := by
  induction hsched with
  | done s => exact fun e he => absurd he List.not_mem_nil
  | @blocked pending s t hblocked hran =>
    intro e he hne
    obtain ⟨step, _, rfl⟩ := List.mem_map.mp he
    exact absurd rfl hne
  | @wave pending h h' s t u hsteps hran hrest ih =>
    have hready : ∀ e ∈ h, Reached ctx.plan (Done s.completed) e.stepId := by
      intro e he
      have hmem : e.step ∈ waveOrder (pending.filter fun step => dependenciesMet step s.completed) :=
        hsteps ▸ List.mem_map_of_mem he
      obtain ⟨hin, hmet⟩ := List.mem_filter.mp ((waveOrder_perm _).mem_iff.mp hmem)
      have hdeps := dependenciesMet_iff.mp hmet
      exact .step (hpending e.step hin) (fun dep hdep => hdone dep (hdeps dep hdep)) hdeps
    have hgrow : ∀ {c d : Dict Int Out}, Extends c d → ∀ id, Done c id → Done d id := by
      rintro c d hcd id ⟨output, hget⟩
      exact ⟨output, hcd id output hget⟩
    have hfresh' := hfresh.rest hsteps
    rw [← hran.completed] at hfresh'
    have hrest' := (hrest.ran hfresh').2
    intro e he hne
    rcases List.mem_append.mp he with he | he
    · exact (hready e he).mono (hgrow (hran.grows.trans hrest'.grows))
    · refine ih hfresh' (fun step hstep => hpending step (List.mem_filter.mp hstep).1) ?_ e he hne
      -- what is completed after the wave was completed before it, or is of the wave
      rintro id ⟨output, hget⟩
      by_cases hid : id ∈ h.map Entry.stepId
      · obtain ⟨e', he', rfl⟩ := List.mem_map.mp hid
        exact (hready e' he').mono (hgrow hran.grows)
      · rw [hran.completed, get_completeAll_of_not_mem hid] at hget
        exact (hdone id ⟨output, hget⟩).mono (hgrow hran.grows)

/-- A handler that returned, in the log and in the completed map. -/
theorem Settled.succeeded_iff {w : W} {h : List (Entry A Out F)} {t : Frame Ctx Out F W}
    (hset : Settled ctx w h t) (id : Int) : t.board.Succeeded id ↔ Done t.completed id := by
  have hcall : ∀ call, call ∈ t.board.calls ↔ ∃ e ∈ h, call ∈ e.attempt.calls e.stepId := by
    intro call
    rw [hset.ran.board.calls.mem_iff]
    exact List.mem_flatMap
  constructor
  · rintro ⟨call, hmem, rfl, output, hout⟩
    obtain ⟨e, he, hecall⟩ := (hcall call).mp hmem
    cases hattempt : e.attempt with
    | unmet => rw [hattempt] at hecall; exact absurd hecall List.not_mem_nil
    | unregistered stepType => rw [hattempt] at hecall; exact absurd hecall List.not_mem_nil
    | ran run =>
      rw [hattempt] at hecall
      obtain rfl := List.mem_singleton.mp hecall
      refine ⟨output, ?_⟩
      show t.completed.get e.stepId = some output
      rw [hset.get_completed he, hattempt, Attempt.output, hout]
      rfl
  · rintro ⟨output, hget⟩
    obtain ⟨e, he, rfl, houtput⟩ := hset.exists_of_get_completed hget
    cases hattempt : e.attempt with
    | unmet => rw [hattempt] at houtput; cases houtput
    | unregistered stepType => rw [hattempt] at houtput; cases houtput
    | ran run =>
      refine ⟨⟨e.stepId, run⟩, (hcall _).mpr ⟨e, he, ?_⟩, rfl, output, ?_⟩
      · rw [hattempt]
        exact List.mem_singleton.mpr rfl
      · rw [hattempt, Attempt.output] at houtput
        cases hout : run.outcome with
        | ok output' => rw [hout] at houtput; cases houtput; rfl
        | error e' => rw [hout] at houtput; cases houtput

/-- The entries that are not skipped are those of the reached steps. -/
theorem Settled.ne_unmet_iff {w : W} {h : List (Entry A Out F)} {t : Frame Ctx Out F W}
    (hset : Settled ctx w h t)
    (hsched : Scheduled ctx ctx.plan.tasks h (baseFrame ctx (.fresh w)) t) {e : Entry A Out F}
    (he : e ∈ h) :
    e.attempt ≠ .unmet ↔ Reached ctx.plan t.board.Succeeded e.stepId := by
  constructor
  · intro hne
    have hreached := hsched.reached (fresh_baseFrame ctx _) (fun step hstep => hstep)
      (by rintro id ⟨output, hget⟩; cases hget) e he hne
    exact hreached.mono fun id => (hset.succeeded_iff id).mpr
  · intro hreached hunmet
    have hblocked := hset.unmet e he hunmet
    have hmet : dependenciesMet e.step t.completed = true := by
      rw [dependenciesMet_iff]
      intro dep hdep
      exact (hset.succeeded_iff dep).mp (hreached.cases_step (hset.step_mem he) dep hdep)
    rw [hmet] at hblocked
    cases hblocked

/-- The handler of an entry was called when the step was reached and has one. -/
theorem Ran.isRan_iff {h : List (Entry A Out F)} {s t : Frame Ctx Out F W} (hran : Ran ctx h s t)
    {e : Entry A Out F} (he : e ∈ h) :
    e.attempt.isRan = true ↔ e.attempt ≠ .unmet ∧ (ctx.handlers e.step.stepType).isSome = true := by
  obtain ⟨fr, _, _, _, hattempt⟩ := hran.tried e he
  rw [← hattempt]
  exact isRan_attempt

variable [PyFloat F]

/-- **The parallel schedule runs the least fixpoint.**  For every plan, cyclic or not, and all handlers
    whatever they do, the loop ends; every step has exactly one result; no handler is called twice, and
    the handler of a step is called if and only if the step is reached; every other step is skipped.
    (A reached step for whose type no handler is registered fails without a call.) -/
theorem parallel_least_fixpoint (ctx : ExecutionHandlerContext A Ctx Out F W) (pool : Pool A) (w : W)
    (fuel : Nat) (hfuel : ctx.plan.tasks.length < fuel) :
    ∃ par, executeParallelRetrievals ctx pool w fuel = some par ∧
      par.output.executionResults.map ExecutionResult.stepId = ctx.plan.tasks.map PlanStep.stepId ∧
      (∀ call ∈ par.board.calls, ∃ step ∈ ctx.plan.tasks, step.stepId = call.stepId) ∧
      (∀ step ∈ ctx.plan.tasks,
        ((par.board.calls.map Call.stepId).count step.stepId = 1 ↔
          Reached ctx.plan par.board.Succeeded step.stepId ∧
            (ctx.handlers step.stepType).isSome = true) ∧
        (par.board.calls.map Call.stepId).count step.stepId ≤ 1 ∧
        (Reached ctx.plan par.board.Succeeded step.stepId →
          par.board.status step.stepId = .completed ∨ par.board.status step.stepId = .failed) ∧
        (¬ Reached ctx.plan par.board.Succeeded step.stepId →
          par.board.status step.stepId = .skipped ∧
          (par.board.calls.map Call.stepId).count step.stepId = 0)) := by
  obtain ⟨t, h, hloop, hsched, hset⟩ := settled_parallel ctx pool w fuel hfuel
  refine ⟨t.finish ctx, by rw [executeParallelRetrievals, hloop]; rfl, hset.results, ?_, ?_⟩
  · intro call hcall
    have hid := hset.stepIds_calls_perm.mem_iff.mp (List.mem_map_of_mem hcall)
    obtain ⟨e, he, hid⟩ := List.mem_map.mp hid
    exact ⟨e.step, hset.step_mem (List.mem_filter.mp he).1, hid⟩
  · intro step hstep
    obtain ⟨e, he, rfl⟩ := hset.exists_entry hstep
    have hreached := hset.ne_unmet_iff hsched he
    have hcount : (t.board.calls.map Call.stepId).count e.stepId = 1 ↔ e.attempt.isRan = true := by
      rw [← hset.mem_calls_iff he]
      constructor
      · intro hone
        exact List.count_pos_iff.mp (by omega)
      · intro hmem
        exact List.count_eq_one_of_mem hset.nodup_calls hmem
    refine ⟨hcount.trans ?_, List.nodup_iff_count_le_one.mp hset.nodup_calls _, ?_, ?_⟩
    · rw [hset.ran.isRan_iff he, hreached]
      exact Iff.rfl
    · intro hr
      have hstatus := Attempt.status_of_ne_unmet (hreached.mpr hr)
      rw [← hset.ran.board.status e he] at hstatus
      exact hstatus
    · intro hnot
      have hunmet : e.attempt = .unmet := by
        by_contra hne
        exact hnot (hreached.mp hne)
      refine ⟨?_, ?_⟩
      · have hstatus := hset.ran.board.status e he
        rw [hunmet] at hstatus
        exact hstatus
      · apply List.count_eq_zero.mpr
        intro hmem
        have hran := (hset.mem_calls_iff he).mp hmem
        rw [hunmet] at hran
        cases hran

end Fixpoint

/-- Steps 2 and 3 wait for each other, step 4 for itself, step 5 for the failing step 1. -/
def cyclicPlan : ExecutionPlan Bool :=
  samplePlan [⟨1, .toolCall, [], true⟩, ⟨2, .retrieve, [3], false⟩, ⟨3, .retrieve, [2], false⟩,
    ⟨4, .compare, [4], false⟩, ⟨5, .retrieve, [1], false⟩, ⟨6, .synthesis, [7], false⟩,
    ⟨7, .retrieve, [], false⟩]

theorem cyclicPlan_least_fixpoint :
    ∃ par, executeParallelRetrievals (sampleContext cyclicPlan) .inOrder 0 8 = some par ∧
      par.output.executionResults.map ExecutionResult.stepId =
        cyclicPlan.tasks.map PlanStep.stepId ∧
      (∀ call ∈ par.board.calls, ∃ step ∈ cyclicPlan.tasks, step.stepId = call.stepId) ∧
      (∀ step ∈ cyclicPlan.tasks,
        ((par.board.calls.map Call.stepId).count step.stepId = 1 ↔
          Reached cyclicPlan par.board.Succeeded step.stepId ∧
            ((sampleContext cyclicPlan).handlers step.stepType).isSome = true) ∧
        (par.board.calls.map Call.stepId).count step.stepId ≤ 1 ∧
        (Reached cyclicPlan par.board.Succeeded step.stepId →
          par.board.status step.stepId = .completed ∨ par.board.status step.stepId = .failed) ∧
        (¬ Reached cyclicPlan par.board.Succeeded step.stepId →
          par.board.status step.stepId = .skipped ∧
          (par.board.calls.map Call.stepId).count step.stepId = 0)) :=
  parallel_least_fixpoint (sampleContext cyclicPlan) .inOrder 0 8 (by decide)

example : (executeParallelRetrievals (sampleContext cyclicPlan) .inOrder 0 8).map
    (fun par => par.board.calls.map Call.stepId) = some [7, 1, 6] := by decide +kernel

end FinancialRag.Agent
