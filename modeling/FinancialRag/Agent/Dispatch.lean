/-
  From a strategy to an execution: `agent/execution/execution_dispatcher.py` and the handlers of
  `agent/execution/handlers/`.

  Two rules serve every schedule of a plan, for handlers of any kind:

  1. `Leaves` — a TRAIL in the world (the requests that reached the retriever, the runs of the tool) to
     which each execution of a step adds what the step says.  Then a whole schedule adds what the steps
     of the plan say, in the order of the plan or, on the pool, in some order.
  2. `Vouches` — a property of the evidence a handler may append.  Then all evidence has it.

  With the handlers of the runtime the requests are those of the retrieval steps, and the evidence is
  grounded in them: that is what `Executed` says, of every strategy (`executed_dispatch`).
-/
import FinancialRag.Agent.RetrievalStep
import FinancialRag.Agent.Strategies

set_option linter.unusedVariables false
set_option linter.unusedSectionVars false

namespace FinancialRag.Agent

open FinancialRag.Storage FinancialRag.Retrieval

/-! ## Dispatch -/

/-- What a strategy handler returns, and what it leaves of the plan. -/
structure Dispatched (F S : Type) where
  execution : Execution (StepOutput F) F (ToolLog S)
  toolCalls : List ToolTrace

abbrev RuntimeContext (F S : Type) :=
  ExecutionHandlerContext StepArgs RequestScope (StepOutput F) F (ToolLog S)

section Handlers

variable {F S : Type} [PyFloat F]

/-- `StepExecutionEngine.execute`: the steps share one context. -/
def executePlan (ctx : RuntimeContext F S) (log : ToolLog S) : ToolFrame F S :=
  ctx.plan.tasks.foldl (fun fr step => (executeStep ctx.handlers step fr).2) (baseFrame ctx (.fresh log))

/-- `RagHandler.execute` -/
def ragHandler (ctx : RuntimeContext F S) (log : ToolLog S) : Execution (StepOutput F) F (ToolLog S) :=
  (executePlan ctx log).finish ctx

/-- `DirectLLMHandler.execute` -/
def directLlmHandler (log : ToolLog S) : Execution (StepOutput F) F (ToolLog S) :=
  ⟨⟨"", [], [], []⟩, .fresh log⟩

/-- `ToolCallingHandler.execute` -/
def toolCallingHandler (str : Double → String) (ctx : RuntimeContext F S) (log : ToolLog S) :
    Dispatched F S :=
  let fr := executeToolCalls ctx.handlers ctx.sharedContext ctx.plan log.services log.runs
  let output := toolCallingOutput str ctx.plan fr
  ⟨⟨output.1, fr.board⟩, output.2⟩

/-- `dispatch`.  One turn more than there are steps is enough for the loop of the parallel handler. -/
def dispatch (str : Double → String) (pool : Pool StepArgs) (strategy : ExecutionStrategyType)
    (ctx : RuntimeContext F S) (log : ToolLog S) : Option (Dispatched F S) :=
  match strategy with
  | .directLlm => some ⟨directLlmHandler log, []⟩
  | .rag => some ⟨ragHandler ctx log, []⟩
  | .multiStep => some ⟨executeSequential ctx log, []⟩
  | .parallel =>
    (executeParallelRetrievals ctx pool log (ctx.plan.tasks.length + 1)).map fun execution =>
      ⟨execution, []⟩
  | .toolCalling => some (toolCallingHandler str ctx log)

end Handlers

/-! ## The trail of a schedule -/

section Trail

variable {A Ctx Out F W β : Type} [Inhabited Out]

/-- Every execution of one of the steps adds `adds step` to the trail, whatever frame it works on. -/
def Leaves (ctx : ExecutionHandlerContext A Ctx Out F W) (trail : W → List β) (adds : PlanStep A → List β)
    (steps : List (PlanStep A)) : Prop :=
  ∀ step ∈ steps, ∀ fr : Frame Ctx Out F W, fr.shared.base = ctx.sharedContext →
    trail (attempt ctx.handlers step fr).2 = trail fr.board.world ++ adds step

variable {ctx : ExecutionHandlerContext A Ctx Out F W} {trail : W → List β} {adds : PlanStep A → List β}

theorem Leaves.subset {steps steps' : List (PlanStep A)} (h : Leaves ctx trail adds steps)
    (hsub : ∀ step ∈ steps', step ∈ steps) : Leaves ctx trail adds steps' :=
  fun step hstep => h step (hsub step hstep)

theorem Leaves.tail {step : PlanStep A} {steps : List (PlanStep A)}
    (h : Leaves ctx trail adds (step :: steps)) : Leaves ctx trail adds steps :=
  h.subset fun _ hstep => List.mem_cons_of_mem _ hstep

/-- Steps that share one context. -/
theorem trail_foldl_executeStep {steps : List (PlanStep A)} (h : Leaves ctx trail adds steps)
    (fr : Frame Ctx Out F W) (hbase : fr.shared.base = ctx.sharedContext) :
    trail (steps.foldl (fun fr step => (executeStep ctx.handlers step fr).2) fr).board.world =
      trail fr.board.world ++ steps.flatMap adds := by
  induction steps generalizing fr with
  | nil => exact (List.append_nil _).symm
  | cons step steps ih =>
    have hfirst := h step List.mem_cons_self fr hbase
    rw [List.foldl_cons, ih h.tail _ (by rw [executeStep_eq]; exact hbase), executeStep_eq,
      List.flatMap_cons, ← List.append_assoc]
    exact congrArg (· ++ steps.flatMap adds) hfirst

/-- Isolated steps, one after the other. -/
theorem trail_foldl_runIsolated {steps : List (PlanStep A)} (h : Leaves ctx trail adds steps)
    (fr : Frame Ctx Out F W) :
    trail (steps.foldl (runIsolated ctx) fr).board.world = trail fr.board.world ++ steps.flatMap adds := by
  induction steps generalizing fr with
  | nil => exact (List.append_nil _).symm
  | cons step steps ih =>
    have hfirst := h step List.mem_cons_self (isolated ctx fr.completed fr.board) rfl
    rw [List.foldl_cons, ih h.tail, runIsolated_eq, List.flatMap_cons, ← List.append_assoc]
    exact congrArg (· ++ steps.flatMap adds) hfirst

/-- The workers of a batch, in the order they complete. -/
theorem trail_runWorkers {steps : List (PlanStep A)} (h : Leaves ctx trail adds steps)
    (snapshot : Dict Int Out) (board : Board Out F W) :
    trail (runWorkers ctx snapshot steps board).2.world = trail board.world ++ steps.flatMap adds := by
  induction steps generalizing board with
  | nil => exact (List.append_nil _).symm
  | cons step steps ih =>
    have hfirst := h step List.mem_cons_self (isolated ctx snapshot board) rfl
    show trail (runWorkers ctx snapshot steps (executeIsolatedStep ctx step snapshot board).2).2.world = _
    rw [ih h.tail, executeIsolatedStep_eq, List.flatMap_cons, ← List.append_assoc]
    exact congrArg (· ++ steps.flatMap adds) hfirst

theorem board_foldl_mergeBatch (outcomes : Dict Int (StepOutcome Out F)) (steps : List (PlanStep A))
    (fr : Frame Ctx Out F W) : (steps.foldl (mergeBatch outcomes) fr).board = fr.board := by
  induction steps generalizing fr with
  | nil => rfl
  | cons step steps ih =>
    rw [List.foldl_cons, ih]
    unfold mergeBatch absorb
    split
    · split <;> rfl
    · rfl

/-- **One wave** adds what its steps say, the retrievals in the order the pool completes them. -/
theorem trail_wave {ready : List (PlanStep A)} (h : Leaves ctx trail adds ready) (pool : Pool A)
    (fr : Frame Ctx Out F W) :
    (trail (wave ctx pool ready fr).board.world).Perm (trail fr.board.world ++ ready.flatMap adds) := by
  have hretrievals : Leaves ctx trail adds (ready.filter isRetrieval) :=
    h.subset fun _ hstep => (List.mem_filter.mp hstep).1
  have hothers : Leaves ctx trail adds (ready.filter fun step => !isRetrieval step) :=
    h.subset fun _ hstep => (List.mem_filter.mp hstep).1
  have hsplit : ((ready.filter isRetrieval).flatMap adds ++
      (ready.filter fun step => !isRetrieval step).flatMap adds).Perm (ready.flatMap adds) := by
    rw [← List.flatMap_append]
    exact (List.filter_append_perm isRetrieval ready).flatMap_right _
  unfold wave
  simp only []
  rw [trail_foldl_runIsolated hothers]
  by_cases hpool : 1 < (ready.filter isRetrieval).length ∧ 1 < maxWorkers ctx
  · rw [if_pos hpool]
    have hbatch : trail (executeRetrievalBatch ctx pool (ready.filter isRetrieval) fr.completed
        fr.board).2.world =
          trail fr.board.world ++ (pool.order (ready.filter isRetrieval)).flatMap adds :=
      trail_runWorkers (hretrievals.subset fun _ hstep => (pool.perm _).mem_iff.mp hstep) _ _
    have hmerge := board_foldl_mergeBatch
      (executeRetrievalBatch ctx pool (ready.filter isRetrieval) fr.completed fr.board).1
      (ready.filter isRetrieval)
      { fr with board :=
        (executeRetrievalBatch ctx pool (ready.filter isRetrieval) fr.completed fr.board).2 }
    have hboard : ∀ fr : Frame Ctx Out F W, (publish fr).board = fr.board := fun _ => rfl
    rw [hboard, hmerge, hbatch, List.append_assoc]
    refine List.Perm.append_left _ (List.Perm.trans ?_ hsplit)
    exact ((pool.perm _).flatMap_right adds).append_right _
  · rw [if_neg hpool, trail_foldl_runIsolated hretrievals, List.append_assoc]
    exact hsplit.append_left _

/-- **The loop** adds what the pending steps say, by induction on its turns. -/
theorem trail_scheduleLoop (pool : Pool A) (fuel : Nat) {pending : List (PlanStep A)}
    (h : Leaves ctx trail adds pending) (fr : Frame Ctx Out F W)
    (hbase : fr.shared.base = ctx.sharedContext) (hnodup : (pending.map PlanStep.stepId).Nodup)
    {t : Frame Ctx Out F W} (hloop : scheduleLoop ctx pool fuel pending fr = some t) :
    (trail t.board.world).Perm (trail fr.board.world ++ pending.flatMap adds) := by
  induction fuel generalizing pending fr with
  | zero => cases hloop
  | succ fuel ih =>
    unfold scheduleLoop at hloop
    by_cases hempty : pending.isEmpty = true
    · rw [if_pos hempty] at hloop
      obtain rfl := Option.some.inj hloop
      obtain rfl := List.isEmpty_iff.mp hempty
      simp
    rw [if_neg hempty] at hloop
    simp only [] at hloop
    by_cases hready : (pending.filter fun step => dependenciesMet step fr.completed).isEmpty = true
    · rw [if_pos hready] at hloop
      obtain rfl := Option.some.inj hloop
      rw [trail_foldl_executeStep h fr hbase]
    · rw [if_neg hready, filter_processed pending fr.completed hnodup] at hloop
      -- the wave, then the steps that were not ready
      have hleaves : Leaves ctx trail adds
          (pending.filter fun step => dependenciesMet step fr.completed) :=
        h.subset fun _ hstep => (List.mem_filter.mp hstep).1
      have hwave := trail_wave hleaves pool fr
      have hrest := ih (h.subset fun _ hstep => (List.mem_filter.mp hstep).1)
        (wave ctx pool (pending.filter fun step => dependenciesMet step fr.completed) fr)
        ((wave_base pool _ fr).trans hbase) (hnodup.sublist (List.filter_sublist.map _)) hloop
      refine hrest.trans ((hwave.append_right _).trans ?_)
      rw [List.append_assoc, ← List.flatMap_append]
      refine List.Perm.append_left _ (List.Perm.flatMap_right _ ?_)
      exact List.filter_append_perm _ pending

end Trail

/-! ## The evidence of a schedule -/

section Vouching

variable {A Ctx Out F W : Type} [Inhabited Out]

/-- Every evidence that a handler appends for a step has a property, whatever frame it works on. -/
def Vouches (ctx : ExecutionHandlerContext A Ctx Out F W) (P : PlanStep A → Evidence F → Prop) : Prop :=
  ∀ step ∈ ctx.plan.tasks, ∀ fr : Frame Ctx Out F W, fr.shared.base = ctx.sharedContext →
    ∀ e ∈ (attempt ctx.handlers step fr).1.appended, P step e

variable {ctx : ExecutionHandlerContext A Ctx Out F W} {P : PlanStep A → Evidence F → Prop}

theorem Attempt.mem_appended_of_mem_kept {a : Attempt Out F} {e : Evidence F} (h : e ∈ a.kept) :
    e ∈ a.appended := by
  unfold Attempt.kept at h
  split at h
  · exact h
  · cases h

/-- Steps that share one context. -/
theorem vouched_foldl_executeStep (h : Vouches ctx P) {steps : List (PlanStep A)}
    (hsteps : ∀ step ∈ steps, step ∈ ctx.plan.tasks) (fr : Frame Ctx Out F W)
    (hbase : fr.shared.base = ctx.sharedContext)
    (hfr : ∀ e ∈ fr.shared.allEvidence, ∃ step ∈ ctx.plan.tasks, P step e) :
    ∀ e ∈ (steps.foldl (fun fr step => (executeStep ctx.handlers step fr).2) fr).shared.allEvidence,
      ∃ step ∈ ctx.plan.tasks, P step e := by
  induction steps generalizing fr with
  | nil => exact hfr
  | cons step steps ih =>
    rw [List.foldl_cons]
    apply ih (fun s hs => hsteps s (List.mem_cons_of_mem _ hs))
    · rw [executeStep_eq]
      exact hbase
    · intro e he
      rw [executeStep_eq] at he
      rcases List.mem_append.mp he with he | he
      · exact hfr e he
      · have hmem := hsteps step List.mem_cons_self
        exact ⟨step, hmem, h step hmem fr hbase e he⟩

/-- A settled schedule of the plan. -/
theorem Settled.vouched (h : Vouches ctx P) {world : W} {entries : List (Entry A Out F)}
    {t : Frame Ctx Out F W} (hset : Settled ctx world entries t) :
    ∀ e ∈ t.shared.allEvidence, ∃ step ∈ ctx.plan.tasks, P step e := by
  intro e he
  rw [hset.ran.evidence] at he
  rcases List.mem_append.mp he with he | he
  · cases he
  · obtain ⟨entry, hentry, hkept⟩ := List.mem_flatMap.mp he
    obtain ⟨fr, hbase, -, -, hattempt⟩ := hset.ran.tried entry hentry
    refine ⟨entry.step, hset.step_mem hentry, h entry.step (hset.step_mem hentry) fr hbase e ?_⟩
    rw [hattempt]
    exact Attempt.mem_appended_of_mem_kept hkept

end Vouching

/-! ## The handlers of the runtime -/

section Runtime

variable {F W : Type} [PyFloat F]

/-- The handlers that `core_engine.py` registers beside the governed one; there is none for reasoning. -/
def otherHandlers (S : RetrievalService F W) : StepType → Option (StepHandler F (ServiceWorld W))
  | .retrieve => some S.retrieveHandler
  | .compare => some fun _ _ log => (⟨[], .ok .none⟩, log)
  | .synthesis => some fun _ _ log => (⟨[], .ok .none⟩, log)
  | _ => none

def agentHandlers (registry : Dict String Tool) (S : RetrievalService F W) :
    StepType → Option (StepHandler F (ServiceWorld W)) :=
  toolHandlers (governedEngine registry) (otherHandlers S)

/-- The request of a retrieval step, if it passes the checks. -/
def requestsOf (T : PyText) (scope : RequestScope) (step : QueryStep) : List RetrievalRequest :=
  if isRetrieval step then (fromContext T scope step.args).toOption.toList else []

/-- No retrieval of the plan waits for another step. -/
def RetrievalsFirst (plan : ExecutionPlan StepArgs) : Prop :=
  ∀ step ∈ plan.tasks, step.stepType = .retrieve → step.dependsOn = []

/-- A strategy that executes the retrievals of a plan. -/
def ExecutionStrategyType.retrieves : ExecutionStrategyType → Bool
  | .rag | .multiStep | .parallel => true
  | .directLlm | .toolCalling => false

variable {registry : Dict String Tool} {S : RetrievalService F W}
  {ctx : RuntimeContext F (ServiceWorld W)}

theorem requests_retrieveHandler (step : QueryStep)
    (shared : SharedContext RequestScope (StepOutput F) F) (log : ToolLog (ServiceWorld W)) :
    (S.retrieveHandler step shared log).2.services.requests =
        log.services.requests ++ (fromContext S.retriever.text shared.base step.args).toOption.toList ∧
      (S.retrieveHandler step shared log).2.runs = log.runs := by
  unfold RetrievalService.retrieveHandler
  cases fromContext S.retriever.text shared.base step.args with
  | error e => exact ⟨(List.append_nil _).symm, rfl⟩
  | ok request =>
    simp only []
    cases S.search log.services.world request with
    | error e => exact ⟨rfl, rfl⟩
    | ok evidences => exact ⟨rfl, rfl⟩

/-- **Each retrieval step makes its request, and no other step does.** -/
theorem leaves_requests (hhandlers : ctx.handlers = agentHandlers registry S)
    (hfirst : RetrievalsFirst ctx.plan) :
    Leaves ctx (fun log => log.services.requests) (requestsOf S.retriever.text ctx.sharedContext)
      ctx.plan.tasks := by
  intro step hstep fr hbase
  unfold attempt
  by_cases hmet : dependenciesMet step fr.completed = true
  · rw [if_pos hmet, hhandlers]
    cases htype : step.stepType with
    | retrieve =>
      have hrequests := (requests_retrieveHandler (S := S) step
        { fr.shared with stepResults := fr.completed } fr.board.world).1
      rw [hbase] at hrequests
      rw [requestsOf, isRetrieval, htype]
      exact hrequests
    | toolCall =>
      obtain ⟨records, hworld, -⟩ := world_financialMetricsHandler (governedEngine registry) step
        { fr.shared with stepResults := fr.completed } fr.board.world
      rw [requestsOf, isRetrieval, htype]
      show (financialMetricsHandler (governedEngine registry) step
        { fr.shared with stepResults := fr.completed } fr.board.world).2.services.requests = _ ++ []
      rw [hworld, List.append_nil]
    | compare =>
      rw [requestsOf, isRetrieval, htype]
      exact (List.append_nil _).symm
    | synthesis =>
      rw [requestsOf, isRetrieval, htype]
      exact (List.append_nil _).symm
    | reasoning =>
      rw [requestsOf, isRetrieval, htype]
      exact (List.append_nil _).symm
  · rw [if_neg hmet]
    -- a retrieval waits for nothing, so this is no retrieval
    have hother : isRetrieval step = false := by
      rw [← Bool.not_eq_true]
      intro hretrieval
      apply hmet
      rw [dependenciesMet, hfirst step hstep (beq_iff_eq.mp hretrieval)]
      rfl
    rw [requestsOf, hother]
    exact (List.append_nil _).symm

/-- Where the plan has no tool call, no tool runs. -/
theorem leaves_runs (hhandlers : ctx.handlers = agentHandlers registry S)
    (hnone : ∀ step ∈ ctx.plan.tasks, step.stepType ≠ .toolCall) :
    Leaves ctx ToolLog.runs (fun _ => []) ctx.plan.tasks := by
  intro step hstep fr hbase
  rw [List.append_nil]
  unfold attempt
  by_cases hmet : dependenciesMet step fr.completed = true
  · rw [if_pos hmet, hhandlers]
    cases htype : step.stepType with
    | retrieve =>
      exact (requests_retrieveHandler (S := S) step
        { fr.shared with stepResults := fr.completed } fr.board.world).2
    | toolCall => exact absurd htype (hnone step hstep)
    | compare => rfl
    | synthesis => rfl
    | reasoning => rfl
  · rw [if_neg hmet]

/-- Evidence of a retrieval step, grounded in the request of the step. -/
def StepGrounded (S : RetrievalService F W) (scope : RequestScope) (step : QueryStep) (e : Evidence F) :
    Prop :=
  isRetrieval step = true ∧
    ∃ request, fromContext S.retriever.text scope step.args = .ok request ∧ S.Grounded request e

theorem financialMetricsHandler_evidence (engine : ToolEngine) (step : QueryStep)
    (shared : SharedContext RequestScope (StepOutput F) F) (log : ToolLog (ServiceWorld W)) :
    (financialMetricsHandler engine step shared log).1.evidence = [] := by
  unfold financialMetricsHandler
  dsimp only
  split <;> rfl

/-- **Only retrieval steps bring evidence, and it is grounded.** -/
theorem vouches_grounded (hhandlers : ctx.handlers = agentHandlers registry S) :
    Vouches ctx (StepGrounded S ctx.sharedContext) := by
  intro step hstep fr hbase e he
  unfold attempt at he
  by_cases hmet : dependenciesMet step fr.completed = true
  · rw [if_pos hmet, hhandlers] at he
    cases htype : step.stepType with
    | retrieve =>
      rw [htype] at he
      have hgrounded := S.retrieveHandler_grounded step { fr.shared with stepResults := fr.completed }
        fr.board.world e he
      rw [hbase] at hgrounded
      exact ⟨beq_iff_eq.mpr htype, hgrounded⟩
    | toolCall =>
      rw [htype] at he
      have hnone := financialMetricsHandler_evidence (governedEngine registry) step
        { fr.shared with stepResults := fr.completed } fr.board.world
      replace he : e ∈ (financialMetricsHandler (governedEngine registry) step
        { fr.shared with stepResults := fr.completed } fr.board.world).1.evidence := he
      rw [hnone] at he
      cases he
    | compare =>
      rw [htype] at he
      cases he
    | synthesis =>
      rw [htype] at he
      cases he
    | reasoning =>
      rw [htype] at he
      cases he
  · rw [if_neg hmet] at he
    cases he

/-- What the execution of a plan does, whatever the strategy. -/
structure Executed (S : RetrievalService F W) (ctx : RuntimeContext F (ServiceWorld W))
    (strategy : ExecutionStrategyType) (log : ToolLog (ServiceWorld W)) (d : Dispatched F (ServiceWorld W)) :
    Prop where
  requests : (d.execution.board.world.services.requests).Perm
    (log.services.requests ++
      if strategy.retrieves then ctx.plan.tasks.flatMap (requestsOf S.retriever.text ctx.sharedContext)
      else [])
  runs : strategy ≠ .toolCalling → (∀ step ∈ ctx.plan.tasks, step.stepType ≠ .toolCall) →
    (d.execution.board.world.runs).Perm log.runs
  grounded : ∀ e ∈ d.execution.output.evidences, ∃ step ∈ ctx.plan.tasks,
    StepGrounded S ctx.sharedContext step e
  citations : d.execution.output.citations = (buildContextFromEvidence d.execution.output.evidences).2
  context : strategy.retrieves = true →
    d.execution.output.context = (buildContextFromEvidence d.execution.output.evidences).1
  silent : strategy.retrieves = false → d.execution.output.evidences = []

/-- **Every strategy executes the plan within its means.** -/
theorem executed_dispatch (str : Double → String) (pool : Pool StepArgs)
    (hhandlers : ctx.handlers = agentHandlers registry S) (hfirst : RetrievalsFirst ctx.plan)
    (hearlier : ctx.plan.Earlier) (strategy : ExecutionStrategyType) (log : ToolLog (ServiceWorld W)) :
    ∃ d, dispatch str pool strategy ctx log = some d ∧ Executed S ctx strategy log d := by
  have hrequests := leaves_requests hhandlers hfirst
  have hvouched := vouches_grounded hhandlers
  have hnothing : ctx.plan.tasks.flatMap (fun _ => ([] : List ToolRun)) = [] :=
    List.flatMap_eq_nil_iff.mpr fun _ _ => rfl
  cases strategy with
  | directLlm =>
    refine ⟨_, rfl, ?_, ?_, ?_, rfl, fun h => absurd h (by decide), ?_⟩
    · simp [ExecutionStrategyType.retrieves, directLlmHandler, Board.fresh]
    · exact fun _ _ => .refl _
    · exact fun e he => absurd he List.not_mem_nil
    · exact fun _ => rfl
  | rag =>
    refine ⟨_, rfl, ?_, ?_, ?_, rfl, fun _ => rfl, fun h => absurd h (by decide)⟩
    · show ((executePlan ctx log).board.world.services.requests).Perm _
      rw [executePlan, trail_foldl_executeStep hrequests _ rfl]
      rfl
    · intro _ hnone
      show ((executePlan ctx log).board.world.runs).Perm _
      rw [executePlan, trail_foldl_executeStep (leaves_runs hhandlers hnone) _ rfl, hnothing]
      exact List.Perm.of_eq (List.append_nil _)
    · apply vouched_foldl_executeStep hvouched (fun _ h => h) _ rfl
      exact fun e he => absurd he List.not_mem_nil
  | multiStep =>
    obtain ⟨entries, -, hset⟩ := settled_sequential ctx hearlier.earlierOrUnknown log
    refine ⟨_, rfl, ?_, ?_, ?_, rfl, fun _ => rfl, fun h => absurd h (by decide)⟩
    · show ((ctx.plan.tasks.foldl (runIsolated ctx)
        (baseFrame ctx (.fresh log))).board.world.services.requests).Perm _
      rw [trail_foldl_runIsolated hrequests]
      rfl
    · intro _ hnone
      show ((ctx.plan.tasks.foldl (runIsolated ctx) (baseFrame ctx (.fresh log))).board.world.runs).Perm _
      rw [trail_foldl_runIsolated (leaves_runs hhandlers hnone), hnothing]
      exact List.Perm.of_eq (List.append_nil _)
    · exact hset.vouched hvouched
  | parallel =>
    obtain ⟨t, entries, hloop, -, hset⟩ := settled_parallel ctx pool log _ (Nat.lt_succ_self _)
    refine ⟨⟨t.finish ctx, []⟩, ?_, ?_, ?_, hset.vouched hvouched, rfl, fun _ => rfl,
      fun h => absurd h (by decide)⟩
    · simp only [dispatch, executeParallelRetrievals, hloop, Option.map_some]
    · exact trail_scheduleLoop pool _ hrequests _ rfl ctx.plan.stepIdsNodup hloop
    · intro _ hnone
      have hruns := trail_scheduleLoop pool _ (leaves_runs hhandlers hnone) _ rfl ctx.plan.stepIdsNodup hloop
      rw [hnothing] at hruns
      exact hruns.trans (List.Perm.of_eq (List.append_nil _))
  | toolCalling =>
    obtain ⟨records, called, hturns⟩ := turns_executeToolCalls registry (otherHandlers S) ctx.sharedContext
      ctx.plan log.services log.runs
    refine ⟨_, rfl, ?_, fun h => absurd rfl h, ?_, rfl, fun h => absurd h (by decide), fun _ => rfl⟩
    · show ((executeToolCalls ctx.handlers ctx.sharedContext ctx.plan log.services
        log.runs).board.world.services.requests).Perm _
      rw [hhandlers, agentHandlers, hturns.services]
      exact List.Perm.of_eq (List.append_nil _).symm
    · exact fun e he => absurd he List.not_mem_nil

end Runtime

end FinancialRag.Agent
