/-
  Governed tool calls: `agent/tools/tool_engine.py` with its authorization hook, the step handler of
  `agent/execution/financial_metrics_handler.py` and `agent/execution/handlers/tool_calling_handler.py`.

  A call is checked three times: the strategy handler admits only steps that name the one tool, the hook
  admits only that tool and its four operations, the tool checks its operation again.  The result is that
  NO plan runs anything else, whatever tools are registered (`toolCalling_governed`): every run of a tool
  is a supported operation of `financial_metrics`, for a step of the plan, in the order of the plan and
  at most once.  A plan executed this way yields no evidence and no citation.

  The log notes the tool runs and is where the trace of the code lives.
-/
import FinancialRag.Agent.QueryPlanner

set_option linter.unusedVariables false
set_option linter.unusedSectionVars false

namespace FinancialRag.Agent

open FinancialRag.Storage FinancialRag.Retrieval FinancialMetricsTool

/-! ## Scope and results -/

/-- The entries of the shared context that the runtime sets. -/
structure RequestScope where
  tenantId : Int
  threadId : Option String
  includePublic : Bool

/-- What a tool returns: the output of `FinancialMetricsTool`; another dictionary, known by the line it
    is written as; or something else. -/
inductive ToolOutput where
  | metric (output : MetricOutput)
  | dict (line : String)
  | other

/-- `isinstance(output, dict)` -/
def ToolOutput.isDict : ToolOutput → Bool
  | .other => false
  | _ => true

/-- What a handler returns. -/
inductive StepOutput (F : Type) where
  | none
  | evidences (evidences : List (Evidence F))
  | tool (output : ToolOutput)

instance {F : Type} : Inhabited (StepOutput F) := ⟨.none⟩

inductive ToolStatus where
  | pending
  | running
  | success
  | failed
  | skipped
  deriving DecidableEq, Repr

def ToolStatus.value : ToolStatus → String
  | .pending => "pending"
  | .running => "running"
  | .success => "success"
  | .failed => "failed"
  | .skipped => "skipped"

structure ToolResult where
  status : ToolStatus
  output : ToolOutput := .other
  error : Option String := none

/-- `error or default` -/
def textOr (error : Option String) (default : String) : String :=
  match error with
  | some text => if text = "" then default else text
  | none => default

/-! ## The tool engine -/

/-- A registered tool; what it raises is known by its text. -/
structure Tool where
  supports : MetricParameters → Except String Bool
  execute : MetricParameters → Option Int → Except String ToolResult

structure ToolAuthorizationDecision where
  allowed : Bool
  reason : Option String := none

/-- What a call of the hook comes to. -/
inductive HookAnswer where
  | raised
  | bool (allowed : Bool)
  | decision (decision : ToolAuthorizationDecision)
  | invalid

/-- `evaluate_authorization` -/
def evaluateAuthorization : HookAnswer → ToolAuthorizationDecision
  | .raised => { allowed := false, reason := some "authorization hook failed" }
  | .bool allowed => { allowed := allowed }
  | .decision decision => decision
  | .invalid => { allowed := false, reason := some "authorization hook returned an invalid decision" }

/-- A call of `Tool.execute`. -/
structure ToolRun where
  tool : String
  parameters : MetricParameters

structure ToolEngine where
  registry : Dict String Tool
  hook : Option (String → MetricParameters → HookAnswer)

namespace ToolEngine

variable (engine : ToolEngine)

/-- `_authorization_denied_result` -/
def deniedResult (name : String) (parameters : MetricParameters) : Option ToolResult :=
  match engine.hook with
  | none => none
  | some hook =>
    let decision := evaluateAuthorization (hook name parameters)
    if decision.allowed then none
    else
      some
        { status := .skipped
          error := some (textOr decision.reason ("Tool '" ++ name ++ "' was not authorized")) }

/-- A list of names as Python writes it. -/
def listText (names : List String) : String :=
  "[" ++ ", ".intercalate (names.map fun name => "'" ++ name ++ "'") ++ "]"

/-- `execute`: the result or what is raised, and the tool runs. -/
def execute (name : String) (parameters : MetricParameters) (tenantId : Option Int) :
    Except String ToolResult × List ToolRun :=
  match engine.deniedResult name parameters with
  | some denied => (.ok denied, [])
  | none =>
    match engine.registry.get name with
    | none =>
      (.error ("Tool '" ++ name ++ "' not registered. Available: " ++ listText engine.registry.keys), [])
    | some tool =>
      match tool.supports parameters with
      | .error e => (.error e, [])
      | .ok false => (.error ("Tool '" ++ name ++ "' does not support the given context."), [])
      | .ok true => (tool.execute parameters tenantId, [⟨name, parameters⟩])

end ToolEngine

/-! ## The governed tool -/

/-- `authorize_financial_metrics_tool`; the test of membership raises for what cannot be hashed. -/
def authorizeFinancialMetricsTool (name : String) (parameters : MetricParameters) : HookAnswer :=
  if name ≠ "financial_metrics" then
    .decision
      { allowed := false, reason := some ("Tool '" ++ name ++ "' is not authorized for Agent execution") }
  else
    match operationOf parameters with
    | .ok _ => .decision { allowed := true }
    | .error .typeError => .raised
    | .error _ =>
      .decision { allowed := false, reason := some "Financial metric operation is not authorized" }

/-- `financial_metrics_tool_engine` of `core_engine.py`, over any registry. -/
def governedEngine (registry : Dict String Tool) : ToolEngine :=
  ⟨registry, some authorizeFinancialMetricsTool⟩

/-- `FinancialMetricsTool`, with the texts of the exceptions. -/
def financialMetricsTool (E : MathLibrary) (text : PyException → String) : Tool where
  supports parameters :=
    match operationOf parameters with
    | .ok _ => .ok true
    | .error .typeError => .error (text .typeError)
    | .error _ => .ok false
  execute parameters _ :=
    match FinancialMetricsTool.execute E parameters with
    | .ok (.success output) => .ok { status := .success, output := .metric output }
    | .ok (.failed e) => .ok { status := .failed, error := some (text e) }
    | .error e => .error (text e)

/-! ## The step handler -/

/-- An entry of `_tool_trace`, less the time it took. -/
structure ToolTrace where
  stepId : Int
  toolName : Option String
  operation : Option MetricParameter
  status : String
  output : Option ToolOutput := none
  error : Option String := none
  policy : String

/-- The world of a run: the services other handlers use, the trace and the tool runs. -/
structure ToolLog (S : Type) where
  services : S
  trace : List ToolTrace
  runs : List ToolRun

/-- A parameter as the tool sees it; a list cannot be hashed. -/
def ParameterValue.metric : ParameterValue → MetricParameter
  | .scalar value => value
  | .strings _ => .other false

/-- `dict(step.parameters)` -/
def metricParameters (args : StepArgs) : MetricParameters := fun name =>
  (args.parameter name).map ParameterValue.metric

def financialMetricsPolicy : String := "agent_financial_metrics_v1"

/-- What the handler traces of a result. -/
def resultTrace (step : QueryStep) (result : ToolResult) : ToolTrace where
  stepId := step.stepId
  toolName := some (step.args.toolName.getD "")
  operation := metricParameters step.args "operation"
  status := result.status.value
  output := if result.status = .success then some result.output else none
  error := if result.status = .success then none else some (textOr result.error "Tool execution failed")
  policy := financialMetricsPolicy

/-- What the handler returns or raises for a result. -/
def resultOutcome {F : Type} (result : ToolResult) : Except String (StepOutput F) :=
  if result.status ≠ .success then .error (textOr result.error "Financial metrics tool execution failed")
  else if result.output.isDict then .ok (.tool result.output)
  else .error "Financial metrics tool returned an invalid result"

/-- A step handler of the runtime. -/
abbrev StepHandler (F S : Type) := Handler StepArgs RequestScope (StepOutput F) F (ToolLog S)

variable {F S : Type}

/-- `FinancialMetricsStepHandler.__call__`. -/
def financialMetricsHandler (engine : ToolEngine) : StepHandler F S := fun step shared log =>
  let ran := engine.execute (step.args.toolName.getD "") (metricParameters step.args)
    (some shared.base.tenantId)
  let log := { log with runs := log.runs ++ ran.2 }
  match ran.1 with
  | .error e => (⟨[], .error e⟩, log)
  | .ok result =>
    (⟨[], resultOutcome result⟩, { log with trace := log.trace ++ [resultTrace step result] })

/-- The registered step handlers: the governed one, and any others for the other types. -/
def toolHandlers (engine : ToolEngine) (others : StepType → Option (StepHandler F S)) :
    StepType → Option (StepHandler F S)
  | .toolCall => some (financialMetricsHandler engine)
  | stepType => others stepType

/-! ## The strategy handler -/

abbrev ToolFrame (F S : Type) := Frame RequestScope (StepOutput F) F (ToolLog S)

def governedPolicy : String := "financial_metrics_only"

/-- `_record_rejection`, and the step result it leaves. -/
def rejectStep (fr : ToolFrame F S) (step : QueryStep) (error : String) (status : StepStatus)
    (statusText : String) : ToolFrame F S :=
  let board := fr.board.settle step status (failure step error)
  let record : ToolTrace :=
    { stepId := step.stepId
      toolName := step.args.toolName
      operation := metricParameters step.args "operation"
      status := statusText
      error := some error
      policy := governedPolicy }
  { fr with board := { board with world := { board.world with trace := board.world.trace ++ [record] } } }

/-- The record of a step whose handler traced nothing. -/
def fallbackTrace (step : QueryStep) (result : ExecutionResult (StepOutput F)) : ToolTrace where
  stepId := step.stepId
  toolName := step.args.toolName
  operation := metricParameters step.args "operation"
  status := if result.success then "success" else "failed"
  output :=
    match result.success, result.output with
    | true, .tool output => some output
    | _, _ => none
  error := if result.success then none else some (textOr result.error "Tool execution failed")
  policy := governedPolicy

/-- The body of the loop of `ToolCallingHandler.execute`. -/
def toolCallingStep (handlers : StepType → Option (StepHandler F S))
    (fr : ToolFrame F S) (step : QueryStep) : ToolFrame F S :=
  if dependenciesMet step fr.completed = false then
    rejectStep fr step "Dependencies not met" .skipped "skipped"
  else if step.stepType ≠ .toolCall then
    rejectStep fr step "Tool-calling strategy requires an explicit tool_call plan step" .skipped "skipped"
  else if step.args.toolName ≠ some "financial_metrics" then
    rejectStep fr step
      ("Tool '" ++ textOr step.args.toolName "<missing>" ++
        "' is not enabled; allowed tool: financial_metrics") .failed "failed"
  else
    let ran := executeStep handlers step fr
    let log := ran.2.board.world
    if log.trace.length = fr.board.world.trace.length then
      { ran.2 with
        board :=
          { ran.2.board with world := { log with trace := log.trace ++ [fallbackTrace step ran.1] } } }
    else ran.2

/-- The line of `_format_tool_context` for a metric; `str` writes a float. -/
def metricLine (str : Double → String) (output : MetricOutput) : String :=
  let inputs := PyList.sorted (fun a b => decide (a.1 < b.1)) output.inputs
  let inputText := ", ".intercalate (inputs.map fun input => input.1 ++ "=" ++ str input.2)
  let unitSuffix := if output.unit = "" then "" else " " ++ output.unit
  "- " ++ output.operation ++ ": " ++ str output.value ++ unitSuffix ++ " (" ++ inputText ++ ")"

/-- The lines of the successful calls. -/
def toolLines (str : Double → String) (calls : List ToolTrace) : List String :=
  calls.filterMap fun call =>
    if call.status = "success" then
      match call.output with
      | some (.metric output) => some (metricLine str output)
      | some (.dict line) => some line
      | _ => none
    else none

/-- `_format_tool_context` -/
def formatToolContext (str : Double → String) (calls : List ToolTrace) : String :=
  match toolLines str calls with
  | [] => ""
  | lines => "\n".intercalate ("Deterministic financial calculation:" :: lines)

/-- `ToolCallingHandler.execute`, which starts with an empty trace. -/
def executeToolCalls (handlers : StepType → Option (StepHandler F S)) (scope : RequestScope)
    (plan : ExecutionPlan StepArgs) (services : S) (runs : List ToolRun) : ToolFrame F S :=
  plan.tasks.foldl (toolCallingStep handlers) ⟨⟨scope, [], .empty⟩, .empty, .fresh ⟨services, [], runs⟩⟩

/-- Its output. -/
def toolCallingOutput (str : Double → String) (plan : ExecutionPlan StepArgs) (fr : ToolFrame F S) :
    ExecutionOutput (StepOutput F) F × List ToolTrace :=
  ( { context := formatToolContext str fr.board.world.trace
      citations := []
      evidences := []
      executionResults := plan.tasks.filterMap fun step => fr.board.result step.stepId },
    fr.board.world.trace )

/-! ## What runs -/

/-- A step that the governed tool may run for. -/
def Permitted (step : QueryStep) : Prop :=
  step.stepType = .toolCall ∧ step.args.toolName = some "financial_metrics" ∧
    ∃ operation, operationOf (metricParameters step.args) = .ok operation

/-- The run of the governed tool for a step. -/
def governedRun (step : QueryStep) : ToolRun := ⟨"financial_metrics", metricParameters step.args⟩

/-- **The hook admits one tool and its operations.** -/
theorem allowed_authorizeFinancialMetricsTool (name : String) (parameters : MetricParameters) :
    (evaluateAuthorization (authorizeFinancialMetricsTool name parameters)).allowed = true ↔
      name = "financial_metrics" ∧ ∃ operation, operationOf parameters = .ok operation := by
  unfold authorizeFinancialMetricsTool
  by_cases hname : name = "financial_metrics"
  · rw [if_neg (not_not.mpr hname)]
    cases operationOf parameters with
    | ok operation => simp [evaluateAuthorization, hname]
    | error e => cases e <;> simp [evaluateAuthorization]
  · rw [if_pos hname]
    simp [evaluateAuthorization, hname]

theorem deniedResult_governedEngine (registry : Dict String Tool) (name : String)
    (parameters : MetricParameters) :
    (governedEngine registry).deniedResult name parameters = none ↔
      name = "financial_metrics" ∧ ∃ operation, operationOf parameters = .ok operation := by
  rw [← allowed_authorizeFinancialMetricsTool]
  show (if _ = true then none else some _) = none ↔ _
  split <;> simp_all

/-- A call of the governed engine runs the tool at most once, and only as permitted. -/
theorem runs_governedEngine (registry : Dict String Tool) (name : String) (parameters : MetricParameters)
    (tenantId : Option Int) :
    ((governedEngine registry).execute name parameters tenantId).2 = [] ∨
      ((governedEngine registry).execute name parameters tenantId).2 = [⟨name, parameters⟩] ∧
        ∃ operation, operationOf parameters = .ok operation := by
  unfold ToolEngine.execute
  cases hdenied : (governedEngine registry).deniedResult name parameters with
  | some denied => exact Or.inl rfl
  | none =>
    obtain ⟨-, hoperation⟩ := (deniedResult_governedEngine registry name parameters).mp hdenied
    cases hregistered : (governedEngine registry).registry.get name with
    | none => exact Or.inl rfl
    | some tool =>
      cases hsupports : tool.supports parameters with
      | error e => simp [hsupports]
      | ok supported =>
        cases supported with
        | false => simp [hsupports]
        | true => exact Or.inr ⟨by simp [hsupports], hoperation⟩

/-- What a call of the handler leaves in the log. -/
theorem world_financialMetricsHandler (engine : ToolEngine) (step : QueryStep)
    (shared : SharedContext RequestScope (StepOutput F) F) (log : ToolLog S) :
    ∃ records, (financialMetricsHandler engine step shared log).2 =
        ⟨log.services, log.trace ++ records,
          log.runs ++ (engine.execute (step.args.toolName.getD "") (metricParameters step.args)
            (some shared.base.tenantId)).2⟩ ∧
      (records = [] ∨ ∃ record, records = [record] ∧ record.stepId = step.stepId) := by
  unfold financialMetricsHandler
  dsimp only
  cases (engine.execute (step.args.toolName.getD "") (metricParameters step.args)
      (some shared.base.tenantId)).1 with
  | error e => exact ⟨[], by rw [List.append_nil], Or.inl rfl⟩
  | ok result => exact ⟨[resultTrace step result], rfl, Or.inr ⟨_, rfl, rfl⟩⟩

/-- What one turn of the loop does: one record, at most one run, and a result for the step. -/
structure Turn (step : QueryStep) (fr fr' : ToolFrame F S) (record : ToolTrace) (called : List QueryStep) :
    Prop where
  stepId : record.stepId = step.stepId
  services : fr'.board.world.services = fr.board.world.services
  trace : fr'.board.world.trace = fr.board.world.trace ++ [record]
  runs : fr'.board.world.runs = fr.board.world.runs ++ called.map governedRun
  called : called = [] ∨ called = [step] ∧ Permitted step
  result : ∃ result, fr'.board.result = Function.update fr.board.result step.stepId (some result)

theorem turn_rejectStep (fr : ToolFrame F S) (step : QueryStep) (error : String) (status : StepStatus)
    (statusText : String) :
    ∃ record, Turn step fr (rejectStep fr step error status statusText) record [] :=
  ⟨_, rfl, rfl, rfl, (List.append_nil _).symm, Or.inl rfl, _, rfl⟩

/-- What the execution of an admitted step leaves. -/
theorem executeStep_toolHandlers (engine : ToolEngine) (others : StepType → Option (StepHandler F S))
    (fr : ToolFrame F S) {step : QueryStep}
    (hmet : dependenciesMet step fr.completed = true) (htype : step.stepType = .toolCall) :
    ∃ records, (executeStep (toolHandlers engine others) step fr).2.board.world =
        ⟨fr.board.world.services, fr.board.world.trace ++ records,
          fr.board.world.runs ++ (engine.execute (step.args.toolName.getD "") (metricParameters step.args)
            (some fr.shared.base.tenantId)).2⟩ ∧
      (records = [] ∨ ∃ record, records = [record] ∧ record.stepId = step.stepId) ∧
      ∃ result, (executeStep (toolHandlers engine others) step fr).2.board.result =
        Function.update fr.board.result step.stepId (some result) := by
  obtain ⟨records, hworld, hrecords⟩ := world_financialMetricsHandler engine step
    { fr.shared with stepResults := fr.completed } fr.board.world
  have hattempt : attempt (toolHandlers engine others) step fr =
      (.ran (financialMetricsHandler engine step { fr.shared with stepResults := fr.completed }
          fr.board.world).1,
        (financialMetricsHandler engine step { fr.shared with stepResults := fr.completed }
          fr.board.world).2) := by
    unfold attempt
    rw [if_pos hmet, htype]
    rfl
  rw [executeStep_eq, hattempt]
  exact ⟨records, hworld, hrecords, _, rfl⟩

/-- **One turn of the loop**, under the governed handler. -/
theorem exists_turn (registry : Dict String Tool) (others : StepType → Option (StepHandler F S))
    (fr : ToolFrame F S) (step : QueryStep) :
    ∃ record called,
      Turn step fr (toolCallingStep (toolHandlers (governedEngine registry) others) fr step) record
        called := by
  unfold toolCallingStep
  by_cases hmet : dependenciesMet step fr.completed = false
  · rw [if_pos hmet]
    obtain ⟨record, hturn⟩ := turn_rejectStep fr step "Dependencies not met" .skipped "skipped"
    exact ⟨record, [], hturn⟩
  · rw [if_neg hmet]
    by_cases htype : step.stepType ≠ .toolCall
    · rw [if_pos htype]
      obtain ⟨record, hturn⟩ := turn_rejectStep fr step
        "Tool-calling strategy requires an explicit tool_call plan step" .skipped "skipped"
      exact ⟨record, [], hturn⟩
    · rw [if_neg htype]
      by_cases htool : step.args.toolName ≠ some "financial_metrics"
      · rw [if_pos htool]
        obtain ⟨record, hturn⟩ := turn_rejectStep fr step
          ("Tool '" ++ textOr step.args.toolName "<missing>" ++
            "' is not enabled; allowed tool: financial_metrics") .failed "failed"
        exact ⟨record, [], hturn⟩
      · rw [if_neg htool]
        have hname : step.args.toolName.getD "" = "financial_metrics" := by
          rw [not_not.mp htool]
          rfl
        have hmet' : dependenciesMet step fr.completed = true := by simpa using hmet
        obtain ⟨records, hworld, hrecords, result, hresult⟩ :=
          executeStep_toolHandlers (governedEngine registry) others fr hmet' (not_not.mp htype)
        -- at most one run, and it is permitted
        obtain ⟨called, hcalled, hruns⟩ : ∃ called, (called = [] ∨ called = [step] ∧ Permitted step) ∧
            ((governedEngine registry).execute (step.args.toolName.getD "") (metricParameters step.args)
              (some fr.shared.base.tenantId)).2 = called.map governedRun := by
          rcases runs_governedEngine registry (step.args.toolName.getD "") (metricParameters step.args)
            (some fr.shared.base.tenantId) with hnone | ⟨hone, hoperation⟩
          · exact ⟨[], Or.inl rfl, hnone⟩
          · refine ⟨[step], Or.inr ⟨rfl, not_not.mp htype, not_not.mp htool, hoperation⟩, ?_⟩
            rw [hone, hname]
            rfl
        rw [hruns] at hworld
        dsimp only
        rcases hrecords with rfl | ⟨record, rfl, hrecord⟩
        · rw [if_pos (by rw [hworld, List.append_nil])]
          refine ⟨fallbackTrace step (executeStep (toolHandlers (governedEngine registry) others) step fr).1,
            called, rfl, ?_, ?_, ?_, hcalled, result, hresult⟩
          · rw [hworld]
          · rw [hworld, List.append_nil]
          · rw [hworld]
        · rw [if_neg (by rw [hworld, List.length_append]; simp)]
          refine ⟨record, called, hrecord, ?_, ?_, ?_, hcalled, result, hresult⟩
          · rw [hworld]
          · rw [hworld]
          · rw [hworld]

/-- What a run of the loop does to a list of steps. -/
structure Turns (steps : List QueryStep) (fr fr' : ToolFrame F S) (records : List ToolTrace)
    (called : List QueryStep) : Prop where
  stepIds : records.map ToolTrace.stepId = steps.map PlanStep.stepId
  services : fr'.board.world.services = fr.board.world.services
  trace : fr'.board.world.trace = fr.board.world.trace ++ records
  runs : fr'.board.world.runs = fr.board.world.runs ++ called.map governedRun
  sublist : called.Sublist steps
  permitted : ∀ step ∈ called, Permitted step
  results : ∀ step ∈ steps, (fr'.board.result step.stepId).isSome = true
  kept : ∀ id, (fr.board.result id).isSome = true → (fr'.board.result id).isSome = true

/-- **The whole loop**, by induction on the steps. -/
theorem exists_turns (registry : Dict String Tool) (others : StepType → Option (StepHandler F S))
    (steps : List QueryStep) (fr : ToolFrame F S) :
    ∃ records called,
      Turns steps fr (steps.foldl (toolCallingStep (toolHandlers (governedEngine registry) others)) fr)
        records called := by
  induction steps generalizing fr with
  | nil =>
    exact ⟨[], [], rfl, rfl, (List.append_nil _).symm, (List.append_nil _).symm, .slnil, by simp, by simp,
      fun _ h => h⟩
  | cons step steps ih =>
    obtain ⟨record, first, hturn⟩ := exists_turn registry others fr step
    obtain ⟨records, called, hturns⟩ :=
      ih (toolCallingStep (toolHandlers (governedEngine registry) others) fr step)
    obtain ⟨result, hresult⟩ := hturn.result
    have hstep : ((toolCallingStep (toolHandlers (governedEngine registry) others) fr step).board.result
        step.stepId).isSome = true := by
      rw [hresult, Function.update_self]
      rfl
    refine ⟨record :: records, first ++ called, ?_, ?_, ?_, ?_, ?_, ?_, ?_, ?_⟩
    · rw [List.map_cons, List.map_cons, hturn.stepId, hturns.stepIds]
    · rw [List.foldl_cons, hturns.services, hturn.services]
    · rw [List.foldl_cons, hturns.trace, hturn.trace, List.append_assoc, List.singleton_append]
    · rw [List.foldl_cons, hturns.runs, hturn.runs, List.append_assoc, List.map_append]
    · rcases hturn.called with rfl | ⟨rfl, -⟩
      · exact hturns.sublist.cons step
      · exact hturns.sublist.cons_cons step
    · intro s hs
      rcases List.mem_append.mp hs with hs | hs
      · rcases hturn.called with rfl | ⟨rfl, hpermitted⟩
        · cases hs
        · obtain rfl := List.mem_singleton.mp hs
          exact hpermitted
      · exact hturns.permitted s hs
    · intro s hs
      rcases List.mem_cons.mp hs with rfl | hs
      · exact hturns.kept _ hstep
      · exact hturns.results s hs
    · intro id hid
      refine hturns.kept id ?_
      rw [hresult]
      by_cases hsame : id = step.stepId
      · rw [hsame, Function.update_self]
        rfl
      · rwa [Function.update_of_ne hsame]

/-- The loop of the strategy handler. -/
theorem turns_executeToolCalls (registry : Dict String Tool) (others : StepType → Option (StepHandler F S))
    (scope : RequestScope) (plan : ExecutionPlan StepArgs) (services : S) (runs : List ToolRun) :
    ∃ records called, Turns plan.tasks ⟨⟨scope, [], .empty⟩, .empty, .fresh ⟨services, [], runs⟩⟩
      (executeToolCalls (toolHandlers (governedEngine registry) others) scope plan services runs) records
        called :=
  exists_turns registry others plan.tasks ⟨⟨scope, [], .empty⟩, .empty, .fresh ⟨services, [], runs⟩⟩

/-- A permitted call of the registered tool runs it. -/
theorem execute_financialMetricsTool {registry : Dict String Tool} {E : MathLibrary}
    {text : PyException → String} {parameters : MetricParameters} {operation : String}
    (hregistered : registry.get "financial_metrics" = some (financialMetricsTool E text))
    (hoperation : operationOf parameters = .ok operation) (tenantId : Option Int) :
    (governedEngine registry).execute "financial_metrics" parameters tenantId =
      ((financialMetricsTool E text).execute parameters tenantId, [⟨"financial_metrics", parameters⟩]) := by
  have hdenied := (deniedResult_governedEngine registry "financial_metrics" parameters).mpr
    ⟨rfl, operation, hoperation⟩
  have hregistry : (governedEngine registry).registry.get "financial_metrics" =
      some (financialMetricsTool E text) := hregistered
  have hsupports : (financialMetricsTool E text).supports parameters = .ok true := by
    simp only [financialMetricsTool, hoperation]
  unfold ToolEngine.execute
  simp only [hdenied, hregistry, hsupports]

/-- What the context says of a calculation. -/
def calculationLines (str : Double → String) : Except PyException MetricResult → List String
  | .ok (.success output) => [metricLine str output]
  | _ => []

/-- The log behind an admitted step: one record more, the fallback one where the handler traced
    nothing. -/
theorem world_toolCallingStep {handlers : StepType → Option (StepHandler F S)} {fr : ToolFrame F S}
    {step : QueryStep} (hmet : dependenciesMet step fr.completed = true) (htype : step.stepType = .toolCall)
    (htool : step.args.toolName = some "financial_metrics") :
    (toolCallingStep handlers fr step).board.world =
      if (attempt handlers step fr).2.trace.length = fr.board.world.trace.length then
        { (attempt handlers step fr).2 with
          trace := (attempt handlers step fr).2.trace ++
            [fallbackTrace step ((attempt handlers step fr).1.result step.stepId)] }
      else (attempt handlers step fr).2 := by
  unfold toolCallingStep
  rw [if_neg (by rw [hmet]; exact Bool.noConfusion), if_neg (not_not.mpr htype), if_neg (not_not.mpr htool)]
  simp only [executeStep_eq, Board.after]
  split <;> rfl

/-- **A plan of one permitted step runs the tool once**, and its context is what the tool says. -/
theorem executeToolCalls_single {registry : Dict String Tool} {E : MathLibrary}
    {text : PyException → String}
    (hregistered : registry.get "financial_metrics" = some (financialMetricsTool E text))
    (others : StepType → Option (StepHandler F S)) (str : Double → String) (scope : RequestScope)
    {plan : ExecutionPlan StepArgs} {step : QueryStep} (hplan : plan.tasks = [step])
    (hdepends : step.dependsOn = []) (hpermitted : Permitted step) (services : S) (runs : List ToolRun) :
    ∃ record,
      (executeToolCalls (toolHandlers (governedEngine registry) others) scope plan services
        runs).board.world =
        ⟨services, [record], runs ++ [governedRun step]⟩ ∧
      toolLines str [record] =
        calculationLines str (FinancialMetricsTool.execute E (metricParameters step.args)) := by
  obtain ⟨htype, htool, operation, hoperation⟩ := hpermitted
  have hname : step.args.toolName.getD "" = "financial_metrics" := by
    rw [htool]
    rfl
  let start : ToolFrame F S := ⟨⟨scope, [], .empty⟩, .empty, .fresh ⟨services, [], runs⟩⟩
  have hmet : dependenciesMet step start.completed = true := by
    rw [dependenciesMet, hdepends]
    rfl
  have hturn : executeToolCalls (toolHandlers (governedEngine registry) others) scope plan services runs =
      toolCallingStep (toolHandlers (governedEngine registry) others) start step := by
    unfold executeToolCalls
    rw [hplan]
    rfl
  have hran := execute_financialMetricsTool hregistered hoperation (some scope.tenantId)
  -- what the handler leaves, by the result of the tool
  have hattempt : ∀ answer, FinancialMetricsTool.execute E (metricParameters step.args) = answer →
      attempt (toolHandlers (governedEngine registry) others) step start =
        match answer with
        | .ok (.success output) =>
          (.ran ⟨[], .ok (.tool (.metric output))⟩,
            ⟨services, [resultTrace step { status := .success, output := .metric output }],
              runs ++ [governedRun step]⟩)
        | .ok (.failed e) =>
          (.ran ⟨[], .error (textOr (some (text e)) "Financial metrics tool execution failed")⟩,
            ⟨services, [resultTrace step { status := .failed, error := some (text e) }],
              runs ++ [governedRun step]⟩)
        | .error e => (.ran ⟨[], .error (text e)⟩, ⟨services, [], runs ++ [governedRun step]⟩) := by
    intro answer hanswer
    have hhandler : attempt (toolHandlers (governedEngine registry) others) step start =
        (.ran (financialMetricsHandler (governedEngine registry) step start.shared start.board.world).1,
          (financialMetricsHandler (governedEngine registry) step start.shared start.board.world).2) := by
      unfold attempt
      rw [if_pos hmet, htype]
      rfl
    rw [hhandler]
    unfold financialMetricsHandler
    rw [hname]
    simp only [start, hran, financialMetricsTool, hanswer]
    cases answer with
    | error e => rfl
    | ok result =>
      cases result with
      | success output => rfl
      | failed e => rfl
  rw [hturn, world_toolCallingStep hmet htype htool]
  cases hanswer : FinancialMetricsTool.execute E (metricParameters step.args) with
  | error e =>
    rw [hattempt _ hanswer]
    exact ⟨_, rfl, rfl⟩
  | ok result =>
    cases result with
    | success output =>
      rw [hattempt _ hanswer]
      exact ⟨_, rfl, rfl⟩
    | failed e =>
      rw [hattempt _ hanswer]
      exact ⟨_, rfl, rfl⟩

/-- **Whatever is planned and whatever is registered, only the governed tool runs**: for steps of the
    plan that name it and a supported operation, in the order of the plan, at most once each.  No other
    handler is called, every step ends with a result and one record in the trace, and there is no
    evidence to cite. -/
theorem toolCalling_governed (registry : Dict String Tool) (others : StepType → Option (StepHandler F S))
    (str : Double → String) (scope : RequestScope) (plan : ExecutionPlan StepArgs) (services : S)
    (runs : List ToolRun) :
    let fr := executeToolCalls (toolHandlers (governedEngine registry) others) scope plan services runs
    let output := toolCallingOutput str plan fr
    (∃ called : List QueryStep, called.Sublist plan.tasks ∧ (∀ step ∈ called, Permitted step) ∧
      fr.board.world.runs = runs ++ called.map governedRun) ∧
    fr.board.world.services = services ∧
    output.2.map ToolTrace.stepId = plan.tasks.map PlanStep.stepId ∧
    (∀ step ∈ plan.tasks, ∃ result, fr.board.result step.stepId = some result) ∧
    output.1.evidences = [] ∧ output.1.citations = [] := by
  obtain ⟨records, called, hturns⟩ := turns_executeToolCalls registry others scope plan services runs
  refine ⟨⟨called, hturns.sublist, hturns.permitted, hturns.runs⟩, hturns.services, ?_, ?_, rfl, rfl⟩
  · show (executeToolCalls _ scope plan services runs).board.world.trace.map ToolTrace.stepId = _
    rw [hturns.trace, ← hturns.stepIds]
    rfl
  · intro step hstep
    exact Option.isSome_iff_exists.mp (hturns.results step hstep)

end FinancialRag.Agent
