/-
  How a planned question is executed: `agent/execution/strategies/` and the choice made by
  `agent/execution/execution_engine.py`.

  The strategies are tried in the order of their priorities, and the first that supports the question
  is taken.  Which one that is depends on the plan, the task and the NUMBERS of companies and years only
  (`strategy_question`): the text of the question beyond them has no say.
-/
import FinancialRag.Agent.QueryPlanner

set_option linter.unusedVariables false

namespace FinancialRag.Agent

open FinancialRag.Storage

/-! ## Strategies -/

inductive ExecutionStrategyType where
  | directLlm
  | rag
  | multiStep
  | parallel
  | toolCalling
  deriving DecidableEq, Repr

/-- `ExecutionContext`, as the runtime builds it for the choice. -/
structure ExecutionContext where
  task : TaskResult
  complexity : ComplexityResult
  plan : Option QueryPlan

/-- `ExecutionResult` of the strategy engine. -/
structure StrategyResult where
  strategy : ExecutionStrategyType
  reason : String
  estimatedSteps : Nat
  parallelism : Nat
  useRetrieval : Bool
  useTools : Bool
  confidence : ℚ

structure ExecutionStrategy where
  priority : Nat
  supports : ExecutionContext → Bool
  build : ExecutionContext → StrategyResult

def ExecutionContext.taskType (ctx : ExecutionContext) : TaskType := ctx.task.task.taskType

def ExecutionContext.level (ctx : ExecutionContext) : ComplexityLevel := ctx.complexity.complexity.level

/-- `DirectLLMStrategy` -/
def directLlmStrategy : ExecutionStrategy where
  priority := 10
  supports ctx :=
    (ctx.taskType == .chat || ctx.taskType == .summarization) && (ctx.level == .low || ctx.level == .medium)
  build ctx :=
    { strategy := .directLlm
      reason := "Simple " ++ ctx.taskType.value ++ " task — direct LLM sufficient"
      estimatedSteps := 1
      parallelism := 1
      useRetrieval := false
      useTools := false
      confidence := float (95 / 100) }

/-- `MultiStepStrategy` -/
def multiStepStrategy : ExecutionStrategy where
  priority := 80
  supports ctx :=
    (ctx.taskType == .comparison || ctx.taskType == .research || ctx.taskType == .financialAnalysis) &&
      ctx.level == .high
  build ctx :=
    { strategy := .multiStep
      reason := "High-complexity " ++ ctx.taskType.value ++ " — multi-step reasoning required"
      estimatedSteps := 4
      parallelism := 1
      useRetrieval := true
      useTools := false
      confidence := float (8 / 10) }

/-- `ParallelStrategy`; what it calls companies are all the entities, years included. -/
def parallelStrategy : ExecutionStrategy where
  priority := 85
  supports ctx :=
    ctx.taskType == .comparison && (ctx.level == .medium || ctx.level == .high) &&
      decide (2 ≤ ctx.task.extractedEntities.length)
  build ctx :=
    let companyCount := ctx.task.extractedEntities.length
    { strategy := .parallel
      reason := "Multi-entity comparison (" ++ toString companyCount ++ " entities) — parallel execution"
      estimatedSteps := 2
      parallelism := min companyCount 4
      useRetrieval := true
      useTools := false
      confidence := float (85 / 100) }

/-- `RagStrategy` -/
def ragStrategy : ExecutionStrategy where
  priority := 90
  supports ctx :=
    (ctx.taskType == .documentQa || ctx.taskType == .research || ctx.taskType == .financialAnalysis) &&
      (ctx.level == .low || ctx.level == .medium)
  build ctx :=
    { strategy := .rag
      reason := ctx.taskType.value ++ " task — RAG with retrieval"
      estimatedSteps := 3
      parallelism := 1
      useRetrieval := true
      useTools := false
      confidence := float (9 / 10) }

/-- The step `_has_governed_financial_plan` looks for. -/
def governedStepOf : List QueryStep → Option QueryStep
  | [step] =>
    if step.stepType = .toolCall ∧ step.args.toolName = some "financial_metrics" then some step else none
  | _ => none

/-- `_has_governed_financial_plan`, with the step. -/
def governedStep (ctx : ExecutionContext) : Option QueryStep :=
  match ctx.plan with
  | none => none
  | some plan => governedStepOf plan.plan.tasks

/-- `step.parameters.get("operation", "unknown")` in an f-string, for a string. -/
def operationText (step : QueryStep) : String :=
  match step.args.parameter "operation" with
  | some (.scalar (.str operation)) => operation
  | _ => "unknown"

/-- `ToolCallingStrategy` -/
def toolCallingStrategy : ExecutionStrategy where
  priority := 100
  supports ctx :=
    (governedStep ctx).isSome ||
      (ctx.taskType == .ocr || ctx.taskType == .imageAnalysis || ctx.taskType == .codeGeneration)
  build ctx :=
    match governedStep ctx with
    | some step =>
      { strategy := .toolCalling
        reason := "Explicit governed financial_metrics tool call: " ++ operationText step
        estimatedSteps := 1
        parallelism := 1
        useRetrieval := false
        useTools := true
        confidence := 1 }
    | none =>
      { strategy := .toolCalling
        reason := ctx.taskType.value ++ " task — tool calling required"
        estimatedSteps := 3
        parallelism := 1
        useRetrieval := false
        useTools := true
        confidence := float (85 / 100) }

/-- `_BUILTIN_STRATEGIES` -/
def builtinStrategies : List ExecutionStrategy :=
  [ragStrategy, directLlmStrategy, parallelStrategy, multiStepStrategy, toolCallingStrategy]

/-- `_fallback_execute`, with no fallback configured. -/
def fallbackResult : StrategyResult where
  strategy := .directLlm
  reason := "No strategy matched; using direct LLM fallback"
  estimatedSteps := 1
  parallelism := 1
  useRetrieval := false
  useTools := false
  confidence := float (5 / 10)

/-- `_get_sorted_strategies` -/
def sortedStrategies : List ExecutionStrategy :=
  PyList.sorted (fun a b => decide (b.priority < a.priority)) builtinStrategies

/-- `ExecutionEngine.execute`, for a context without workflow and tool context. -/
def selectStrategy (ctx : ExecutionContext) : StrategyResult :=
  match sortedStrategies.find? fun strategy => strategy.supports ctx with
  | some strategy => strategy.build ctx
  | none => fallbackResult

/-! ## Which strategy a question gets -/

theorem sortedStrategies_eq :
    sortedStrategies =
      [toolCallingStrategy, ragStrategy, parallelStrategy, multiStepStrategy, directLlmStrategy] :=
  rfl

/-- The strategy of a task of some level, with so many entities. -/
def strategyOf (governed : Bool) (taskType : TaskType) (level : ComplexityLevel) (entityCount : Nat) :
    ExecutionStrategyType :=
  if governed then .toolCalling
  else
    match taskType with
    | .ocr | .imageAnalysis | .codeGeneration => .toolCalling
    | .documentQa => if level = .high then .directLlm else .rag
    | .research | .financialAnalysis => if level = .high then .multiStep else .rag
    | .comparison =>
      if level = .low then .directLlm
      else if 2 ≤ entityCount then .parallel
      else if level = .high then .multiStep
      else .directLlm
    | _ => .directLlm

theorem strategy_build_toolCalling (ctx : ExecutionContext) :
    (toolCallingStrategy.build ctx).strategy = .toolCalling := by
  unfold toolCallingStrategy
  dsimp only
  split <;> rfl

/-- The strategies in the order they are tried. -/
theorem strategy_selectStrategy_eq (ctx : ExecutionContext) :
    (selectStrategy ctx).strategy =
      if toolCallingStrategy.supports ctx then .toolCalling
      else if ragStrategy.supports ctx then .rag
      else if parallelStrategy.supports ctx then .parallel
      else if multiStepStrategy.supports ctx then .multiStep
      else .directLlm := by
  unfold selectStrategy
  rw [sortedStrategies_eq]
  simp only [List.find?_cons, List.find?_nil]
  cases htool : toolCallingStrategy.supports ctx with
  | true => exact strategy_build_toolCalling ctx
  | false =>
    cases hrag : ragStrategy.supports ctx with
    | true => rfl
    | false =>
      cases hparallel : parallelStrategy.supports ctx with
      | true => rfl
      | false =>
        cases hmulti : multiStepStrategy.supports ctx with
        | true => rfl
        | false =>
          cases directLlmStrategy.supports ctx with
          | true => rfl
          | false => rfl

/-- What the four conditions come to. -/
theorem strategyOf_eq (governed : Bool) (t : TaskType) (level : ComplexityLevel) (n : Nat) :
    (if governed || (t == .ocr || t == .imageAnalysis || t == .codeGeneration) then
        ExecutionStrategyType.toolCalling
      else if (t == .documentQa || t == .research || t == .financialAnalysis) &&
          (level == .low || level == .medium) then .rag
      else if t == .comparison && (level == .medium || level == .high) && decide (2 ≤ n) then .parallel
      else if (t == .comparison || t == .research || t == .financialAnalysis) && level == .high then
        .multiStep
      else .directLlm) = strategyOf governed t level n := by
  cases governed with
  | true => rfl
  | false => cases t <;> cases level <;> simp [strategyOf]

/-- **The choice among the sorted strategies**, case by case. -/
theorem strategy_selectStrategy (ctx : ExecutionContext) :
    (selectStrategy ctx).strategy =
      strategyOf (governedStep ctx).isSome ctx.taskType ctx.level ctx.task.extractedEntities.length := by
  rw [strategy_selectStrategy_eq]
  exact strategyOf_eq _ _ _ _

/-- The companies and the years are the entities. -/
theorem length_entities (isDigit : String → Bool) (entities : List String) :
    (entities.filter fun e => !isDigit e).length + (entities.filter isDigit).length = entities.length := by
  have h := List.length_eq_length_filter_add (l := entities) isDigit
  omega

/-- The strategy of a question about so many companies and years: no level is named, for the task and
    the counts decide it. -/
def questionStrategy (governed : Bool) (taskType : TaskType) (companyCount yearCount : Nat) :
    ExecutionStrategyType :=
  if governed then .toolCalling
  else
    match taskType with
    | .ocr | .imageAnalysis | .codeGeneration => .toolCalling
    | .documentQa => if 3 ≤ companyCount ∨ (companyCount = 2 ∧ 1 ≤ yearCount) then .directLlm else .rag
    | .research | .financialAnalysis => .multiStep
    | .comparison => if 2 ≤ companyCount + yearCount then .parallel else .directLlm
    | _ => .directLlm

/-- A document question is of high complexity from two companies and a year on. -/
theorem levelFor_documentQa (c y : Nat) :
    levelFor .documentQa c y = .high ↔ 3 ≤ c ∨ (c = 2 ∧ 1 ≤ y) := by
  rw [levelFor_eq, percentLevel_eq_high]
  simp only [scorePercent, promptTenths, companyTenths, yearTenths, taskTenths, comparisonTenths,
    reduceCtorEq, if_false]
  split_ifs <;> omega

/-- The weight of research is above both thresholds. -/
theorem levelFor_research (c y : Nat) : levelFor .research c y = .high := by
  rw [levelFor_eq, percentLevel_eq_high]
  simp only [scorePercent, promptTenths, taskTenths]
  split_ifs <;> omega

theorem levelFor_financialAnalysis (c y : Nat) : levelFor .financialAnalysis c y = .high := by
  rw [levelFor_eq, percentLevel_eq_high]
  simp only [scorePercent, promptTenths, taskTenths]
  split_ifs <;> omega

/-- A comparison is never of low complexity, and of high complexity only with two entities. -/
theorem levelFor_comparison (c y : Nat) :
    levelFor .comparison c y ≠ .low ∧ (levelFor .comparison c y = .high → 2 ≤ c + y) := by
  rw [levelFor_eq, Ne, percentLevel_eq_low, percentLevel_eq_high]
  simp only [scorePercent, promptTenths, companyTenths, yearTenths, taskTenths, comparisonTenths]
  constructor
  · split_ifs <;> omega
  · split_ifs <;> omega

/-- **The level has no say beyond the task and the counts.** -/
theorem strategyOf_levelFor (governed : Bool) (t : TaskType) (c y : Nat) :
    strategyOf governed t (levelFor t c y) (c + y) = questionStrategy governed t c y := by
  cases governed with
  | true => rfl
  | false =>
    cases t with
    | documentQa =>
      simp only [strategyOf, questionStrategy, levelFor_documentQa]
    | research => simp only [strategyOf, questionStrategy, levelFor_research, if_true]
    | financialAnalysis => simp only [strategyOf, questionStrategy, levelFor_financialAnalysis, if_true]
    | comparison =>
      obtain ⟨hlow, hhigh⟩ := levelFor_comparison c y
      show (if levelFor .comparison c y = .low then ExecutionStrategyType.directLlm
        else if 2 ≤ c + y then .parallel
        else if levelFor .comparison c y = .high then .multiStep
        else .directLlm) = if 2 ≤ c + y then .parallel else .directLlm
      rw [if_neg hlow]
      by_cases htwo : 2 ≤ c + y
      · rw [if_pos htwo, if_pos htwo]
      · rw [if_neg htwo, if_neg htwo, if_neg fun h => htwo (hhigh h)]
    | _ => rfl

namespace Planner

variable (P : Planner)

/-- What the runtime hands to the strategy engine. -/
def executionContext (context : PlanningContext) : ExecutionContext :=
  let planned := P.plan context
  { task := planned.2.1, complexity := planned.2.2, plan := some planned.1 }

/-- The question asks for a governed calculation. -/
def isMetric (context : PlanningContext) : Bool :=
  (parseFinancialMetricQuery P.text P.numerals context.question).isSome

/-- The companies and the years of a question, counted. -/
def companyCount (context : PlanningContext) : Nat :=
  ((analyzeTask P.text context).extractedEntities.filter fun e => !P.isDigit e).length

def yearCount (context : PlanningContext) : Nat :=
  ((analyzeTask P.text context).extractedEntities.filter P.isDigit).length

theorem governedStepOf_compareSteps (query : String) (companies : List String) :
    governedStepOf (compareSteps query companies) = none := by
  match companies with
  | [] => rfl
  | [company] => rfl
  | first :: second :: rest => rfl

/-- Only the plan of a calculation is governed. -/
theorem isSome_governedStepOf (context : PlanningContext) (task : TaskResult) :
    (governedStepOf (P.steps context task).steps).isSome = P.isMetric context := by
  unfold steps isMetric
  cases parseFinancialMetricQuery P.text P.numerals context.question with
  | some invocation => rfl
  | none =>
    cases task.task.taskType with
    | comparison =>
      show (governedStepOf (compareSteps context.question (P.companies task))).isSome = false
      rw [governedStepOf_compareSteps]
      rfl
    | _ => rfl

theorem governedStep_executionContext (context : PlanningContext) :
    governedStep (P.executionContext context) =
      governedStepOf (P.steps context (analyzeTask P.text context)).steps := by
  simp only [governedStep, executionContext, plan]

theorem level_executionContext (context : PlanningContext) :
    (P.executionContext context).level =
      levelFor (analyzeTask P.text context).task.taskType (P.companyCount context) (P.yearCount context) :=
  rfl

/-- **The strategy of a question** depends on whether it is a calculation, on its task, and on how many
    companies and years it names. -/
theorem strategy_question (context : PlanningContext) :
    (selectStrategy (P.executionContext context)).strategy =
      questionStrategy (P.isMetric context) (analyzeTask P.text context).task.taskType
        (P.companyCount context) (P.yearCount context) := by
  have htask : (P.executionContext context).task = analyzeTask P.text context := rfl
  have hentities : P.companyCount context + P.yearCount context =
      (analyzeTask P.text context).extractedEntities.length := length_entities P.isDigit _
  rw [← strategyOf_levelFor, strategy_selectStrategy, governedStep_executionContext,
    isSome_governedStepOf, level_executionContext, hentities, ExecutionContext.taskType, htask]

end Planner

end FinancialRag.Agent
