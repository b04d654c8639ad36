/-
  `agent/query_planner.py`: the plan of a question.

  A question that asks for a governed calculation gets one tool step; otherwise the task decides.  Steps
  are numbered from one in the order they are written, and a step depends only on steps before it
  (`WellFormed`, `plan_earlier`): so both schedules of a plan run every step whose dependencies
  succeeded, and the sequential one never meets a dependency it has not tried.
-/
import FinancialRag.Agent.EvidenceOrder
import FinancialRag.Agent.FinancialMetricParser
import FinancialRag.Agent.FinancialMetricsTool
import FinancialRag.Agent.TaskAnalysis

set_option linter.unusedVariables false

namespace FinancialRag.Agent

open FinancialRag.Storage FinancialMetricsTool

/-! ## Steps -/

/-- A value of a step's `parameters`. -/
inductive ParameterValue where
  | scalar (value : MetricParameter)
  | strings (values : List String)

/-- What handlers read of a `PlanStep`. -/
structure StepArgs where
  description : String
  query : Option String := none
  company : Option String := none
  documentIds : List String := []
  parameters : List (String × ParameterValue) := []
  toolName : Option String := none

/-- `parameters.get(name)` -/
def StepArgs.parameter (args : StepArgs) (name : String) : Option ParameterValue :=
  List.lookup name args.parameters

abbrev QueryStep := PlanStep StepArgs

/-- `ExecutionPlan`, with what the planner writes into it. -/
structure QueryPlan where
  intent : String
  originalQuery : String
  plan : ExecutionPlan StepArgs
  taskType : TaskType
  complexity : ComplexityModel
  plannerReason : String
  complexityReason : String

/-! ## The plans -/

section Plans

variable (query : String)

/-- `FinancialMetricInvocation.operation` -/
def FinancialMetricOperation.name : FinancialMetricOperation → String
  | .growthRate => "growth_rate"
  | .margin => "margin"
  | .ratio => "ratio"
  | .cagr => "cagr"

/-- The step of `_build_financial_metric_plan`. -/
def financialMetricSteps (invocation : FinancialMetricInvocation MetricParameter) : List QueryStep :=
  [ { stepId := 1
      stepType := .toolCall
      dependsOn := []
      args :=
        { description := "Calculate " ++ invocation.operation.name
          query := some query
          parameters := (invocation.parameters.map fun p => (p.1, .scalar p.2)) ++
            [("operation", .scalar (.str invocation.operation.name))]
          toolName := some "financial_metrics" } } ]

/-- The retrievals of `_build_compare_plan`, one for each company. -/
def companyRetrievals : Int → List String → List QueryStep
  | _, [] => []
  | id, company :: rest =>
    { stepId := id
      stepType := .retrieve
      dependsOn := []
      args :=
        { description := "Retrieve " ++ company ++ " financial report"
          query := some query
          company := some company
          parameters := [("metrics", .strings ["revenue", "margin", "risk"])] } } ::
      companyRetrievals (id + 1) rest

/-- The steps of `_build_compare_plan`. -/
def compareSteps (companies : List String) : List QueryStep :=
  let retrievals := companyRetrievals query 1 companies
  let compareId : Int := 1 + companies.length
  retrievals ++
    [ { stepId := compareId
        stepType := .compare
        dependsOn := retrievals.map PlanStep.stepId
        args :=
          { description := "Compare " ++ ", ".intercalate companies
            query := some query
            parameters := [("companies", .strings companies)] } },
      { stepId := compareId + 1
        stepType := .synthesis
        dependsOn := [compareId]
        args := { description := "Synthesize comparison results", query := some query } } ]

/-- The steps of `_build_single_plan`. -/
def singleSteps (companies : List String) : List QueryStep :=
  let company := companies.head?
  [ { stepId := 1
      stepType := .retrieve
      dependsOn := []
      args :=
        { description :=
            match company.filter (· ≠ "") with
            | some name => "Retrieve " ++ name ++ " documents"
            | none => "Retrieve relevant documents"
          query := some query
          company := company } },
    { stepId := 2
      stepType := .reasoning
      dependsOn := [1]
      args := { description := "Analyze retrieved data", query := some query } } ]

/-- The steps of `_build_global_plan`. -/
def globalSteps : List QueryStep :=
  [ { stepId := 1
      stepType := .retrieve
      dependsOn := []
      args :=
        { description := "Retrieve industry-wide documents"
          query := some query
          parameters := [("top_k", .scalar (.int 6))] } },
    { stepId := 2
      stepType := .synthesis
      dependsOn := [1]
      args := { description := "Synthesize research findings", query := some query } } ]

/-- The step of `_build_generic_plan`. -/
def genericSteps : List QueryStep :=
  [ { stepId := 1
      stepType := .retrieve
      dependsOn := []
      args := { description := "Retrieve relevant documents", query := some query } } ]

end Plans

/-! ## Every plan is numbered, and its steps depend on steps before them -/

/-- Every step depends only on ids in `before` and on steps before it. -/
def DependsBack : List Int → List QueryStep → Prop
  | _, [] => True
  | before, step :: rest =>
    (∀ dep ∈ step.dependsOn, dep ∈ before) ∧ DependsBack (before ++ [step.stepId]) rest

theorem dependsBack_cons {before : List Int} {step : QueryStep} {rest : List QueryStep} :
    DependsBack before (step :: rest) ↔
      (∀ dep ∈ step.dependsOn, dep ∈ before) ∧ DependsBack (before ++ [step.stepId]) rest := Iff.rfl

theorem dependsBack_append {before : List Int} {steps rest : List QueryStep} :
    DependsBack before (steps ++ rest) ↔
      DependsBack before steps ∧ DependsBack (before ++ steps.map PlanStep.stepId) rest := by
  induction steps generalizing before with
  | nil => simp [DependsBack]
  | cons step steps ih =>
    rw [List.cons_append, dependsBack_cons, ih, dependsBack_cons, List.map_cons, and_assoc,
      List.append_assoc, List.singleton_append]

/-- What the planner promises of its steps. -/
structure WellFormed (steps : List QueryStep) : Prop where
  numbered : steps.map PlanStep.stepId = (List.range steps.length).map fun k : Nat => (1 + k : Int)
  dependsBack : DependsBack [] steps

theorem WellFormed.nodup {steps : List QueryStep} (h : WellFormed steps) :
    (steps.map PlanStep.stepId).Nodup := by
  rw [h.numbered]
  refine List.nodup_range.map fun i j hij => ?_
  have heq : (1 + i : Int) = 1 + j := hij
  omega

/-- **A plan of such steps is one whose dependencies are all earlier.** -/
theorem WellFormed.earlier {steps : List QueryStep} (h : WellFormed steps) :
    (⟨steps, h.nodup⟩ : ExecutionPlan StepArgs).Earlier := by
  intro i dep hdep
  have hsplit : steps.take i ++ steps.get i :: steps.drop (i + 1) = steps := by
    rw [List.get_eq_getElem, List.getElem_cons_drop, List.take_append_drop]
  have hback := h.dependsBack
  rw [← hsplit, dependsBack_append, dependsBack_cons] at hback
  have hmem := hback.2.1 dep hdep
  rwa [List.nil_append] at hmem

theorem companyRetrievals_nil (query : String) (id : Int) : companyRetrievals query id [] = [] := rfl

theorem companyRetrievals_cons (query : String) (id : Int) (company : String) (rest : List String) :
    companyRetrievals query id (company :: rest) =
      { stepId := id
        stepType := .retrieve
        dependsOn := []
        args :=
          { description := "Retrieve " ++ company ++ " financial report"
            query := some query
            company := some company
            parameters := [("metrics", .strings ["revenue", "margin", "risk"])] } } ::
        companyRetrievals query (id + 1) rest := rfl

theorem length_companyRetrievals (query : String) (id : Int) (companies : List String) :
    (companyRetrievals query id companies).length = companies.length := by
  induction companies generalizing id with
  | nil => rfl
  | cons company rest ih => rw [companyRetrievals_cons, List.length_cons, ih, List.length_cons]

theorem stepIds_companyRetrievals (query : String) (id : Int) (companies : List String) :
    (companyRetrievals query id companies).map PlanStep.stepId =
      (List.range companies.length).map fun k : Nat => id + k := by
  induction companies generalizing id with
  | nil => rfl
  | cons company rest ih =>
    rw [companyRetrievals_cons, List.map_cons, ih, List.length_cons, List.range_succ_eq_map,
      List.map_cons, List.map_map]
    congr 1
    · show id = id + (0 : Int)
      omega
    · apply List.map_congr_left
      intro k _
      show id + 1 + (k : Int) = id + ((k + 1 : Nat) : Int)
      omega

/-- A retrieval of the comparison has no dependencies. -/
theorem mem_companyRetrievals {query : String} {id : Int} {companies : List String} {step : QueryStep}
    (h : step ∈ companyRetrievals query id companies) :
    step.stepType = .retrieve ∧ step.dependsOn = [] := by
  induction companies generalizing id with
  | nil => cases h
  | cons company rest ih =>
    rw [companyRetrievals_cons] at h
    rcases List.mem_cons.mp h with rfl | h
    · exact ⟨rfl, rfl⟩
    · exact ih h

theorem dependsBack_of_independent {steps : List QueryStep} (h : ∀ step ∈ steps, step.dependsOn = [])
    (before : List Int) : DependsBack before steps := by
  induction steps generalizing before with
  | nil => trivial
  | cons step steps ih =>
    refine ⟨?_, ih (fun s hs => h s (List.mem_cons_of_mem _ hs)) _⟩
    rw [h step List.mem_cons_self]
    simp

/-- The intent and the steps of a plan. -/
structure PlannedSteps where
  intent : String
  steps : List QueryStep
  wellFormed : WellFormed steps

theorem wellFormed_compare (query : String) (companies : List String) :
    WellFormed (compareSteps query companies) := by
  constructor
  · unfold compareSteps
    simp only [List.map_append, stepIds_companyRetrievals, List.length_append, length_companyRetrievals,
      List.map_cons, List.map_nil, List.length_cons, List.length_nil]
    rw [List.range_succ, List.range_succ, List.map_append, List.map_append, List.append_assoc]
    rfl
  · unfold compareSteps
    refine dependsBack_append.mpr ⟨?_, ?_⟩
    · exact dependsBack_of_independent (fun s hs => (mem_companyRetrievals hs).2) _
    · simp [DependsBack]

theorem wellFormed_financialMetric (query : String)
    (invocation : FinancialMetricInvocation MetricParameter) :
    WellFormed (financialMetricSteps query invocation) := ⟨rfl, by simp [DependsBack, financialMetricSteps]⟩

theorem wellFormed_single (query : String) (companies : List String) :
    WellFormed (singleSteps query companies) := ⟨rfl, by simp [DependsBack, singleSteps]⟩

theorem wellFormed_global (query : String) : WellFormed (globalSteps query) :=
  ⟨rfl, by simp [DependsBack, globalSteps]⟩

theorem wellFormed_generic (query : String) : WellFormed (genericSteps query) :=
  ⟨rfl, by simp [DependsBack, genericSteps]⟩

/-! ## Planning -/

/-- What the planner takes from the interpreter: the text tables, `int` and `float`, and
    `str.isdigit`. -/
structure Planner where
  text : PyText
  numerals : Numerals MetricParameter
  isDigit : String → Bool

namespace Planner

variable (P : Planner)

/-- The companies among the entities. -/
def companies (task : TaskResult) : List String := task.extractedEntities.filter fun e => !P.isDigit e

/-- The plan the task asks for. -/
def steps (context : PlanningContext) (task : TaskResult) : PlannedSteps :=
  match parseFinancialMetricQuery P.text P.numerals context.question with
  | some invocation => ⟨"financial_calculation", _, wellFormed_financialMetric context.question invocation⟩
  | none =>
    match task.task.taskType with
    | .comparison => ⟨"comparison", _, wellFormed_compare context.question (P.companies task)⟩
    | .documentQa => ⟨"single_company", _, wellFormed_single context.question (P.companies task)⟩
    | .research | .financialAnalysis => ⟨"global_research", _, wellFormed_global context.question⟩
    | _ => ⟨"generic", _, wellFormed_generic context.question⟩

/-- `plan`, which starts its counter anew. -/
def plan (context : PlanningContext) : QueryPlan × TaskResult × ComplexityResult :=
  let task := analyzeTask P.text context
  let complexity := analyzeComplexity P.isDigit task
  let built := P.steps context task
  ( { intent := built.intent
      originalQuery := context.question
      plan := ⟨built.steps, built.wellFormed.nodup⟩
      taskType := task.task.taskType
      complexity := complexity.complexity
      plannerReason := task.reason
      complexityReason := complexity.reason },
    task, complexity )

/-- **Every plan has only dependencies on earlier steps.** -/
theorem plan_earlier (context : PlanningContext) : (P.plan context).1.plan.Earlier :=
  (P.steps context (analyzeTask P.text context)).wellFormed.earlier

end Planner

end FinancialRag.Agent
