/-
  A question from beginning to end: `run` of `agent/agent_runtime.py` and `run_rag` of
  `core/core_engine.py`.

  Intent, plan, strategy, workflow and execution follow from the question; the model that writes an
  answer and the texts it is given are open.  What is shown is what a question can reach:

  1. the requests the retriever gets are those the question calls for, each with the tenant of the
     caller (`runRag_requests`);
  2. what is cited is a passage of the caller's tenant or a public one, and the model is asked about
     passages only when there are some (`runRag_cited`);
  3. a calculation is answered by the governed tool alone (`runRag_calculation`).
-/
import FinancialRag.Agent.Dispatch

set_option linter.unusedVariables false
set_option linter.unusedSectionVars false

namespace FinancialRag.Agent

open FinancialRag.Storage FinancialRag.Retrieval FinancialMetricsTool

/-! ## The question -/

/-- The keywords of `IntentAnalyzer._extract_companies`. -/
def intentCompanyMap : List (String × String) :=
  [("apple", "Apple"), ("苹果", "Apple"), ("tesla", "Tesla"), ("特斯拉", "Tesla"), ("nvidia", "NVIDIA"),
    ("英伟达", "NVIDIA"), ("amd", "AMD"), ("超威", "AMD")]

/-- `_extract_companies`; whatever the intent, these are the companies of its result, or there are
    none. -/
def intentCompanies (T : PyText) (question : String) : List String :=
  (intentCompanyMap.filter fun entry => PyText.isIn entry.1 (T.lower question)).map Prod.snd

/-- The keywords of `detect_research_mode`. -/
def researchModes : List (String × List String) :=
  [("compare", ["compare", "comparison", "vs", "versus", "difference"]),
    ("leader", ["stronger", "leader", "leading", "best", "largest", "dominant", "moat"]),
    ("risk", ["risk", "challenge", "threat", "weakness"]),
    ("growth", ["growth", "future", "opportunity", "expand"]),
    ("investment", ["investment", "invest", "buy", "position", "outlook"])]

/-- `detect_research_mode` -/
def detectResearchMode (T : PyText) (question : String) : String :=
  let mode := researchModes.find? fun mode =>
    mode.2.any fun keyword => PyText.isIn keyword (T.lower question)
  (mode.map Prod.fst).getD "default"

inductive WorkflowType where
  | directChat
  | rag
  | multiStep
  | parallel
  | toolPipeline
  deriving DecidableEq, Repr

/-- `_STRATEGY_TO_WORKFLOW`, and the type of the workflow it names. -/
def workflowOf : ExecutionStrategyType → WorkflowType
  | .directLlm => .directChat
  | .rag => .rag
  | .multiStep => .multiStep
  | .parallel => .parallel
  | .toolCalling => .toolPipeline

/-- `_empty_answer_for_question` -/
def emptyAnswerForQuestion (question : String) : String :=
  if question.toList.any fun char => 0x3400 ≤ char.toNat && char.toNat ≤ 0x9fff then
    "当前模型未返回可用内容。已完成检索，但没有获得足够的有效回答。请缩小问题范围，或补充对应公司的财报与期间。"
  else
    "The model returned no usable content. Retrieval completed, but the answer was empty. " ++
      "Please narrow the question or provide the relevant company filing and reporting period."

/-! ## The assistant -/

/-- What `run_rag` is made of.  The prompts, with the history in them, the model and the report are
    open; a model is called by the name of its system prompt and the prompt. -/
structure Assistant (F W : Type) [PyFloat F] where
  planner : Planner
  service : RetrievalService F W
  registry : Dict String Tool
  str : Double → String
  directChatPrompt : String → String
  comparePrompt : String → String → String
  ragPrompt : String → String → String
  callLlm : String → String → Except String String
  buildReport : String → String → List (Metadata F) → List (ExecutionResult (StepOutput F)) → String
  debugMode : Bool

/-- The part of `RAGResult` that is not a copy of the plan. -/
structure RagResult (F : Type) where
  report : String
  citations : List (Metadata F)
  context : String
  evidence : List (Evidence F)
  researchMode : String

/-- What a question leaves: its result or what is raised, the calls of the model, and the log. -/
structure Answered (F W : Type) where
  outcome : Except String (RagResult F)
  llmCalls : List (String × String)
  log : ToolLog (ServiceWorld W)

namespace Assistant

variable {F W : Type} [PyFloat F] (A : Assistant F W)

/-- The context that the runtime plans with. -/
def planningContext (question : String) : PlanningContext where
  question := question
  companies := intentCompanies A.planner.text question

/-- The shared context of a request. -/
def scope (tenantId : Int) (threadId : Option String) : RequestScope :=
  ⟨tenantId, threadId, decide (tenantId ≠ 0)⟩

def strategy (question : String) : StrategyResult :=
  selectStrategy (A.planner.executionContext (A.planningContext question))

/-- The context of the dispatch. -/
def handlerContext (question : String) (tenantId : Int) (threadId : Option String) :
    RuntimeContext F (ServiceWorld W) where
  plan := (A.planner.plan (A.planningContext question)).1.plan
  sharedContext := scope tenantId threadId
  parallelism := max 1 (A.strategy question).parallelism
  handlers := agentHandlers A.registry A.service

/-- `AgentRuntime.run`, without memory, metrics and the reliability engine, as `core_engine.py` builds
    it.  The company it is passed changes nothing of the plan. -/
def run (pool : Pool StepArgs) (question : String) (tenantId : Int) (threadId : Option String)
    (log : ToolLog (ServiceWorld W)) : Option (Dispatched F (ServiceWorld W)) :=
  dispatch A.str pool (A.strategy question).strategy (A.handlerContext question tenantId threadId) log

/-- A blank answer is replaced. -/
def usable (question answer : String) : String :=
  if A.planner.text.strip answer = "" then emptyAnswerForQuestion question else answer

/-- `run_rag`, from what the runtime returns. -/
def respond (question : String) (output : ExecutionOutput (StepOutput F) F) :
    Except String (RagResult F) × List (String × String) :=
  let mode := detectResearchMode A.planner.text question
  let strategy := (A.strategy question).strategy
  if strategy = .toolCalling then
    ( .ok
        { report := if output.context = "" then "The financial calculation could not be completed."
            else output.context
          citations := []
          context := output.context
          evidence := []
          researchMode := mode },
      [] )
  else if workflowOf strategy = .directChat then
    let prompt := A.directChatPrompt question
    let result := (A.callLlm "direct_chat" prompt).map fun answer =>
      { report := A.usable question answer
        citations := []
        context := ""
        evidence := []
        researchMode := mode : RagResult F }
    (result, [("direct_chat", prompt)])
  else
    let name := if mode = "compare" then "financial_compare" else "financial_rag"
    let prompt :=
      if mode = "compare" then A.comparePrompt question output.context
      else A.ragPrompt question output.context
    if A.debugMode then
      ( .ok
          { report := prompt
            citations := output.citations
            context := output.context
            evidence := output.evidences
            researchMode := mode },
        [] )
    else if output.citations.isEmpty then
      ( .ok
          { report := "No relevant evidence found in uploaded documents."
            citations := []
            context := ""
            evidence := output.evidences
            researchMode := mode },
        [] )
    else
      let result := (A.callLlm name prompt).map fun answer =>
        { report := A.buildReport question (A.usable question answer) output.citations
            output.executionResults
          citations := output.citations
          context := output.context
          evidence := output.evidences
          researchMode := mode : RagResult F }
      (result, [(name, prompt)])

/-- `run_rag` -/
def runRag (pool : Pool StepArgs) (question : String) (tenantId : Int) (threadId : Option String)
    (log : ToolLog (ServiceWorld W)) : Option (Answered F W) :=
  (A.run pool question tenantId threadId log).map fun d =>
    let response := A.respond question d.execution.output
    ⟨response.1, response.2, d.execution.board.world⟩

end Assistant

/-! ## What a question asks of the retriever -/

/-- The request for some company and limit that passes the checks. -/
def plannedRequest (T : PyText) (scope : RequestScope) (question : String) (ask : Option String × Int) :
    Option RetrievalRequest :=
  let query := T.strip question
  let company := ask.1.map T.strip
  if scope.tenantId < 0 ∨ query = "" ∨ maxQueryLength < query.length ∨ company = some "" then none
  else
    some
      { query := query
        tenantId := scope.tenantId
        topK := ask.2
        company := company
        documentIds := []
        includePublic := scope.includePublic }

/-- The arguments of a planned retrieval. -/
structure Asks (args : StepArgs) (question : String) (ask : Option String × Int) : Prop where
  query : args.query = some question
  company : args.company = ask.1
  documentIds : args.documentIds = []
  topK : checkTopK ((args.parameter "top_k").getD (.scalar (.int 4))) = .ok ask.2

theorem Asks.toOption_fromContext {args : StepArgs} {question : String} {ask : Option String × Int}
    (h : Asks args question ask) (T : PyText) (scope : RequestScope) :
    (fromContext T scope args).toOption = plannedRequest T scope question ask := by
  obtain ⟨company, topK⟩ := ask
  unfold fromContext plannedRequest
  rw [h.query, h.topK, h.company, h.documentIds]
  simp only [Option.getD_some]
  by_cases htenant : scope.tenantId < 0
  · rw [if_pos htenant, if_pos (Or.inl htenant)]
    rfl
  rw [if_neg htenant]
  by_cases hquery : T.strip question = ""
  · rw [if_pos hquery, if_pos (Or.inr (Or.inl hquery))]
    rfl
  rw [if_neg hquery]
  by_cases hlong : maxQueryLength < (T.strip question).length
  · rw [if_pos hlong, if_pos (Or.inr (Or.inr (Or.inl hlong)))]
    rfl
  rw [if_neg hlong]
  cases company with
  | none =>
    rw [if_neg (by simp [htenant, hquery, hlong])]
    rfl
  | some name =>
    by_cases hblank : T.strip name = ""
    · rw [if_pos (by simp [hblank])]
      simp only [checkCompany, hblank, if_true]
      rfl
    · rw [if_neg (by simp [htenant, hquery, hlong, hblank])]
      simp only [checkCompany, hblank, if_false]
      rfl

/-- The retrievals among some steps are those asked for, in their order. -/
def AskedBy (question : String) (steps : List QueryStep) (asks : List (Option String × Int)) : Prop :=
  List.Forall₂ (fun (step : QueryStep) ask => Asks step.args question ask) (steps.filter isRetrieval) asks

namespace AskedBy

variable {question : String}

theorem nil : AskedBy question [] [] := List.Forall₂.nil

theorem cons_retrieve {step : QueryStep} {steps : List QueryStep} {ask : Option String × Int}
    {asks : List (Option String × Int)} (htype : step.stepType = .retrieve)
    (hask : Asks step.args question ask) (h : AskedBy question steps asks) :
    AskedBy question (step :: steps) (ask :: asks) := by
  have hretrieval : isRetrieval step = true := beq_iff_eq.mpr htype
  unfold AskedBy
  rw [List.filter_cons_of_pos hretrieval]
  exact .cons hask h

theorem cons_other {step : QueryStep} {steps : List QueryStep} {asks : List (Option String × Int)}
    (htype : step.stepType ≠ .retrieve) (h : AskedBy question steps asks) :
    AskedBy question (step :: steps) asks := by
  have hother : ¬ isRetrieval step = true := fun hretrieval => htype (beq_iff_eq.mp hretrieval)
  unfold AskedBy
  rw [List.filter_cons_of_neg hother]
  exact h

theorem append {steps steps' : List QueryStep} {asks asks' : List (Option String × Int)}
    (h : AskedBy question steps asks) (h' : AskedBy question steps' asks') :
    AskedBy question (steps ++ steps') (asks ++ asks') := by
  unfold AskedBy
  rw [List.filter_append]
  exact List.rel_append h h'

theorem companyRetrievals (id : Int) (companies : List String) :
    AskedBy question (companyRetrievals question id companies)
      (companies.map fun company => (some company, 4)) := by
  induction companies generalizing id with
  | nil => exact .nil
  | cons company companies ih => exact cons_retrieve rfl ⟨rfl, rfl, rfl, rfl⟩ (ih (id + 1))

theorem compareSteps (companies : List String) :
    AskedBy question (compareSteps question companies)
      (companies.map fun company => (some company, 4)) := by
  unfold Agent.compareSteps
  rw [← List.append_nil (companies.map _)]
  refine (companyRetrievals 1 companies).append (cons_other ?_ (cons_other ?_ nil))
  · simp
  · simp

/-- **Steps make the requests that are asked of them.** -/
theorem flatMap_requestsOf {steps : List QueryStep} {asks : List (Option String × Int)}
    (h : AskedBy question steps asks) (T : PyText) (scope : RequestScope) :
    steps.flatMap (requestsOf T scope) = asks.filterMap (plannedRequest T scope question) := by
  induction steps generalizing asks with
  | nil =>
    obtain rfl := List.forall₂_nil_left_iff.mp h
    rfl
  | cons step steps ih =>
    unfold AskedBy at h
    rw [List.flatMap_cons, requestsOf]
    by_cases hretrieval : isRetrieval step = true
    · rw [List.filter_cons_of_pos hretrieval] at h
      obtain ⟨ask, rest, hask, hrest, rfl⟩ := List.forall₂_cons_left_iff.mp h
      rw [if_pos hretrieval, ih hrest, hask.toOption_fromContext, List.filterMap_cons]
      cases plannedRequest T scope question ask <;> rfl
    · rw [List.filter_cons_of_neg hretrieval] at h
      rw [if_neg hretrieval, ih h]
      rfl

theorem exists_ask {steps : List QueryStep} {asks : List (Option String × Int)}
    (h : AskedBy question steps asks) {step : QueryStep} (hstep : step ∈ steps)
    (hretrieval : isRetrieval step = true) : ∃ ask ∈ asks, Asks step.args question ask :=
  PyList.exists_of_forall₂ h (List.mem_filter.mpr ⟨hstep, hretrieval⟩)

end AskedBy

namespace Planner

variable (P : Planner)

/-- The companies and the limits of the retrievals that a question calls for.  A comparison retrieves
    for its companies only: one of years alone retrieves nothing. -/
def retrievals (context : PlanningContext) : List (Option String × Int) :=
  let task := analyzeTask P.text context
  let companyCount := P.companyCount context
  let yearCount := P.yearCount context
  if P.isMetric context then []
  else
    match task.task.taskType with
    | .documentQa =>
      if 3 ≤ companyCount ∨ (companyCount = 2 ∧ 1 ≤ yearCount) then []
      else [((P.companies task).head?, 4)]
    | .research | .financialAnalysis => [(none, 6)]
    | .comparison =>
      if 2 ≤ companyCount + yearCount then (P.companies task).map fun company => (some company, 4) else []
    | _ => []

/-- **The strategy of a question executes the retrievals it calls for**, or there are none. -/
structure Calls (question : String) (strategy : ExecutionStrategyType) (steps : List QueryStep)
    (asks : List (Option String × Int)) : Prop where
  asked : strategy.retrieves = true → AskedBy question steps asks
  nothing : strategy.retrieves = false → asks = []

theorem calls_steps (context : PlanningContext) :
    Calls context.question (selectStrategy (P.executionContext context)).strategy
      (P.steps context (analyzeTask P.text context)).steps (P.retrievals context) := by
  rw [P.strategy_question, retrievals]
  unfold steps questionStrategy
  cases hparse : parseFinancialMetricQuery P.text P.numerals context.question with
  | some invocation =>
    have hmetric : P.isMetric context = true := by rw [isMetric, hparse, Option.isSome_some]
    rw [if_pos hmetric, if_pos hmetric]
    exact ⟨nofun, fun _ => rfl⟩
  | none =>
    have hmetric : ¬ P.isMetric context = true := by
      rw [isMetric, hparse]
      exact Bool.false_ne_true
    rw [if_neg hmetric, if_neg hmetric]
    simp only []
    cases (analyzeTask P.text context).task.taskType with
    | documentQa =>
      simp only []
      by_cases hmany : 3 ≤ P.companyCount context ∨ (P.companyCount context = 2 ∧ 1 ≤ P.yearCount context)
      · rw [if_pos hmany, if_pos hmany]
        exact ⟨nofun, fun _ => rfl⟩
      · rw [if_neg hmany, if_neg hmany]
        exact ⟨fun _ => .cons_retrieve rfl ⟨rfl, rfl, rfl, rfl⟩ (.cons_other (by simp) .nil), nofun⟩
    | research => exact ⟨fun _ => .cons_retrieve rfl ⟨rfl, rfl, rfl, rfl⟩ (.cons_other (by simp) .nil), nofun⟩
    | financialAnalysis =>
      exact ⟨fun _ => .cons_retrieve rfl ⟨rfl, rfl, rfl, rfl⟩ (.cons_other (by simp) .nil), nofun⟩
    | comparison =>
      simp only []
      by_cases htwo : 2 ≤ P.companyCount context + P.yearCount context
      · rw [if_pos htwo, if_pos htwo]
        exact ⟨fun _ => AskedBy.compareSteps _, nofun⟩
      · rw [if_neg htwo, if_neg htwo]
        exact ⟨nofun, fun _ => rfl⟩
    | _ => exact ⟨nofun, fun _ => rfl⟩

/-- The retrievals of a planned question wait for nothing. -/
theorem retrievalsFirst_plan (context : PlanningContext) : RetrievalsFirst (P.plan context).1.plan := by
  unfold RetrievalsFirst
  simp only [plan]
  unfold steps
  cases parseFinancialMetricQuery P.text P.numerals context.question with
  | some invocation => simp [financialMetricSteps]
  | none =>
    simp only []
    cases (analyzeTask P.text context).task.taskType with
    | comparison =>
      intro step hstep htype
      rcases List.mem_append.mp hstep with hstep | hstep
      · exact (mem_companyRetrievals hstep).2
      · rcases List.mem_cons.mp hstep with rfl | hstep
        · cases htype
        · obtain rfl := List.mem_singleton.mp hstep
          cases htype
    | documentQa => simp [singleSteps]
    | research => simp [globalSteps]
    | financialAnalysis => simp [globalSteps]
    | _ => simp [genericSteps]

end Planner

/-! ## What a question reaches -/

/-- What is cited, if anything is returned. -/
def citedBy {F : Type} : Except String (RagResult F) → List (Metadata F)
  | .ok result => result.citations
  | .error _ => []

def Answered.citations {F W : Type} (answered : Answered F W) : List (Metadata F) :=
  citedBy answered.outcome

theorem citations_mk {F W : Type} (outcome : Except String (RagResult F)) (llmCalls : List (String × String))
    (log : ToolLog (ServiceWorld W)) :
    (⟨outcome, llmCalls, log⟩ : Answered F W).citations = citedBy outcome := rfl

/-- Setting other keys leaves an entry. -/
theorem get_foldl_citationFields {F : Type} (ev : Evidence F) (fields : List String) {key : String}
    (hkey : key ∉ fields) (citation : Metadata F) :
    (fields.foldl
      (fun citation field =>
        match ev.metadata.read field with
        | .none => citation
        | value => citation.set field value) citation).get key = citation.get key := by
  induction fields generalizing citation with
  | nil => rfl
  | cons field fields ih =>
    rw [List.mem_cons, not_or] at hkey
    rw [List.foldl_cons, ih hkey.2]
    split
    · rfl
    · rw [Dict.get_set, if_neg hkey.1]

/-- A citation names the chunk of its evidence. -/
theorem chunkId_citationOf {F : Type} [PyFloat F] {ev : Evidence F} {chunkId : Value F}
    (h : ev.metadata.get "chunk_id" = some chunkId) (i : Nat) :
    (citationOf ev i).get "chunk_id" = some chunkId := by
  refine (get_foldl_citationFields ev citationFields (by decide) _).trans ?_
  rw [h]
  rfl

namespace Assistant

variable {F W : Type} [PyFloat F] (A : Assistant F W)

theorem plan_handlerContext (question : String) (tenantId : Int) (threadId : Option String) :
    (A.handlerContext question tenantId threadId).plan =
      (A.planner.plan (A.planningContext question)).1.plan := by
  rw [handlerContext]

theorem tasks_plan (P : Planner) (context : PlanningContext) :
    (P.plan context).1.plan.tasks = (P.steps context (analyzeTask P.text context)).steps := by
  simp only [Planner.plan]

/-- **The runtime always executes the plan of a question.** -/
theorem exists_run (pool : Pool StepArgs) (question : String) (tenantId : Int) (threadId : Option String)
    (log : ToolLog (ServiceWorld W)) :
    ∃ d, A.run pool question tenantId threadId log = some d ∧
      Executed A.service (A.handlerContext question tenantId threadId) (A.strategy question).strategy log
        d := by
  have hhandlers : (A.handlerContext question tenantId threadId).handlers =
      agentHandlers A.registry A.service := by rw [handlerContext]
  have hfirst := A.planner.retrievalsFirst_plan (A.planningContext question)
  have hearlier := A.planner.plan_earlier (A.planningContext question)
  rw [← A.plan_handlerContext question tenantId threadId] at hfirst hearlier
  exact executed_dispatch A.str pool hhandlers hfirst hearlier _ log

theorem runRag_eq {pool : Pool StepArgs} {question : String} {tenantId : Int} {threadId : Option String}
    {log : ToolLog (ServiceWorld W)} {d : Dispatched F (ServiceWorld W)}
    (h : A.run pool question tenantId threadId log = some d) :
    A.runRag pool question tenantId threadId log =
      some ⟨(A.respond question d.execution.output).1, (A.respond question d.execution.output).2,
        d.execution.board.world⟩ := by
  rw [runRag, h, Option.map_some]

/-- **The requests of a question**: those it calls for and that pass the checks, each with the tenant of
    the caller, and each once; the pool alone decides their order. -/
theorem runRag_requests (pool : Pool StepArgs) (question : String) (tenantId : Int)
    (threadId : Option String) (log : ToolLog (ServiceWorld W)) :
    ∃ answered, A.runRag pool question tenantId threadId log = some answered ∧
      (answered.log.services.requests).Perm
        (log.services.requests ++ (A.planner.retrievals (A.planningContext question)).filterMap
          (plannedRequest A.service.retriever.text (scope tenantId threadId) question)) := by
  obtain ⟨d, hrun, hexecuted⟩ := A.exists_run pool question tenantId threadId log
  refine ⟨_, A.runRag_eq hrun, ?_⟩
  have hcalls := A.planner.calls_steps (A.planningContext question)
  have hrequests := hexecuted.requests
  rw [plan_handlerContext, tasks_plan] at hrequests
  show (d.execution.board.world.services.requests).Perm _
  refine hrequests.trans (List.Perm.of_eq (congrArg _ ?_))
  cases hretrieves : (A.strategy question).strategy.retrieves with
  | true =>
    rw [if_pos rfl]
    exact (hcalls.asked hretrieves).flatMap_requestsOf _ _
  | false =>
    rw [if_neg Bool.false_ne_true, hcalls.nothing hretrieves]
    rfl

/-- The evidence answers one of the requests a question calls for. -/
def Answers (question : String) (tenantId : Int) (threadId : Option String) (e : Evidence F) : Prop :=
  ∃ ask ∈ A.planner.retrievals (A.planningContext question), ∃ request,
    plannedRequest A.service.retriever.text (scope tenantId threadId) question ask = some request ∧
      A.service.Grounded request e

/-- Evidence of an execution answers a request of the question. -/
theorem answers_of_mem {question : String} {tenantId : Int} {threadId : Option String}
    {log : ToolLog (ServiceWorld W)} {d : Dispatched F (ServiceWorld W)}
    (h : Executed A.service (A.handlerContext question tenantId threadId) (A.strategy question).strategy log
      d) {e : Evidence F} (he : e ∈ d.execution.output.evidences) :
    A.Answers question tenantId threadId e := by
  have hcalls := A.planner.calls_steps (A.planningContext question)
  obtain ⟨step, hstep, hretrieval, request, hrequest, hgrounded⟩ := h.grounded e he
  rw [plan_handlerContext, tasks_plan] at hstep
  -- evidence comes from a strategy that retrieves
  have hretrieves : (A.strategy question).strategy.retrieves = true := by
    rw [← Bool.not_eq_false]
    intro hsilent
    rw [h.silent hsilent] at he
    cases he
  obtain ⟨ask, hask, hasks⟩ := (hcalls.asked hretrieves).exists_ask hstep hretrieval
  refine ⟨ask, hask, request, ?_, hgrounded⟩
  refine (hasks.toOption_fromContext A.service.retriever.text (scope tenantId threadId)).symm.trans ?_
  replace hrequest : fromContext A.service.retriever.text (scope tenantId threadId) step.args =
      .ok request := hrequest
  rw [hrequest]
  rfl

/-- What a response cites of the execution, all or nothing. -/
theorem citations_respond (question : String) (output : ExecutionOutput (StepOutput F) F) :
    citedBy (A.respond question output).1 = [] ∨
      citedBy (A.respond question output).1 = output.citations := by
  unfold respond
  dsimp only
  split
  · exact Or.inl rfl
  split
  · left
    cases A.callLlm "direct_chat" (A.directChatPrompt question) <;> rfl
  split
  · exact Or.inr rfl
  split
  · exact Or.inl rfl
  · generalize A.callLlm _ _ = answer
    cases answer with
    | error e => exact Or.inl rfl
    | ok text => exact Or.inr rfl

/-- What a response asks the model. -/
theorem llmCalls_respond (question : String) (output : ExecutionOutput (StepOutput F) F) :
    (A.respond question output).2 = [] ∨
      (A.respond question output).2 = [("direct_chat", A.directChatPrompt question)] ∨
      output.citations ≠ [] ∧ (A.strategy question).strategy.retrieves = true ∧
        ((A.respond question output).2 =
            [("financial_compare", A.comparePrompt question output.context)] ∨
          (A.respond question output).2 = [("financial_rag", A.ragPrompt question output.context)]) := by
  unfold respond
  dsimp only
  split
  · exact Or.inl rfl
  rename_i htool
  split
  · exact Or.inr (Or.inl rfl)
  rename_i hchat
  split
  · exact Or.inl rfl
  split
  · exact Or.inl rfl
  · rename_i hcited
    refine Or.inr (Or.inr ⟨fun hnil => hcited (by rw [hnil]; rfl), ?_, ?_⟩)
    · cases hstrategy : (A.strategy question).strategy with
      | directLlm => exact absurd (by rw [hstrategy]; rfl) hchat
      | toolCalling => exact absurd hstrategy htool
      | _ => rfl
    · split
      · exact Or.inl rfl
      · exact Or.inr rfl

/-- What the model may be asked: the question alone, or with the context of some evidence that answers
    the requests of the question. -/
def Asked (question : String) (tenantId : Int) (threadId : Option String) (call : String × String) : Prop :=
  call = ("direct_chat", A.directChatPrompt question) ∨
    ∃ evidences, evidences ≠ [] ∧ (∀ e ∈ evidences, A.Answers question tenantId threadId e) ∧
      (call = ("financial_compare", A.comparePrompt question (buildContextFromEvidence evidences).1) ∨
        call = ("financial_rag", A.ragPrompt question (buildContextFromEvidence evidences).1))

end Assistant

/-! ## Calculations -/

section Calculations

variable {V : Type} {T : PyText} {N : Numerals V}

theorem keys_readParameters {m : Re.Cursor} {names : List String} {parameters : List (String × V)}
    (h : readParameters T N m names = .ok parameters) : parameters.map Prod.fst = names := by
  have hall := PyList.forall₂_of_mapM_eq_ok h
  clear h
  induction hall with
  | nil => rfl
  | @cons name parameter names parameters hhead _ ih =>
    obtain ⟨value, -, hvalue⟩ := PyList.bind_eq_ok.mp hhead
    obtain rfl := Except.ok.inj hvalue
    rw [List.map_cons, ih]

/-- What a pattern reads has the names of the pattern. -/
theorem keys_firstMetric {text : String} {patterns : List MetricPattern}
    {invocation : FinancialMetricInvocation V} (h : firstMetric T N text patterns = some invocation) :
    ∃ pattern ∈ patterns, invocation.parameters.map Prod.fst = pattern.parameterNames := by
  induction patterns with
  | nil => cases h
  | cons pattern patterns ih =>
    have hlater : firstMetric T N text patterns = some invocation →
        ∃ pattern' ∈ pattern :: patterns, invocation.parameters.map Prod.fst = pattern'.parameterNames := by
      intro h
      obtain ⟨pattern', hmem, hkeys⟩ := ih h
      exact ⟨pattern', List.mem_cons_of_mem _ hmem, hkeys⟩
    unfold firstMetric at h
    split at h
    · exact hlater h
    split at h
    · exact hlater h
    split at h
    · rename_i parameters hread
      obtain rfl := Option.some.inj h
      exact ⟨pattern, List.mem_cons_self, keys_readParameters hread⟩
    · cases h

/-- No parameter of an invocation is called `operation`. -/
theorem operation_not_mem_keys {question : String} {invocation : FinancialMetricInvocation V}
    (h : parseFinancialMetricQuery T N question = some invocation) :
    "operation" ∉ invocation.parameters.map Prod.fst := by
  unfold parseFinancialMetricQuery at h
  dsimp only at h
  split at h
  · cases h
  obtain ⟨pattern, hpattern, hkeys⟩ := keys_firstMetric h
  rw [hkeys]
  simp only [metricPatterns, List.mem_cons, List.not_mem_nil, or_false] at hpattern
  rcases hpattern with rfl | rfl | rfl | rfl | rfl
  · simp [cagrPattern, metricPattern]
  · simp [growthRatePattern, metricPattern]
  · simp [chineseGrowthRatePattern, metricPattern]
  · simp [marginPattern, quotientPattern, metricPattern]
  · simp [ratioPattern, quotientPattern, metricPattern]

end Calculations

/-- The parameters of an invocation, as the tool gets them. -/
def invocationParameters (invocation : FinancialMetricInvocation MetricParameter) : MetricParameters :=
  fun name => List.lookup name (invocation.parameters ++ [("operation", .str invocation.operation.name)])

/-- The step of a calculation has the parameters of its invocation. -/
theorem metricParameters_invocation (query : String)
    (invocation : FinancialMetricInvocation MetricParameter) {step : QueryStep}
    (h : financialMetricSteps query invocation = [step]) :
    metricParameters step.args = invocationParameters invocation := by
  obtain rfl := List.singleton_inj.mp h
  have hlookup : ∀ (entries : List (String × MetricParameter)) (name : String),
      (List.lookup name ((entries.map fun p => (p.1, ParameterValue.scalar p.2)) ++
        [("operation", .scalar (.str invocation.operation.name))])).map ParameterValue.metric =
        List.lookup name (entries ++ [("operation", .str invocation.operation.name)]) := by
    intro entries name
    induction entries with
    | nil =>
      rw [List.map_nil, List.nil_append, List.nil_append, List.lookup_cons, List.lookup_cons]
      cases name == "operation" <;> rfl
    | cons entry entries ih =>
      rw [List.map_cons, List.cons_append, List.cons_append, List.lookup_cons, List.lookup_cons]
      cases name == entry.1 with
      | true => rfl
      | false => exact ih
  funext name
  exact hlookup invocation.parameters name

/-- The tool knows the operation of an invocation. -/
theorem operationOf_invocation {T : PyText} {N : Numerals MetricParameter} {question : String}
    {invocation : FinancialMetricInvocation MetricParameter}
    (h : parseFinancialMetricQuery T N question = some invocation) :
    operationOf (invocationParameters invocation) = .ok invocation.operation.name := by
  have hkeys := operation_not_mem_keys h
  have hoperation : invocationParameters invocation "operation" = some (.str invocation.operation.name) := by
    unfold invocationParameters
    rw [List.lookup_append, List.lookup_eq_none_iff.mpr]
    · rfl
    · intro entry hentry
      rw [bne_iff_ne]
      intro heq
      exact hkeys (heq ▸ List.mem_map_of_mem hentry)
  unfold operationOf
  rw [hoperation]
  cases invocation.operation <;> rfl

/-- The answer to a calculation. -/
def calculationReport (str : Double → String) : Except PyException MetricResult → String
  | .ok (.success output) =>
    "\n".intercalate ["Deterministic financial calculation:", metricLine str output]
  | _ => "The financial calculation could not be completed."

theorem calculationReport_eq (str : Double → String) (answer : Except PyException MetricResult)
    {record : ToolTrace} (h : toolLines str [record] = calculationLines str answer) :
    (if formatToolContext str [record] = "" then "The financial calculation could not be completed."
      else formatToolContext str [record]) = calculationReport str answer := by
  unfold formatToolContext
  rw [h]
  cases answer with
  | error e => rfl
  | ok result =>
    cases result with
    | failed e => rfl
    | success output =>
      refine if_neg ?_
      show ¬ "Deterministic financial calculation:" ++ "\n" ++ metricLine str output = ""
      simp

namespace Assistant

variable {F W : Type} [PyFloat F] (A : Assistant F W)

theorem respond_toolCalling {question : String} (h : (A.strategy question).strategy = .toolCalling)
    (output : ExecutionOutput (StepOutput F) F) :
    A.respond question output =
      ( .ok
          { report := if output.context = "" then "The financial calculation could not be completed."
              else output.context
            citations := []
            context := output.context
            evidence := []
            researchMode := detectResearchMode A.planner.text question },
        [] ) := by
  unfold respond
  rw [if_pos h]

theorem world_toolCallingHandler (str : Double → String) (ctx : RuntimeContext F (ServiceWorld W))
    (log : ToolLog (ServiceWorld W)) :
    (toolCallingHandler str ctx log).execution.board.world =
      (executeToolCalls ctx.handlers ctx.sharedContext ctx.plan log.services log.runs).board.world := rfl

theorem context_toolCallingHandler (str : Double → String) (ctx : RuntimeContext F (ServiceWorld W))
    (log : ToolLog (ServiceWorld W)) :
    (toolCallingHandler str ctx log).execution.output.context =
      formatToolContext str (toolCallingHandler str ctx log).execution.board.world.trace := rfl

theorem handlers_handlerContext (question : String) (tenantId : Int) (threadId : Option String) :
    (A.handlerContext question tenantId threadId).handlers =
      toolHandlers (governedEngine A.registry) (otherHandlers A.service) := by
  rw [handlerContext, agentHandlers]

theorem scope_handlerContext (question : String) (tenantId : Int) (threadId : Option String) :
    (A.handlerContext question tenantId threadId).sharedContext = scope tenantId threadId := by
  rw [handlerContext]

theorem questionStrategy_metric (t : TaskType) (c y : Nat) : questionStrategy true t c y = .toolCalling := rfl

end Assistant

/-- The numbers of a question as parameters of the tool. -/
def sampleNumerals : Numerals MetricParameter where
  digit c := c.toNat - '0'.toNat
  int := .int
  float q := .float (.finite q)

/-- Floats are written exactly, and a power is not calculated. -/
def sampleLibrary : MathLibrary where
  repr := id
  pow x _ := .ok x

/-- An assistant over a store that is always empty, with the governed tool alone. -/
def sampleAssistant : Assistant ℚ Unit where
  planner := { text := .ascii, numerals := sampleNumerals, isDigit := fun s => s.toList.all Char.isDigit }
  service :=
    { retriever := sampleRetriever
      store := fun _ => { similaritySearch := fun _ _ _ => .ok [], lexicalCorpus := none }
      toFloat := fun n => .ok n
      zero := 0
      after := fun _ _ => () }
  registry := .ofList [("financial_metrics", financialMetricsTool sampleLibrary fun _ => "error")]
  str := fun
    | .finite q => toString q.num
    | _ => "nan"
  directChatPrompt := id
  comparePrompt question context := question ++ context
  ragPrompt question context := question ++ context
  callLlm _ prompt := .ok prompt
  buildReport _ answer _ _ := answer
  debugMode := false

end FinancialRag.Agent
