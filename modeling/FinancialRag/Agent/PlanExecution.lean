/-
  Execution of a plan: `agent/execution_engine.py` (one step), `agent/execution/plan_execution.py`
  (the two ways to schedule the steps) and the part of `core/context_builder.py` that turns the
  evidence into a context and citations.

  A step object's MUTABLE fields (`status`, `result`) live on a `Board`, keyed by the step id; the
  plan type carries that the ids are pairwise different, so an id is as good as `id(step)`.  A handler
  is any function of the step, the shared context it is passed and a WORLD it may change (services,
  clocks, whatever one call leaves for the next).  The board keeps a log of the handler calls: the
  code has none, but what the coordinator promises is about those calls.

  The thread pool runs a batch in some completion order, which is a `Pool`.
-/
import FinancialRag.Retrieval.Evidence

set_option linter.unusedVariables false

namespace FinancialRag.Agent

open FinancialRag.Storage FinancialRag.Retrieval

/-! ## Plans -/

inductive StepType where
  | retrieve
  | compare
  | synthesis
  | toolCall
  | reasoning
  deriving DecidableEq, Repr

def StepType.value : StepType → String
  | .retrieve => "retrieve"
  | .compare => "compare"
  | .synthesis => "synthesis"
  | .toolCall => "tool_call"
  | .reasoning => "reasoning"

inductive StepStatus where
  | pending
  | running
  | completed
  | failed
  | skipped
  deriving DecidableEq, Repr

/-- A step; `args` is what only handlers read (description, query, company, document ids, parameters,
    tool name). -/
structure PlanStep (A : Type) where
  stepId : Int
  stepType : StepType
  dependsOn : List Int
  args : A

structure ExecutionPlan (A : Type) where
  tasks : List (PlanStep A)
  stepIdsNodup : (tasks.map PlanStep.stepId).Nodup

/-- A step's result; `Out` is the type of Python values, its `default` is `None`. -/
structure ExecutionResult (Out : Type) where
  stepId : Int
  success : Bool
  output : Out
  error : Option String

/-! ## Citations -/

/-- The fields a citation copies from its evidence when they are there. -/
def citationFields : List String :=
  ["page", "section", "ocr_used", "parser_version", "chunker_version", "embedding_model",
    "embedding_revision", "content_sha256"]

section Citations

variable {F : Type} [PyFloat F]

/-- The citation of the evidence at position `i`. -/
def citationOf (ev : Evidence F) (i : Nat) : Metadata F :=
  citationFields.foldl
    (fun citation field =>
      match ev.metadata.read field with
      | .none => citation
      | value => citation.set field value)
    (Dict.ofList [("rank", .int (i + 1 : Nat)), ("source", ev.source),
      ("chunk_id", (ev.metadata.get "chunk_id").getD (.str "")), ("similarity", .float ev.confidence),
      ("preview", .str (String.ofList (ev.content.toList.take 150)))])

/-- The paragraph of the evidence at position `i`. -/
def evidenceText (ev : Evidence F) (i : Nat) : String :=
  "\n[Evidence " ++ toString (i + 1) ++ "]\nSource: " ++ ev.source.text ++ "\nChunk: " ++
    ((ev.metadata.get "chunk_id").getD (.str "")).text ++ "\n\n" ++ ev.content ++ "\n\n"

/-- `build_context_from_evidence`. -/
def buildContextFromEvidence (evidences : List (Evidence F)) : String × List (Metadata F) :=
  (evidences.zipIdx.foldl (fun context item => context ++ evidenceText item.1 item.2) "",
    evidences.zipIdx.map fun item => citationOf item.1 item.2)

end Citations

/-! ## The step engine -/

section Engine

/-- The dictionary a handler is passed: the caller's own entries, `_all_evidence` and
    `_step_results`. -/
structure SharedContext (Ctx Out F : Type) where
  base : Ctx
  allEvidence : List (Evidence F)
  stepResults : Dict Int Out

/-- What one handler call does: the evidence it appends, and its return value or its exception. -/
structure HandlerRun (Out F : Type) where
  evidence : List (Evidence F)
  outcome : Except String Out

def Handler (A Ctx Out F W : Type) :=
  PlanStep A → SharedContext Ctx Out F → W → HandlerRun Out F × W

/-- An entry of the log of handler calls. -/
structure Call (Out F : Type) where
  stepId : Int
  run : HandlerRun Out F

/-- The mutable fields of the plan's steps, the log and the world. -/
structure Board (Out F W : Type) where
  status : Int → StepStatus
  result : Int → Option (ExecutionResult Out)
  calls : List (Call Out F)
  world : W

/-- A plan that has not been touched. -/
def Board.fresh {Out F W : Type} (world : W) : Board Out F W where
  status := fun _ => .pending
  result := fun _ => none
  calls := []
  world := world

/-- What a call of `execute_step` can change: the shared context and the completed map it is passed,
    and the board. -/
structure Frame (Ctx Out F W : Type) where
  shared : SharedContext Ctx Out F
  completed : Dict Int Out
  board : Board Out F W

variable {A Ctx Out F W : Type}

/-- `step.status = …`. -/
def Board.mark (b : Board Out F W) (step : PlanStep A) (status : StepStatus) : Board Out F W :=
  { b with status := Function.update b.status step.stepId status }

/-- `step.status = …; step.result = …`. -/
def Board.settle (b : Board Out F W) (step : PlanStep A) (status : StepStatus)
    (result : ExecutionResult Out) : Board Out F W :=
  { b with
    status := Function.update b.status step.stepId status
    result := Function.update b.result step.stepId (some result) }

/-- A handler has been called: the log and the world it leaves. -/
def Board.logged (b : Board Out F W) (call : Call Out F) (world : W) : Board Out F W :=
  { b with calls := b.calls ++ [call], world := world }

/-- `_dependencies_met`, and the test of a step's readiness. -/
def dependenciesMet (step : PlanStep A) (completed : Dict Int Out) : Bool :=
  step.dependsOn.all fun dep => (completed.get dep).isSome

variable [Inhabited Out]

/-- `ExecutionResult(step_id=…, success=False, error=…)`. -/
def failure (step : PlanStep A) (error : String) : ExecutionResult Out :=
  ⟨step.stepId, false, default, some error⟩

/-- `execute_step`. -/
def executeStep (handlers : StepType → Option (Handler A Ctx Out F W)) (step : PlanStep A)
    (fr : Frame Ctx Out F W) : ExecutionResult Out × Frame Ctx Out F W :=
  let shared := { fr.shared with stepResults := fr.completed }
  if dependenciesMet step fr.completed then
    let board := fr.board.mark step .running
    match handlers step.stepType with
    | none =>
      let result := failure step ("No handler registered for " ++ step.stepType.value)
      (result, { fr with shared := shared, board := board.settle step .failed result })
    | some handler =>
      let ran := handler step shared board.world
      let board := board.logged ⟨step.stepId, ran.1⟩ ran.2
      let shared := { shared with allEvidence := shared.allEvidence ++ ran.1.evidence }
      match ran.1.outcome with
      | .ok output =>
        let result : ExecutionResult Out := ⟨step.stepId, true, output, none⟩
        let completed := fr.completed.set step.stepId output
        (result, ⟨{ shared with stepResults := completed }, completed,
          board.settle step .completed result⟩)
      | .error e =>
        let result := failure step e
        (result, { fr with shared := shared, board := board.settle step .failed result })
  else
    let result := failure step "Dependencies not met"
    (result, { fr with shared := shared, board := fr.board.settle step .skipped result })

end Engine

/-! ## The coordinator -/

/-- The completion order of a batch in the thread pool: any arrangement of it. -/
structure Pool (A : Type) where
  order : List (PlanStep A) → List (PlanStep A)
  perm : ∀ batch, (order batch).Perm batch

/-- The pool that completes in the order of submission. -/
def Pool.inOrder {A : Type} : Pool A := ⟨id, fun _ => .refl _⟩

structure ExecutionHandlerContext (A Ctx Out F W : Type) where
  plan : ExecutionPlan A
  sharedContext : Ctx
  parallelism : Int
  handlers : StepType → Option (Handler A Ctx Out F W)

structure StepOutcome (Out F : Type) where
  result : ExecutionResult Out
  evidences : List (Evidence F)

structure ExecutionOutput (Out F : Type) where
  context : String
  citations : List (Metadata F)
  evidences : List (Evidence F)
  executionResults : List (ExecutionResult Out)

def maxRetrievalWorkers : Int := 4

section Coordinator

variable {A Ctx Out F W : Type} [Inhabited Out]

/-- `_base_context`, with nothing completed. -/
def baseFrame (ctx : ExecutionHandlerContext A Ctx Out F W) (board : Board Out F W) :
    Frame Ctx Out F W :=
  ⟨⟨ctx.sharedContext, [], .empty⟩, .empty, board⟩

/-- `_execute_isolated_step`: the step sees copies, so only the board outlives the call. -/
def executeIsolatedStep (ctx : ExecutionHandlerContext A Ctx Out F W) (step : PlanStep A)
    (completed : Dict Int Out) (board : Board Out F W) : StepOutcome Out F × Board Out F W :=
  let ran := executeStep ctx.handlers step ⟨⟨ctx.sharedContext, [], .empty⟩, completed, board⟩
  (⟨ran.1, ran.2.shared.allEvidence⟩, ran.2.board)

/-- The merge of one outcome: only a success leaves anything. -/
def absorb (fr : Frame Ctx Out F W) (step : PlanStep A) (outcome : StepOutcome Out F) :
    Frame Ctx Out F W :=
  if outcome.result.success then
    { fr with
      completed := fr.completed.set step.stepId outcome.result.output
      shared := { fr.shared with allEvidence := fr.shared.allEvidence ++ outcome.evidences } }
  else fr

/-- `shared["_step_results"] = dict(completed)`. -/
def publish (fr : Frame Ctx Out F W) : Frame Ctx Out F W :=
  { fr with shared := { fr.shared with stepResults := fr.completed } }

/-- One step on the caller's thread, merged at once. -/
def runIsolated (ctx : ExecutionHandlerContext A Ctx Out F W) (fr : Frame Ctx Out F W)
    (step : PlanStep A) : Frame Ctx Out F W :=
  let ran := executeIsolatedStep ctx step fr.completed fr.board
  publish (absorb { fr with board := ran.2 } step ran.1)

/-- The workers of a batch, in completion order: each against the same snapshot. -/
def runWorkers (ctx : ExecutionHandlerContext A Ctx Out F W) (snapshot : Dict Int Out) :
    List (PlanStep A) → Board Out F W → List (Int × StepOutcome Out F) × Board Out F W
  | [], board => ([], board)
  | step :: rest, board =>
    let ran := executeIsolatedStep ctx step snapshot board
    let later := runWorkers ctx snapshot rest ran.2
    ((step.stepId, ran.1) :: later.1, later.2)

/-- `_execute_retrieval_batch`. -/
def executeRetrievalBatch (ctx : ExecutionHandlerContext A Ctx Out F W) (pool : Pool A)
    (steps : List (PlanStep A)) (completed : Dict Int Out) (board : Board Out F W) :
    Dict Int (StepOutcome Out F) × Board Out F W :=
  let ran := runWorkers ctx completed (pool.order steps) board
  (Dict.ofList ran.1, ran.2)

/-- The merge of a batch, in the order of the steps.  Every step has a future
    (`get_executeRetrievalBatch`), so the last case is not met. -/
def mergeBatch (outcomes : Dict Int (StepOutcome Out F)) (fr : Frame Ctx Out F W)
    (step : PlanStep A) : Frame Ctx Out F W :=
  match outcomes.get step.stepId with
  | some outcome => absorb fr step outcome
  | none => fr

/-- `max(1, min(parallelism, MAX_RETRIEVAL_WORKERS))`. -/
def maxWorkers (ctx : ExecutionHandlerContext A Ctx Out F W) : Int :=
  max 1 (min ctx.parallelism maxRetrievalWorkers)

def isRetrieval (step : PlanStep A) : Bool := step.stepType == .retrieve

/-- The body of the loop, for the steps that are ready: the retrievals, then the others. -/
def wave (ctx : ExecutionHandlerContext A Ctx Out F W) (pool : Pool A) (ready : List (PlanStep A))
    (fr : Frame Ctx Out F W) : Frame Ctx Out F W :=
  let retrievals := ready.filter isRetrieval
  let otherSteps := ready.filter fun step => !isRetrieval step
  let fr :=
    if 1 < retrievals.length ∧ 1 < maxWorkers ctx then
      let ran := executeRetrievalBatch ctx pool retrievals fr.completed fr.board
      publish (retrievals.foldl (mergeBatch ran.1) { fr with board := ran.2 })
    else retrievals.foldl (runIsolated ctx) fr
  otherSteps.foldl (runIsolated ctx) fr

/-- `while pending`, for at most `fuel` turns. -/
def scheduleLoop (ctx : ExecutionHandlerContext A Ctx Out F W) (pool : Pool A) :
    Nat → List (PlanStep A) → Frame Ctx Out F W → Option (Frame Ctx Out F W)
  | 0, _, _ => none
  | fuel + 1, pending, fr =>
    if pending.isEmpty then some fr
    else
      let ready := pending.filter fun step => dependenciesMet step fr.completed
      if ready.isEmpty then
        -- the blocked steps are recorded by the step engine, on the shared frame itself
        some (pending.foldl (fun fr step => (executeStep ctx.handlers step fr).2) fr)
      else
        let processed := ready.map PlanStep.stepId
        scheduleLoop ctx pool fuel (pending.filter fun step => !processed.contains step.stepId)
          (wave ctx pool ready fr)

variable [PyFloat F]

/-- `output_from_evidence`. -/
def outputFromEvidence (steps : List (PlanStep A)) (evidences : List (Evidence F))
    (board : Board Out F W) : ExecutionOutput Out F where
  context := (buildContextFromEvidence evidences).1
  citations := (buildContextFromEvidence evidences).2
  evidences := evidences
  executionResults := steps.filterMap fun step => board.result step.stepId

/-- What an execution leaves: the output and the board. -/
structure Execution (Out F W : Type) where
  output : ExecutionOutput Out F
  board : Board Out F W

def Frame.finish (ctx : ExecutionHandlerContext A Ctx Out F W) (fr : Frame Ctx Out F W) :
    Execution Out F W :=
  ⟨outputFromEvidence ctx.plan.tasks fr.shared.allEvidence fr.board, fr.board⟩

/-- `execute_sequential`. -/
def executeSequential (ctx : ExecutionHandlerContext A Ctx Out F W) (world : W) :
    Execution Out F W :=
  (ctx.plan.tasks.foldl (runIsolated ctx) (baseFrame ctx (.fresh world))).finish ctx

/-- `execute_parallel_retrievals`, for at most `fuel` turns of its loop. -/
def executeParallelRetrievals (ctx : ExecutionHandlerContext A Ctx Out F W) (pool : Pool A)
    (world : W) (fuel : Nat) : Option (Execution Out F W) :=
  (scheduleLoop ctx pool fuel ctx.plan.tasks (baseFrame ctx (.fresh world))).map
    (Frame.finish ctx)

end Coordinator

end FinancialRag.Agent
