/-
  The AGENT_TASK handler (`tasks/agent_tasks.py`) with the two ledgers it charges: usage records
  (`services/usage_service.py`) and billing records (`billing/`).

  `agentTaskHandler` is the function cut at its commits.  Each control point of `AgentPc` is the
  place right BEFORE one external operation, and the input says how that operation ends:
    * `raises` anywhere inside the `try` leads to the `except` block (`failing`), whose own commit of
      FAILED may raise in turn and then escapes from the handler;
    * a failing usage insert is SWALLOWED by `record_usage` (`usageLost`), so billing goes on;
    * SUCCESS, the usage record and the billing record are three separate commits, in this order.

  An operation that commits and raises afterwards (the `refresh` after a commit) is the commit
  followed by a `raises` at the next control point.
-/
import FinancialRag.Lib.PyFloat
import FinancialRag.Tasks.Worker

set_option linter.unusedVariables false

namespace FinancialRag.Tasks

/-! ## The ledgers -/

/-- `UsageEvent`. -/
inductive UsageEvent where
  | documentUpload | documentProcess | embeddingGeneration | vectorInsert
  | chatRequest | llmToken | agentAsyncTask
  deriving DecidableEq, Repr

/-- `ResourceType`. -/
inductive ResourceType where
  | document | chunk | embedding | vector | chat | token
  deriving DecidableEq, Repr

/-- A row of `usage_records`; `taskId` is the `task_id` of its metadata. -/
structure UsageRecord where
  tenantId : Int
  userId : Option Int
  eventType : UsageEvent
  resourceType : ResourceType
  quantity : Int
  taskId : String
  deriving DecidableEq, Repr

/-- `record_usage`: an insert that fails is rolled back, logged and swallowed. -/
def recordUsage (ledger : List UsageRecord) (record : UsageRecord) (stored : Bool) :
    List UsageRecord :=
  if stored then record :: ledger else ledger

/-- A row of `billing_records`. -/
structure BillingRecord where
  tenantId : Int
  userId : Option Int
  resourceType : ResourceType
  quantity : Int
  unitPrice : Rat
  amount : Rat
  currency : String
  deriving DecidableEq, Repr

/-- The `token_usage` mapping; an absent key is `none`. -/
structure TokenUsage where
  inputTokens : Option Int := none
  outputTokens : Option Int := none
  totalTokens : Option Int := none
  deriving DecidableEq, Repr

structure Cost where
  totalTokens : Int
  totalCost : Rat
  currency : String
  deriving DecidableEq, Repr

/-- `calculate_cost`, in exact arithmetic; its `duration_seconds` is accepted and not used. -/
def calculateCost (tokenUsage : TokenUsage) (toolCalls : Nat) : Cost :=
  let input := tokenUsage.inputTokens.getD 0
  let output := tokenUsage.outputTokens.getD 0
  let total := tokenUsage.totalTokens.getD (input + output)
  let inputCost : Rat := input / 1000 * (15 / 10000)
  let outputCost : Rat := output / 1000 * (6 / 1000)
  let toolCost : Rat := toolCalls * (1 / 1000)
  { totalTokens := if total = 0 ∧ 0 < input + output then input + output else total
    totalCost := roundHalfEven (inputCost + outputCost + toolCost) 6
    currency := "USD" }

/-! ## The handler, cut at its commits -/

/-- The dictionary `run_agent` returns; an absent key is `none` or empty. -/
structure AgentAnswer where
  answer : Option String := none
  threadId : Option String := none
  toolsUsed : List String := []
  sources : List String := []
  companies : List String := []
  qualityScore : Rat := 0
  tokenUsage : TokenUsage := {}
  deriving DecidableEq, Repr

inductive AgentPc where
  /-- before `get_task` -/
  | loading
  /-- the payload has no question, before the FAILED commit -/
  | missingQuestion
  /-- before the commit of `progress=10` -/
  | starting
  /-- before `run_agent` -/
  | running
  /-- before the SUCCESS commit -/
  | succeeding (result : AgentAnswer) (duration : Rat)
  /-- SUCCESS is committed, before `record_usage` -/
  | recordingUsage (result : AgentAnswer)
  /-- before the billing commit -/
  | billing (result : AgentAnswer)
  /-- billed, before the handler returns -/
  | closing
  /-- in the `except` block, before its FAILED commit -/
  | failing (error : String)
  /-- the end of the `try` block was reached -/
  | completed
  /-- returned after a FAILED commit -/
  | handled
  /-- the `except` block itself has raised -/
  | escaped (error : String)
  deriving DecidableEq, Repr

inductive AgentInput where
  | go (now : Int)
  | answers (result : AgentAnswer) (duration : Rat)
  | usageLost
  | raises (error : String)
  deriving DecidableEq, Repr

/-- The two ledgers. -/
structure Ledgers where
  usage : List UsageRecord
  billing : List BillingRecord
  deriving DecidableEq, Repr

/-- The `result` JSON of a successful agent task. -/
def agentResult (task : Task) (r : AgentAnswer) (duration : Rat) : TaskResult :=
  .agent (r.answer.getD "") (r.threadId.getD (task.payload.threadId.getD "default"))
    r.toolsUsed r.sources r.companies r.qualityScore duration

/-- The CHAT_REQUEST record of a task. -/
def chatRequest (task : Task) : UsageRecord where
  tenantId := task.tenantId
  userId := some task.userId
  eventType := .chatRequest
  resourceType := .chat
  quantity := 1
  taskId := task.publicId

def billingRecord (task : Task) (r : AgentAnswer) : BillingRecord where
  tenantId := task.tenantId
  userId := some task.userId
  resourceType := .chat
  quantity := 1
  unitPrice := (calculateCost r.tokenUsage r.toolsUsed.length).totalCost
  amount := (calculateCost r.tokenUsage r.toolsUsed.length).totalCost
  currency := (calculateCost r.tokenUsage r.toolsUsed.length).currency

/-- `if not question`: the key is missing or the text is empty. -/
def questionMissing (task : Task) : Bool := task.payload.question.getD "" == ""

def agentStep (pc : AgentPc) (input : AgentInput) (task : Task) (ledgers : Ledgers) :
    Option (HandlerMove AgentPc Ledgers) :=
  match pc, input with
  | .loading, .go _ =>
    some ⟨if questionMissing task then .missingQuestion else .starting, none, ledgers⟩
  | .missingQuestion, .go now =>
    some ⟨.handled, some (.fail "question is required for agent task", now), ledgers⟩
  | .starting, .go now => some ⟨.running, some (.progress 10, now), ledgers⟩
  | .running, .answers result duration => some ⟨.succeeding result duration, none, ledgers⟩
  | .succeeding result duration, .go now =>
    some ⟨.recordingUsage result, some (.succeed (agentResult task result duration), now), ledgers⟩
  | .recordingUsage result, .go _ =>
    some ⟨.billing result, none,
      { ledgers with usage := recordUsage ledgers.usage (chatRequest task) true }⟩
  | .recordingUsage result, .usageLost =>
    some ⟨.billing result, none,
      { ledgers with usage := recordUsage ledgers.usage (chatRequest task) false }⟩
  | .billing result, .go _ =>
    some ⟨.closing, none, { ledgers with billing := billingRecord task result :: ledgers.billing }⟩
  | .closing, .go _ => some ⟨.completed, none, ledgers⟩
  | .failing error, .go now => some ⟨.handled, some (.fail error, now), ledgers⟩
  | .failing _, .raises error => some ⟨.escaped error, none, ledgers⟩
  | .completed, _ => none
  | .handled, _ => none
  | .escaped _, _ => none
  -- everything before `failing` is inside the `try` block
  | _, .raises error => some ⟨.failing error, none, ledgers⟩
  | _, _ => none

def agentExit : AgentPc → Option Exit
  | .completed => some .returned
  | .handled => some .returned
  | .escaped error => some (.raised error)
  | _ => none

/-- `agent_task_handler`. -/
def agentTaskHandler : Handler AgentPc Ledgers AgentInput where
  entry := .loading
  step := agentStep
  exit := agentExit

/-- Inside the `try` block. -/
def AgentPc.inTry : AgentPc → Bool
  | .failing _ | .completed | .handled | .escaped _ => false
  | _ => true

/-- After the SUCCESS commit. -/
def AgentPc.committed : AgentPc → Bool
  | .recordingUsage _ | .billing _ | .closing | .completed => true
  | _ => false

def AgentInput.isRaise : AgentInput → Bool
  | .raises _ => true
  | _ => false

/-- Every way a step of the handler can go. -/
inductive AgentMove (task : Task) (x : Ledgers) :
    AgentPc → AgentInput → HandlerMove AgentPc Ledgers → Prop
  | load {now} : AgentMove task x .loading (.go now)
      ⟨if questionMissing task then .missingQuestion else .starting, none, x⟩
  | reject {now} : AgentMove task x .missingQuestion (.go now)
      ⟨.handled, some (.fail "question is required for agent task", now), x⟩
  | begin {now} : AgentMove task x .starting (.go now) ⟨.running, some (.progress 10, now), x⟩
  | answer {r d} : AgentMove task x .running (.answers r d) ⟨.succeeding r d, none, x⟩
  | succeed {r d now} : AgentMove task x (.succeeding r d) (.go now)
      ⟨.recordingUsage r, some (.succeed (agentResult task r d), now), x⟩
  | charge {r now} : AgentMove task x (.recordingUsage r) (.go now)
      ⟨.billing r, none, { x with usage := chatRequest task :: x.usage }⟩
  | chargeLost {r} : AgentMove task x (.recordingUsage r) .usageLost ⟨.billing r, none, x⟩
  | bill {r now} : AgentMove task x (.billing r) (.go now)
      ⟨.closing, none, { x with billing := billingRecord task r :: x.billing }⟩
  | close {now} : AgentMove task x .closing (.go now) ⟨.completed, none, x⟩
  | fail {error now} : AgentMove task x (.failing error) (.go now)
      ⟨.handled, some (.fail error, now), x⟩
  | escape {error error'} : AgentMove task x (.failing error) (.raises error')
      ⟨.escaped error', none, x⟩
  | raise {pc error} (hin : pc.inTry = true) : AgentMove task x pc (.raises error)
      ⟨.failing error, none, x⟩

theorem agentStep_move {pc : AgentPc} {a : AgentInput} {task : Task} {x : Ledgers}
    {m : HandlerMove AgentPc Ledgers} (h : agentStep pc a task x = some m) :
    AgentMove task x pc a m := by
  unfold agentStep at h
  split at h
  · injection h with h; subst h; exact .load
  · injection h with h; subst h; exact .reject
  · injection h with h; subst h; exact .begin
  · injection h with h; subst h; exact .answer
  · injection h with h; subst h; exact .succeed
  · injection h with h; subst h; exact .charge
  · injection h with h; subst h; exact .chargeLost
  · injection h with h; subst h; exact .bill
  · injection h with h; subst h; exact .close
  · injection h with h; subst h; exact .fail
  · injection h with h; subst h; exact .escape
  · exact absurd h (by simp)
  · exact absurd h (by simp)
  · exact absurd h (by simp)
  · rename_i hnotFailing hnotCompleted hnotHandled hnotEscaped
    injection h with h; subst h
    refine .raise ?_
    cases pc with
    | failing e => exact absurd rfl (hnotFailing e)
    | completed => exact absurd rfl hnotCompleted
    | handled => exact absurd rfl hnotHandled
    | escaped e => exact absurd rfl (hnotEscaped e)
    | _ => rfl
  · exact absurd h (by simp)

/-- A created agent task, for evaluating schedules on. -/
def sampleAgentTask : Task :=
  newTask "a1" .agentTask { question := some "revenue?" } 7 1 0

def noLedgers : Ledgers := ⟨[], []⟩

end FinancialRag.Tasks
