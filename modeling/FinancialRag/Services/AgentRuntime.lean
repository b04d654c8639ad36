/-
  `run_agent` (`services/agent_runtime/runtime.py`) and the choice and deletion of graph checkpoints
  (`checkpointing.py`), for ONE principal and ONE thread id.

  What a conversation leaves behind is spread over four stores: the message table, the durable saver in
  PostgreSQL, the saver in the memory of the process, and the cache.  Which saver a run uses is
  decided by whether PostgreSQL answers at that moment.

  The graph and the user's model settings are outside: a run is given what they come to.  Every stored
  datum carries, FOR THE STATEMENTS ONLY, the number of the call that stored it.
-/
import FinancialRag.Cache.Session

set_option linter.unusedVariables false

namespace FinancialRag.Services

open Cache

/-- A stored datum and the number of the call that stored it. -/
structure Stored (α : Type) where
  value : α
  storedAt : Nat
  deriving DecidableEq

structure Message where
  role : PyStr
  content : PyStr
  metadata : PyStr
  deriving DecidableEq

/-- The dictionary that `run_agent` returns and caches; `A` is what the graph contributes. -/
structure AgentOutput (A : Type) where
  result : A
  threadId : PyStr
  history : List Message
  traceId : PyStr

/-- What does not change: whose thread it is, the deployment, and the parts taken from elsewhere. -/
structure Deployment (A : Type) where
  principal : Principal
  threadId : PyStr
  /-- `storage_config.use_postgres` -/
  usePostgres : Bool
  sha : Sha256
  codec : Codec (AgentOutput A)
  /-- `_cache_key`: question, company, history, settings revision -/
  cacheKey : PyStr → Option PyStr → List Message → Option PyStr → PyStr
  /-- `result.get("answer", "")` -/
  answer : A → PyStr
  /-- the metadata of the assistant's message -/
  answerMetadata : A → PyStr → PyStr

/-- All that is stored of the conversation; `C` is a checkpoint. -/
structure Conversation (C : Type) where
  session : Option (List (Stored Message))
  durable : Option (Stored C)
  memory : Option (Stored C)
  cache : Keyspace

def Conversation.new {C : Type} : Conversation C := ⟨none, none, none, Dict.empty⟩

/-! ## The message table -/

/-- How far a write of `_record_message` gets before the database raises. -/
inductive Recorded where
  | nothing
  | sessionOnly
  | message

section Stores

variable {A C : Type}

/-- `_load_history`: the last eight messages; none if the database raises. -/
def loadHistory (x : Conversation C) (readable : Bool) : List (Stored Message) :=
  if readable then
    match x.session with
    | none => []
    | some messages => messages.drop (messages.length - 8)
  else []

/-- `_record_message`. -/
def recordMessage (x : Conversation C) (recorded : Recorded) (message : Stored Message) : Conversation C :=
  match recorded with
  | .nothing => x
  | .sessionOnly => { x with session := some (x.session.getD []) }
  | .message => { x with session := some (x.session.getD [] ++ [message]) }

/-! ## The savers -/

inductive Saver where
  | durable
  | memory
  deriving DecidableEq

/-- `agent_checkpointer` of an authenticated principal: the memory of the process stands in for a
    database that cannot be reached. -/
def agentCheckpointer (usePostgres postgresUp : Bool) : Saver :=
  if !usePostgres then .memory
  else if postgresUp then .durable
  else .memory

def Conversation.checkpoint (x : Conversation C) : Saver → Option (Stored C)
  | .durable => x.durable
  | .memory => x.memory

/-- What the graph has saved by its end; a run may end before it has saved anything. -/
def Conversation.putCheckpoint (x : Conversation C) (saved : Option (Stored C)) :
    Saver → Conversation C
  | .durable => { x with durable := saved.or x.durable }
  | .memory => { x with memory := saved.or x.memory }

/-- How the deletion in PostgreSQL goes. -/
inductive PostgresDeletion where
  | done
  | failed
  | doneButFailed
  deriving DecidableEq

/-- `delete_scoped_checkpoint_thread`. -/
def deleteScopedCheckpointThread (usePostgres : Bool) (postgres : PostgresDeletion)
    (x : Conversation C) : Bool × Conversation C :=
  if !usePostgres then (true, { x with memory := none })
  else
    match postgres with
    | .done => (true, { x with durable := none })
    | .failed => (false, x)
    | .doneButFailed => (false, { x with durable := none })

/-! ## A run -/

/-- What a run meets. -/
structure RunInput (A C : Type) where
  question : PyStr
  company : Option PyStr
  historyReadable : Bool
  /-- `_load_runtime_llm_settings`: the revision, or a `CredentialEncryptionError` -/
  settings : Except String (Option PyStr)
  cacheAvailable : Bool
  cacheGet : Nat → Wire
  questionRecorded : Recorded
  agentAvailable : Bool
  postgresUp : Bool
  /-- what the graph saves, and how it ends -/
  saved : Option C
  result : Except String A
  traceId : PyStr
  answerRecorded : Recorded
  historyReadableAfter : Bool
  cacheAvailableAfter : Bool
  cacheSave : Nat → Wire

inductive RunReply (A : Type) where
  | cached (output : AgentOutput A)
  | answered (output : AgentOutput A)
  | fallback (error : String)

/-- What a run has taken from the stores. -/
structure Taken (C : Type) where
  history : List (Stored Message)
  resumed : Option (Stored C)
  cached : Option Entry

structure RunOutcome (A C : Type) where
  reply : RunReply A
  taken : Taken C
  conversation : Conversation C

/-- The entry that an answer was read from. -/
def cachedEntry (d : Deployment A) (requestKey : PyStr) (ks : Keyspace) : Option Entry :=
  match ks.get (variantKey d.sha d.principal d.threadId (some requestKey)) with
  | some (.string entry) => some entry
  | _ => none

/-- The run of the graph and what follows it, the question being recorded. -/
def runGraph (d : Deployment A) (i : RunInput A C) (now : Nat) (requestKey : PyStr)
    (history : List (Stored Message)) (x : Conversation C) : RunOutcome A C :=
  let saver := agentCheckpointer d.usePostgres i.postgresUp
  let resumed := x.checkpoint saver
  let x := x.putCheckpoint (i.saved.map fun c => ⟨c, now⟩) saver
  match i.result with
  | .error e => ⟨.fallback e, ⟨history, resumed, none⟩, x⟩
  | .ok result =>
    let x := recordMessage x i.answerRecorded
      ⟨⟨PyStr.ofString "assistant", d.answer result, d.answerMetadata result i.traceId⟩, now⟩
    let after := loadHistory x i.historyReadableAfter
    let output : AgentOutput A := ⟨result, d.threadId, after.map Stored.value, i.traceId⟩
    let cache := (saveSession d.sha d.codec i.cacheAvailableAfter i.cacheSave d.principal d.threadId output
      (some requestKey) now x.cache).2
    ⟨.answered output, ⟨history ++ after, resumed, none⟩, { x with cache := cache }⟩

/-- `run_agent`, as call number `now`. -/
def runAgent (d : Deployment A) (i : RunInput A C) (now : Nat) (x : Conversation C) : RunOutcome A C :=
  let history := loadHistory x i.historyReadable
  match i.settings with
  | .error e => ⟨.fallback e, ⟨history, none, none⟩, x⟩
  | .ok revision =>
    let requestKey := d.cacheKey i.question i.company (history.map Stored.value) revision
    let read := getSession d.sha d.codec i.cacheAvailable i.cacheGet d.principal d.threadId
      (some requestKey) x.cache
    match read.1 with
    | some output =>
      ⟨.cached { output with traceId := i.traceId }, ⟨history, none, cachedEntry d requestKey x.cache⟩,
        { x with cache := read.2 }⟩
    | none =>
      let x := recordMessage { x with cache := read.2 } i.questionRecorded
        ⟨⟨PyStr.ofString "user", i.question, PyStr.ofString "\x7b\x7d"⟩, now⟩
      if i.agentAvailable then runGraph d i now requestKey history x
      else ⟨.fallback "", ⟨history, none, none⟩, x⟩

end Stores

end FinancialRag.Services
