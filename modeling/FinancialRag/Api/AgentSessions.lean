/-
  `delete_agent_session` (`api/routers/agent_sessions.py`), and histories of runs and deletions of one
  conversation.

  "Recreating a client thread ID cannot revive a conversation that the user deleted."  The deletion
  reaches the saver that the CONFIGURATION names and the cache if there is a client at all; a run uses
  whatever answers at that moment.  So a checkpoint that a run left in the memory of the process, while
  PostgreSQL was down, survives a successful deletion, and so does a cached answer while Redis is not
  there.  `stays_deleted`: if no deletion finds either, nothing is ever revived.
-/
import FinancialRag.Lib.Machine
import FinancialRag.Cache.ThreadDeletion
import FinancialRag.Services.AgentRuntime

set_option linter.unusedVariables false

namespace FinancialRag.Api.AgentSessions

open Cache Services

variable {A C : Type}

/-! ## The endpoint -/

/-- What a deletion meets. -/
structure DeleteInput where
  readable : Bool
  postgres : PostgresDeletion
  cacheAvailable : Bool
  cacheDelete : Nat → Wire
  commits : Bool

inductive DeleteReply where
  | deleted (messagesDeleted cacheKeysDeleted : Nat)
  | error (status : Nat) (detail : String)
  deriving DecidableEq

def DeleteReply.isSuccess : DeleteReply → Bool
  | .deleted _ _ => true
  | .error _ _ => false

def internalError : DeleteReply := .error 500 "Internal Server Error"

/-- `delete_agent_session`, the runtime checkpoint and the cache first, the messages last. -/
def deleteAgentSession (d : Deployment A) (i : DeleteInput) (x : Conversation C) :
    DeleteReply × Conversation C :=
  if !i.readable then (internalError, x)
  else
    match x.session with
    | none => (.error 404 "Agent session not found", x)
    | some messages =>
      let runtime := deleteScopedCheckpointThread d.usePostgres i.postgres x
      if !runtime.1 then (.error 503 "Unable to delete Agent runtime checkpoint", runtime.2)
      else
        let cache := deleteThread d.sha i.cacheAvailable i.cacheDelete d.principal d.threadId runtime.2.cache
        let x := { runtime.2 with cache := cache.2 }
        match cache.1 with
        | .error _ => (internalError, x)
        | .ok deletion =>
          if !deletion.successful then (.error 503 "Unable to delete Agent session cache", x)
          else if !i.commits then (internalError, x)
          else (.deleted messages.length deletion.keysDeleted, { x with session := none })

/-! ## Histories -/

/-- The conversation, the number of calls so far, and the number of the last successful deletion. -/
structure State (C : Type) where
  conversation : Conversation C
  calls : Nat
  deletedAt : Nat

def State.init : State C := ⟨.new, 0, 0⟩

inductive Call (A C : Type) where
  | run (i : RunInput A C)
  | delete (i : DeleteInput)
  /-- an entry of the cache expires -/
  | expires (k : PyStr)

def step (d : Deployment A) (s : State C) : Call A C → Option (State C)
  | .run i => some { s with
      conversation := (runAgent d i (s.calls + 1) s.conversation).conversation
      calls := s.calls + 1 }
  | .delete i =>
    let deleted := deleteAgentSession d i s.conversation
    some {
      conversation := deleted.2
      calls := s.calls + 1
      deletedAt := if deleted.1.isSuccess then s.calls + 1 else s.deletedAt }
  | .expires k => some { s with conversation := { s.conversation with cache := s.conversation.cache.erase k } }

/-- The conversation has an answer in the cache. -/
def HasAnswer (x : Conversation C) : Prop := ∃ k entry, x.cache.get k = some (.string entry)

/-- A deletion that reaches whatever there is: no checkpoint in the memory of a process that is
    configured for PostgreSQL, and no cached answer while there is no Redis client. -/
def Reaching (d : Deployment A) (s : State C) : Call A C → Prop
  | .delete i => (d.usePostgres = true → s.conversation.memory = none) ∧
      (i.cacheAvailable = false → ¬ HasAnswer s.conversation)
  | _ => True

/-- Nothing taken from the stores is older than the last deletion. -/
structure Fresh (deletedAt : Nat) (taken : Taken C) : Prop where
  history : ∀ message ∈ taken.history, deletedAt < message.storedAt
  resumed : ∀ checkpoint, taken.resumed = some checkpoint → deletedAt < checkpoint.storedAt
  cached : ∀ entry, taken.cached = some entry → deletedAt < entry.savedAt

/-! ### The invariant -/

/-- Nothing IN the stores is older than `deletedAt`, nor belongs to another conversation. -/
structure Recent (d : Deployment A) (deletedAt : Nat) (x : Conversation C) : Prop where
  placed : Placed d.sha x.cache
  session : ∀ messages, x.session = some messages → ∀ message ∈ messages, deletedAt < message.storedAt
  durable : ∀ checkpoint, x.durable = some checkpoint → deletedAt < checkpoint.storedAt
  memory : ∀ checkpoint, x.memory = some checkpoint → deletedAt < checkpoint.storedAt
  cache : ∀ k entry, x.cache.get k = some (.string entry) →
    entry.savedBy = d.principal ∧ entry.threadId = d.threadId ∧ deletedAt < entry.savedAt
  /-- without PostgreSQL the durable saver is never used -/
  unused : d.usePostgres = false → x.durable = none

section Runs

variable {d : Deployment A} {deletedAt now : Nat} {x : Conversation C}

theorem recent_new : Recent d 0 (.new : Conversation C) where
  placed := .empty
  session := by
    intro messages habs
    cases habs
  durable := by
    intro checkpoint habs
    cases habs
  memory := by
    intro checkpoint habs
    cases habs
  cache := by
    intro k entry habs
    cases habs
  unused := fun _ => rfl

/-- The cache goes through a call that keeps entries in place and writes none but fresh ones. -/
theorem Recent.withCache (h : Recent d deletedAt x) {own : PyStr → Prop} {written : PyStr → Entry → Prop}
    {ks : Keyspace} (hconfined : Confined own written x.cache ks)
    (hwritten : ∀ k entry, written k entry →
      k = variantKey d.sha entry.savedBy entry.threadId entry.requestKey ∧
        entry.savedBy = d.principal ∧ entry.threadId = d.threadId ∧ deletedAt < entry.savedAt) :
    Recent d deletedAt { x with cache := ks } where
  placed := h.placed.of_confined hconfined fun k entry hk => (hwritten k entry hk).1
  session := h.session
  durable := h.durable
  memory := h.memory
  cache := by
    intro k entry hget
    rcases hconfined.strings k entry hget with hold | hnew
    · exact h.cache k entry hold
    · exact (hwritten k entry hnew).2
  unused := h.unused

theorem Recent.recordMessage (h : Recent d deletedAt x) (hnow : deletedAt < now) (recorded : Recorded)
    (message : Message) : Recent d deletedAt (Services.recordMessage x recorded ⟨message, now⟩) := by
  have hold : ∀ m ∈ x.session.getD [], deletedAt < m.storedAt := by
    intro m hm
    cases hsession : x.session with
    | none =>
      rw [hsession] at hm
      cases hm
    | some messages =>
      rw [hsession] at hm
      exact h.session messages hsession m hm
  cases recorded with
  | nothing => exact h
  | sessionOnly =>
    refine { h with session := ?_ }
    intro messages hmessages m hm
    obtain rfl := Option.some.inj hmessages
    exact hold m hm
  | message =>
    refine { h with session := ?_ }
    intro messages hmessages m hm
    obtain rfl := Option.some.inj hmessages
    rcases List.mem_append.mp hm with hm | hm
    · exact hold m hm
    · rw [List.mem_singleton.mp hm]
      exact hnow

theorem Recent.loadHistory (h : Recent d deletedAt x) (readable : Bool) :
    ∀ message ∈ Services.loadHistory x readable, deletedAt < message.storedAt := by
  intro message hmessage
  unfold Services.loadHistory at hmessage
  split at hmessage
  · split at hmessage
    · cases hmessage
    · rename_i messages hmessages
      exact h.session messages hmessages message (List.mem_of_mem_drop hmessage)
  · cases hmessage

theorem Recent.checkpoint (h : Recent d deletedAt x) (saver : Saver) :
    ∀ checkpoint, x.checkpoint saver = some checkpoint → deletedAt < checkpoint.storedAt := by
  cases saver with
  | durable => exact h.durable
  | memory => exact h.memory

theorem Recent.putCheckpoint (h : Recent d deletedAt x) (hnow : deletedAt < now) (saved : Option C)
    {saver : Saver} (hsaver : d.usePostgres = false → saver = .memory) :
    Recent d deletedAt (x.putCheckpoint (saved.map fun c => ⟨c, now⟩) saver) := by
  have hput : ∀ old : Option (Stored C), (∀ c, old = some c → deletedAt < c.storedAt) →
      ∀ c, (saved.map fun c => (⟨c, now⟩ : Stored C)).or old = some c → deletedAt < c.storedAt := by
    intro old hold c hc
    cases saved with
    | none => exact hold c hc
    | some value =>
      obtain rfl := Option.some.inj hc
      exact hnow
  cases saver with
  | durable =>
    refine { h with durable := hput x.durable h.durable, unused := ?_ }
    intro hmemory
    cases hsaver hmemory
  | memory => exact { h with memory := hput x.memory h.memory }

theorem agentCheckpointer_memory {usePostgres up : Bool} (h : usePostgres = false) :
    agentCheckpointer usePostgres up = .memory := by
  rw [h]
  rfl

/-- **The run lemma.**  A run takes nothing but what is there, and leaves nothing older. -/
theorem Recent.runAgent (h : Recent d deletedAt x) (hnow : deletedAt < now) (i : RunInput A C) :
    Fresh deletedAt (Services.runAgent d i now x).taken ∧
      Recent d deletedAt (Services.runAgent d i now x).conversation := by
  have hhistory := h.loadHistory i.historyReadable
  unfold Services.runAgent
  cases hsettings : i.settings with
  | error e =>
    refine ⟨⟨hhistory, ?_, ?_⟩, h⟩
    · intro checkpoint habs
      cases habs
    · intro entry habs
      cases habs
  | ok revision =>
    let requestKey := d.cacheKey i.question i.company
      ((Services.loadHistory x i.historyReadable).map Stored.value) revision
    have hread : Recent d deletedAt { x with cache := (getSession d.sha d.codec i.cacheAvailable i.cacheGet
        d.principal d.threadId (some requestKey) x.cache).2 } := by
      have hconfined : Confined (Own d.sha d.principal) (fun _ _ => False) x.cache
          (getSession d.sha d.codec i.cacheAvailable i.cacheGet d.principal d.threadId
            (some requestKey) x.cache).2 := confined_getSession _ _ _ _ _
      exact h.withCache hconfined fun _ _ habs => habs.elim
    dsimp only
    split
    · -- a cached answer
      refine ⟨⟨hhistory, ?_, ?_⟩, hread⟩
      · intro checkpoint habs
        cases habs
      · intro entry hentry
        unfold cachedEntry at hentry
        split at hentry
        · rename_i entry' hget
          obtain rfl := Option.some.inj hentry
          exact (h.cache _ _ hget).2.2
        · cases hentry
    · have hquestion := hread.recordMessage hnow i.questionRecorded
        ⟨PyStr.ofString "user", i.question, PyStr.ofString "\x7b\x7d"⟩
      split
      · -- the graph runs
        have hsaver : d.usePostgres = false →
            agentCheckpointer d.usePostgres i.postgresUp = .memory := agentCheckpointer_memory
        have hput := hquestion.putCheckpoint hnow i.saved hsaver
        have hresumed := hquestion.checkpoint (agentCheckpointer d.usePostgres i.postgresUp)
        unfold runGraph
        cases hresult : i.result with
        | error e =>
          refine ⟨⟨hhistory, hresumed, ?_⟩, hput⟩
          intro entry habs
          cases habs
        | ok result =>
          have hanswer := hput.recordMessage hnow i.answerRecorded
            ⟨PyStr.ofString "assistant", d.answer result, d.answerMetadata result i.traceId⟩
          refine ⟨⟨?_, hresumed, ?_⟩, ?_⟩
          · intro message hmessage
            rcases List.mem_append.mp hmessage with hbefore | hafter
            · exact hhistory message hbefore
            · exact hanswer.loadHistory i.historyReadableAfter message hafter
          · intro entry habs
            cases habs
          · refine hanswer.withCache (confined_saveSession _ _ _ _ _ _ _) ?_
            rintro k entry ⟨threadId, state, key, savedAt, data, hsave, _, rfl, rfl⟩
            cases hsave
            exact ⟨rfl, rfl, rfl, hnow⟩
      · refine ⟨⟨hhistory, ?_, ?_⟩, hquestion⟩
        · intro checkpoint habs
          cases habs
        · intro entry habs
          cases habs

/-- Nothing is stored of the conversation. -/
structure Gone (x : Conversation C) : Prop where
  session : x.session = none
  durable : x.durable = none
  memory : x.memory = none
  cache : ¬ HasAnswer x

theorem Gone.recent (h : Gone x) (hplaced : Placed d.sha x.cache) (deletedAt : Nat) :
    Recent d deletedAt x where
  placed := hplaced
  session := by
    intro messages habs
    rw [h.session] at habs
    cases habs
  durable := by
    intro checkpoint habs
    rw [h.durable] at habs
    cases habs
  memory := by
    intro checkpoint habs
    rw [h.memory] at habs
    cases habs
  cache := by
    intro k entry hget
    exact absurd ⟨k, entry, hget⟩ h.cache
  unused := fun _ => h.durable

/-- Whatever the deletion of the checkpoint reaches, it leaves nothing older. -/
theorem Recent.deleteCheckpoint (h : Recent d deletedAt x) (postgres : PostgresDeletion) :
    Recent d deletedAt (deleteScopedCheckpointThread d.usePostgres postgres x).2 := by
  unfold deleteScopedCheckpointThread
  split
  · exact { h with memory := fun _ habs => (by cases habs) }
  · cases postgres with
    | done => exact { h with durable := fun _ habs => (by cases habs), unused := fun _ => rfl }
    | failed => exact h
    | doneButFailed => exact { h with durable := fun _ habs => (by cases habs), unused := fun _ => rfl }

/-- A deletion of the checkpoint that is reported leaves none, if the memory of a process configured for
    PostgreSQL holds none. -/
theorem noCheckpoint_of_deleted (h : Recent d deletedAt x) {postgres : PostgresDeletion}
    (hmemory : d.usePostgres = true → x.memory = none)
    (hdeleted : (deleteScopedCheckpointThread d.usePostgres postgres x).1 = true) :
    (deleteScopedCheckpointThread d.usePostgres postgres x).2.durable = none ∧
      (deleteScopedCheckpointThread d.usePostgres postgres x).2.memory = none := by
  unfold deleteScopedCheckpointThread at hdeleted ⊢
  cases hpostgres : d.usePostgres with
  | false => exact ⟨h.unused hpostgres, rfl⟩
  | true =>
    rw [hpostgres] at hdeleted
    cases postgres with
    | done => exact ⟨rfl, hmemory hpostgres⟩
    | failed => cases hdeleted
    | doneButFailed => cases hdeleted

/-- A deletion of the cache that is reported leaves no answer, unless there is no client and one there. -/
theorem noAnswer_of_deleted (h : Recent d deletedAt x) {i : DeleteInput}
    (hcache : i.cacheAvailable = false → ¬ HasAnswer x) {deletion : ThreadCacheDeletion}
    (hdeleted : (deleteThread d.sha i.cacheAvailable i.cacheDelete d.principal d.threadId x.cache).1 =
      .ok deletion) (hsuccessful : deletion.successful = true) :
    ∀ k entry, (deleteThread d.sha i.cacheAvailable i.cacheDelete d.principal d.threadId x.cache).2.get k ≠
      some (.string entry) := by
  intro k entry hget
  cases havailable : i.cacheAvailable with
  | false =>
    rw [havailable] at hget
    exact hcache havailable ⟨k, entry, hget⟩
  | true =>
    rw [havailable] at hdeleted hget
    obtain ⟨hencodable, hanswered⟩ := deleteThread_successful hdeleted hsuccessful
    rw [hanswered, (deleteThread_get h.placed d.principal hencodable).2] at hget
    split at hget
    · cases hget
    · rename_i hkept
      obtain ⟨hprincipal, hthread, _⟩ := h.cache k entry hget
      apply hkept
      rw [h.placed.entries k entry hget]
      exact (reached_iff d.principal d.threadId hprincipal).mpr (Or.inl hthread)

/-- **The deletion lemma.**  A deletion leaves nothing older than before, and nothing at all when it
    succeeds and has reached everything. -/
theorem Recent.delete (h : Recent d deletedAt x) (i : DeleteInput)
    (hmemory : d.usePostgres = true → x.memory = none)
    (hcache : i.cacheAvailable = false → ¬ HasAnswer x) :
    Recent d deletedAt (deleteAgentSession d i x).2 ∧
      ((deleteAgentSession d i x).1.isSuccess = true → Gone (deleteAgentSession d i x).2) := by
  unfold deleteAgentSession
  split
  · exact ⟨h, fun habs => by cases habs⟩
  split
  · exact ⟨h, fun habs => by cases habs⟩
  · rename_i messages hsession
    have hruntime := h.deleteCheckpoint i.postgres
    have hsame : (deleteScopedCheckpointThread d.usePostgres i.postgres x).2.cache = x.cache := by
      unfold deleteScopedCheckpointThread
      split
      · rfl
      · cases i.postgres <;> rfl
    simp only
    split
    · exact ⟨hruntime, fun habs => by cases habs⟩
    · rename_i hdeleted
      rw [Bool.not_eq_true', Bool.not_eq_false] at hdeleted
      obtain ⟨hdurable, hmemory'⟩ := noCheckpoint_of_deleted h hmemory hdeleted
      have hconfined : Confined (Own d.sha d.principal) (fun _ _ => False)
          (deleteScopedCheckpointThread d.usePostgres i.postgres x).2.cache
          (deleteThread d.sha i.cacheAvailable i.cacheDelete d.principal d.threadId
            (deleteScopedCheckpointThread d.usePostgres i.postgres x).2.cache).2 :=
        confined_deleteThread _ _ _ _
      have hafter := hruntime.withCache hconfined fun _ _ habs => habs.elim
      have hcache' : i.cacheAvailable = false →
          ¬ HasAnswer (deleteScopedCheckpointThread d.usePostgres i.postgres x).2 := by
        intro havailable ⟨k, entry, hget⟩
        rw [hsame] at hget
        exact hcache havailable ⟨k, entry, hget⟩
      split
      · exact ⟨hafter, fun habs => by cases habs⟩
      · rename_i deletion hdeletion
        split
        · exact ⟨hafter, fun habs => by cases habs⟩
        · rename_i hsuccessful
          rw [Bool.not_eq_true', Bool.not_eq_false] at hsuccessful
          have hnone := noAnswer_of_deleted hruntime hcache' hdeletion hsuccessful
          split
          · exact ⟨hafter, fun habs => by cases habs⟩
          · refine ⟨{ hafter with session := fun _ habs => (by cases habs) }, fun _ => ?_⟩
            refine ⟨rfl, hdurable, hmemory', ?_⟩
            rintro ⟨k, entry, hget⟩
            exact hnone k entry hget

end Runs

/-- Nothing stored is older than the last successful deletion, all along a run. -/
theorem recent_of_run {d : Deployment A} {cs : List (Call A C)} {s : State C}
    (h : Machine.Run (step d) (Reaching d) State.init cs s) :
    s.deletedAt ≤ s.calls ∧ Recent d s.deletedAt s.conversation := by
  refine h.invariant (I := fun s => s.deletedAt ≤ s.calls ∧ Recent d s.deletedAt s.conversation) ?_
    ⟨le_refl _, recent_new⟩
  rintro s c t ⟨hle, hrecent⟩ hreaching hstep
  cases c with
  | run i =>
    cases hstep
    exact ⟨Nat.le_succ_of_le hle, (hrecent.runAgent (Nat.lt_succ_of_le hle) i).2⟩
  | delete i =>
    cases hstep
    obtain ⟨hstays, hgone⟩ := hrecent.delete i hreaching.1 hreaching.2
    cases hsuccess : (deleteAgentSession d i s.conversation).1.isSuccess with
    | false =>
      simp only
      exact ⟨Nat.le_succ_of_le hle, hstays⟩
    | true =>
      simp only [if_true]
      exact ⟨le_refl _, (hgone hsuccess).recent hstays.placed _⟩
  | expires k =>
    cases hstep
    have hconfined : Confined (fun _ => True) (fun _ _ => False) s.conversation.cache
        (s.conversation.cache.erase k) := .erase trivial
    exact ⟨hle, hrecent.withCache hconfined fun _ _ habs => habs.elim⟩

/-- **A deleted conversation stays deleted.**  After any history of runs and deletions, whatever was down
    meanwhile, if each deletion found no checkpoint in the memory of a process configured for PostgreSQL
    and no cached answer while there was no Redis client, then no run takes from any store what was
    stored before the last successful deletion. -/
theorem stays_deleted {d : Deployment A} {cs : List (Call A C)} {s : State C}
    (h : Machine.Run (step d) (Reaching d) State.init cs s) (i : RunInput A C) :
    Fresh s.deletedAt (runAgent d i (s.calls + 1) s.conversation).taken := by
  obtain ⟨hle, hrecent⟩ := recent_of_run h
  exact (hrecent.runAgent (Nat.lt_succ_of_le hle) i).1

/-! ### Thread `a` of user 9 -/

/-- PostgreSQL is configured.  Of an answer only its text is kept. -/
def sampleDeployment : Deployment PyStr where
  principal := user9
  threadId := PyStr.ofString "a"
  usePostgres := true
  sha := sampleSha
  codec := {
    dumps := fun output => .ok output.result
    loads := fun text => .ok ⟨text, PyStr.ofString "a", [], PyStr.ofString "trace"⟩ }
  cacheKey := fun question _ _ _ => question
  answer := id
  answerMetadata := fun _ traceId => traceId

/-- The question `q`, answered with `42`; the graph saves `checkpoint`. -/
def asked (postgresUp cacheAvailable cacheAvailableAfter : Bool) (checkpoint : Nat) : RunInput PyStr Nat where
  question := PyStr.ofString "q"
  company := none
  historyReadable := true
  settings := .ok none
  cacheAvailable := cacheAvailable
  cacheGet := fun _ => .answered
  questionRecorded := .message
  agentAvailable := true
  postgresUp := postgresUp
  saved := some checkpoint
  result := .ok (PyStr.ofString "42")
  traceId := PyStr.ofString "trace"
  answerRecorded := .message
  historyReadableAfter := true
  cacheAvailableAfter := cacheAvailableAfter
  cacheSave := fun _ => .answered

def deletion (cacheAvailable : Bool) : DeleteInput := ⟨true, .done, cacheAvailable, fun _ => .answered, true⟩

/-- PostgreSQL and Redis up: the run after the deletion starts from nothing. -/
theorem sample_stays_deleted :
    ∃ s, Machine.exec (step sampleDeployment) State.init
        [.run (asked true true true 1), .delete (deletion true)] = some s ∧ s.deletedAt = 2 ∧
      Fresh s.deletedAt (runAgent sampleDeployment (asked true true true 2) (s.calls + 1) s.conversation).taken := by
  let first : State Nat := ((step sampleDeployment State.init (.run (asked true true true 1))).getD State.init)
  let second : State Nat := ((step sampleDeployment first (.delete (deletion true))).getD State.init)
  have hrun : Machine.Run (step sampleDeployment) (Reaching sampleDeployment) State.init
      [.run (asked true true true 1), .delete (deletion true)] second := by
    refine .cons trivial (t := first) rfl (.cons ⟨fun _ => rfl, fun habs => by cases habs⟩ (t := second) rfl (.nil _))
  refine ⟨second, rfl, by decide +kernel, stays_deleted hrun _⟩

/-- PostgreSQL is down when the graph runs and up when the thread is deleted; Redis is up when the answer
    is saved and down when the thread is deleted.  Both deletions succeed, and the thread comes back. -/
theorem deleted_thread_revived :
    (∃ s checkpoint, Machine.exec (step sampleDeployment) State.init
        [.run (asked false false false 1), .delete (deletion true)] = some s ∧ s.deletedAt = 2 ∧
      (runAgent sampleDeployment (asked false false false 2) (s.calls + 1) s.conversation).taken.resumed =
        some checkpoint ∧ checkpoint.storedAt = 1) ∧
    ∃ s entry, Machine.exec (step sampleDeployment) State.init
        [.run (asked true true true 1), .delete (deletion false)] = some s ∧ s.deletedAt = 2 ∧
      (runAgent sampleDeployment (asked true true true 2) (s.calls + 1) s.conversation).taken.cached =
        some entry ∧ entry.savedAt = 1 := by
  refine ⟨⟨_, ⟨1, 1⟩, rfl, by decide +kernel, by decide +kernel, rfl⟩, ?_⟩
  exact ⟨_, ⟨PyStr.ofString "42", user9, PyStr.ofString "a", some (PyStr.ofString "q"), 1⟩, rfl,
    by decide +kernel, by decide +kernel, rfl⟩

end FinancialRag.Api.AgentSessions
