/-
  The requests that write conversations — `_record_message` (`services/agent_runtime/runtime.py`), the
  deletion of `api/routers/agent_sessions.py`, `save_checkpoint` — any number of them at once, each cut at
  its transactions.

  A request looks a session up in one transaction and uses its ID in the next, and nothing is locked in
  between.  So it matters whether the database may give the id of a deleted row again: if it may, a request
  that is still on its way writes into somebody else's conversation.  `conversations_apart_iff`: that is
  the only way to get there, with or without foreign keys.

  `Sound` is what keeps them apart: every id that a request holds or a message carries NAMES its own scope.
-/
import FinancialRag.Lib.Machine
import FinancialRag.Storage.AgentRepository

set_option linter.unusedVariables false

namespace FinancialRag.Api.Conversations

open Machine
open FinancialRag.Services (Message)
open FinancialRag.Storage.AgentRepository

/-! ## The requests -/

inductive Request where
  | record (scope : Scope) (message : Message)
  | saveCheckpoint (scope : Scope) (data : PyStr)
  | delete (scope : Scope)
  deriving DecidableEq

def Request.scope : Request → Scope
  | .record scope _ => scope
  | .saveCheckpoint scope _ => scope
  | .delete scope => scope

/-- Where a request stands: before which transaction, and with which ids in its hands. -/
inductive Stage where
  | start
  /-- `create_session` -/
  | creating
  /-- `refresh` of the session -/
  | refreshing (sessionId : Nat)
  /-- `add_message` -/
  | adding (sessionId : Nat)
  /-- `refresh` of the message -/
  | rereading (sessionId messageId : Nat)
  /-- `touch_session` -/
  | touching (sessionId : Nat)
  /-- the endpoint has found the session; the checkpoint, the cache, and `delete_session` come next -/
  | found
  | removing (sessionId : Nat)
  | ended (successful : Bool)
  deriving DecidableEq

/-- What becomes of a transaction. -/
inductive Delivery where
  | answered
  /-- committed, but the answer is lost -/
  | lost
  | refused
  deriving DecidableEq

structure Input where
  delivery : Delivery
  pick : Nat
  gap : Nat
  now : Int
  later : Int

/-- The end of a transaction that writes. -/
def conclude {α : Type} (delivery : Delivery) (x : Tables) (next : α → Stage) :
    Option (α × Tables) → Stage × Tables
  | none => (.ended false, x)
  | some (a, y) =>
    match delivery with
    | .answered => (next a, y)
    | .lost => (.ended false, y)
    | .refused => (.ended false, x)

/-- The end of a transaction that only reads. -/
def consult (delivery : Delivery) (x : Tables) (next : Stage) : Stage × Tables :=
  if delivery = .answered then (next, x) else (.ended false, x)

/-- `_record_message`. -/
def recordMessage (db : Database) (scope : Scope) (message : Message) (i : Input) (x : Tables) :
    Stage → Option (Stage × Tables)
  | .start =>
    some (consult i.delivery x
      (match getSession i.pick x scope with
        | none => .creating
        | some s => .adding s.id))
  | .creating =>
    some (conclude i.delivery x (fun s => .refreshing s.id) (createSession db x scope i.now i.later i.gap))
  | .refreshing id =>
    some (consult i.delivery x (if (refreshSession x id).isSome then .adding id else .ended false))
  | .adding id =>
    some (conclude i.delivery x (fun m => .rereading id m.id) (addMessage db x id message i.now i.gap))
  | .rereading id messageId =>
    some (consult i.delivery x (if (refreshMessage x messageId).isSome then .touching id else .ended false))
  | .touching id =>
    some (conclude i.delivery x (fun _ => .ended true) ((touchSession x id i.now).map fun y => ((), y)))
  | _ => none

/-- `delete_agent_session`, of which the deletions of the checkpoint and of the cache only matter here if
    they stop the request. -/
def deleteAgentSession (scope : Scope) (i : Input) (x : Tables) : Stage → Option (Stage × Tables)
  | .start =>
    some (consult i.delivery x (if (getSession i.pick x scope).isSome then .found else .ended false))
  | .found =>
    some (consult i.delivery x
      (match getSession i.pick x scope with
        | none => .ended false
        | some s => .removing s.id))
  | .removing id =>
    some (conclude i.delivery x (fun _ => .ended true) (some (removeSession x scope id i.now)))
  | _ => none

def saveCheckpointOnce (db : Database) (scope : Scope) (data : PyStr) (i : Input) (x : Tables) :
    Stage → Option (Stage × Tables)
  | .start =>
    some (conclude i.delivery x (fun _ => .ended true) (some (saveCheckpoint db x scope data i.now i.gap)))
  | _ => none

def Request.step (db : Database) (i : Input) (x : Tables) (stage : Stage) :
    Request → Option (Stage × Tables)
  | .record scope message => recordMessage db scope message i x stage
  | .saveCheckpoint scope data => saveCheckpointOnce db scope data i x stage
  | .delete scope => deleteAgentSession scope i x stage

structure State where
  tables : Tables
  stage : Nat → Stage

def State.init : State := ⟨.empty, fun _ => .start⟩

/-- A step of one of the requests. -/
def step (db : Database) (requests : Nat → Request) (s : State) (e : Nat × Input) : Option State :=
  match (requests e.1).step db e.2 s.tables (s.stage e.1) with
  | none => none
  | some (stage, tables) => some ⟨tables, Function.update s.stage e.1 stage⟩

/-! ## What a step does -/

/-- Everything that one transaction of a request can come to. -/
inductive Did (db : Database) (x : Tables) : Request → Stage → Stage → Tables → Prop
  | raised {r : Request} {stage : Stage} : Did db x r stage (.ended false) x
  | absent {scope : Scope} {message : Message} : Did db x (.record scope message) .start .creating x
  | present {scope : Scope} {message : Message} {s : AgentSession} : s ∈ x.sessions → s.scope = scope →
      Did db x (.record scope message) .start (.adding s.id) x
  | created {scope : Scope} {message : Message} {s : AgentSession} {y : Tables} {next : Stage}
      {createdAt updatedAt : Int} {gap : Nat} :
      createSession db x scope createdAt updatedAt gap = some (s, y) →
      next = .refreshing s.id ∨ next = .ended false → Did db x (.record scope message) .creating next y
  | refreshed {scope : Scope} {message : Message} {id : Nat} :
      Did db x (.record scope message) (.refreshing id) (.adding id) x
  | added {scope : Scope} {message : Message} {id : Nat} {m : AgentMessage} {y : Tables} {next : Stage}
      {now : Int} {gap : Nat} : addMessage db x id message now gap = some (m, y) →
      next = .rereading id m.id ∨ next = .ended false → Did db x (.record scope message) (.adding id) next y
  | reread {scope : Scope} {message : Message} {id messageId : Nat} :
      Did db x (.record scope message) (.rereading id messageId) (.touching id) x
  | touched {scope : Scope} {message : Message} {id : Nat} {y : Tables} {b : Bool} {now : Int} :
      touchSession x id now = some y → Did db x (.record scope message) (.touching id) (.ended b) y
  | found {scope : Scope} : Did db x (.delete scope) .start .found x
  | foundAgain {scope : Scope} {s : AgentSession} : s ∈ x.sessions → s.scope = scope →
      Did db x (.delete scope) .found (.removing s.id) x
  | removed {scope : Scope} {id : Nat} {b : Bool} {now : Int} :
      Did db x (.delete scope) (.removing id) (.ended b) (removeSession x scope id now).2
  | saved {scope : Scope} {data : PyStr} {b : Bool} {now : Int} {gap : Nat} :
      Did db x (.saveCheckpoint scope data) .start (.ended b) (saveCheckpoint db x scope data now gap).2

theorem conclude_cases {α : Type} {delivery : Delivery} {x y : Tables} {next : α → Stage} {stage : Stage}
    {w : Option (α × Tables)} (h : conclude delivery x next w = (stage, y)) :
    (stage = .ended false ∧ y = x) ∨
      ∃ a, w = some (a, y) ∧ (stage = next a ∨ stage = .ended false) := by
  rcases w with _ | ⟨a, z⟩
  · cases h
    exact Or.inl ⟨rfl, rfl⟩
  · cases delivery with
    | answered =>
      cases h
      exact Or.inr ⟨a, rfl, Or.inl rfl⟩
    | lost =>
      cases h
      exact Or.inr ⟨a, rfl, Or.inr rfl⟩
    | refused =>
      cases h
      exact Or.inl ⟨rfl, rfl⟩

theorem consult_cases {delivery : Delivery} {x y : Tables} {next stage : Stage}
    (h : consult delivery x next = (stage, y)) : y = x ∧ (stage = next ∨ stage = .ended false) := by
  unfold consult at h
  split at h
  · cases h
    exact ⟨rfl, Or.inl rfl⟩
  · cases h
    exact ⟨rfl, Or.inr rfl⟩

theorem did_recordMessage {db : Database} {scope : Scope} {message : Message} {i : Input} {x y : Tables}
    {stage next : Stage} (h : recordMessage db scope message i x stage = some (next, y)) :
    Did db x (.record scope message) stage next y := by
  cases stage with
  | start =>
    obtain ⟨rfl, rfl | rfl⟩ := consult_cases (Option.some.inj h)
    · cases hs : getSession i.pick y scope with
      | none => exact .absent
      | some s =>
        obtain ⟨hmem, hscope⟩ := mem_of_getSession hs
        exact .present hmem hscope
    · exact .raised
  | creating =>
    rcases conclude_cases (Option.some.inj h) with ⟨rfl, rfl⟩ | ⟨s, hs, hnext⟩
    · exact .raised
    · exact .created hs hnext
  | refreshing id =>
    obtain ⟨rfl, rfl | rfl⟩ := consult_cases (Option.some.inj h)
    · split
      · exact .refreshed
      · exact .raised
    · exact .raised
  | adding id =>
    rcases conclude_cases (Option.some.inj h) with ⟨rfl, rfl⟩ | ⟨m, hm, hnext⟩
    · exact .raised
    · exact .added hm hnext
  | rereading id messageId =>
    obtain ⟨rfl, rfl | rfl⟩ := consult_cases (Option.some.inj h)
    · split
      · exact .reread
      · exact .raised
    · exact .raised
  | touching id =>
    rcases conclude_cases (Option.some.inj h) with ⟨rfl, rfl⟩ | ⟨u, hu, hnext⟩
    · exact .raised
    · obtain ⟨z, hz, heq⟩ := Option.map_eq_some_iff.mp hu
      cases heq
      rcases hnext with rfl | rfl
      · exact .touched hz
      · exact .touched hz
  | found => cases h
  | removing id => cases h
  | ended b => cases h

theorem did_deleteAgentSession {db : Database} {scope : Scope} {i : Input} {x y : Tables}
    {stage next : Stage} (h : deleteAgentSession scope i x stage = some (next, y)) :
    Did db x (.delete scope) stage next y := by
  cases stage with
  | start =>
    obtain ⟨rfl, rfl | rfl⟩ := consult_cases (Option.some.inj h)
    · split
      · exact .found
      · exact .raised
    · exact .raised
  | found =>
    obtain ⟨rfl, rfl | rfl⟩ := consult_cases (Option.some.inj h)
    · cases hs : getSession i.pick y scope with
      | none => exact .raised
      | some s =>
        obtain ⟨hmem, hscope⟩ := mem_of_getSession hs
        exact .foundAgain hmem hscope
    · exact .raised
  | removing id =>
    rcases conclude_cases (Option.some.inj h) with ⟨rfl, rfl⟩ | ⟨d, hd, hnext⟩
    · exact .raised
    · cases hd
      rcases hnext with rfl | rfl
      · exact .removed
      · exact .removed
  | creating => cases h
  | refreshing id => cases h
  | adding id => cases h
  | rereading id messageId => cases h
  | touching id => cases h
  | ended b => cases h

theorem did_saveCheckpointOnce {db : Database} {scope : Scope} {data : PyStr} {i : Input} {x y : Tables}
    {stage next : Stage} (h : saveCheckpointOnce db scope data i x stage = some (next, y)) :
    Did db x (.saveCheckpoint scope data) stage next y := by
  cases stage with
  | start =>
    rcases conclude_cases (Option.some.inj h) with ⟨rfl, rfl⟩ | ⟨c, hc, hnext⟩
    · exact .raised
    · cases hc
      rcases hnext with rfl | rfl
      · exact .saved
      · exact .saved
  | _ => cases h

/-- **The inversion of a step.** -/
theorem step_did {db : Database} {requests : Nat → Request} {s t : State} {e : Nat × Input}
    (h : step db requests s e = some t) :
    ∃ next, Did db s.tables (requests e.1) (s.stage e.1) next t.tables ∧
      t.stage = Function.update s.stage e.1 next := by
  unfold step at h
  split at h
  · cases h
  · rename_i next y hstep
    cases h
    refine ⟨next, ?_, rfl⟩
    cases hr : requests e.1 with
    | record scope message =>
      rw [hr] at hstep
      exact did_recordMessage hstep
    | saveCheckpoint scope data =>
      rw [hr] at hstep
      exact did_saveCheckpointOnce hstep
    | delete scope =>
      rw [hr] at hstep
      exact did_deleteAgentSession hstep

/-! ## Ids that mean a scope -/

/-- The id has been given, and names the scope. -/
structure Means (x : Tables) (id : Nat) (scope : Scope) : Prop where
  given : id ≤ x.lastSession
  names : Names x id scope

section Rows

variable {db : Database} {x y : Tables} {r : Request} {stage next : Stage}

/-- **A sequence keeps meanings**: a new row has an id that nobody holds. -/
theorem means_of_did (hdb : db.reusesIds = false) (h : Did db x r stage next y) {id : Nat} {scope : Scope}
    (hid : Means x id scope) : Means y id scope := by
  cases h with
  | @created _ _ s _ _ _ _ _ hs hnext =>
    obtain ⟨_, hfresh, _, rfl⟩ := createSession_spec hs
    have hlt : x.lastSession < s.id := hfresh ▸ last_lt_nextId hdb _ _ _
    refine ⟨hid.given.trans (le_max_left _ _), ?_⟩
    intro row hrow heq
    rcases List.mem_append.mp hrow with hold | hnew
    · exact hid.names row hold heq
    · have hrow : row = s := List.mem_singleton.mp hnew
      have hle := hid.given
      rw [hrow] at heq
      omega
  | touched ht =>
    rw [touchSession_spec ht]
    refine ⟨hid.given, ?_⟩
    intro row hrow heq
    obtain ⟨old, hold, rfl⟩ := List.mem_map.mp hrow
    rw [touched_id] at heq
    rw [touched_scope]
    exact hid.names old hold heq
  | removed => exact ⟨hid.given, fun row hrow heq => hid.names row (List.mem_filter.mp hrow).1 heq⟩
  | added hm hnext =>
    obtain ⟨_, _, _, rfl⟩ := addMessage_spec hm
    exact ⟨hid.given, hid.names⟩
  | saved => exact ⟨hid.given, hid.names⟩
  | _ => exact hid

/-- The ids of the sessions are distinct, and have been given. -/
structure Numbered (x : Tables) : Prop where
  nodup : (x.sessions.map (·.id)).Nodup
  given : ∀ row ∈ x.sessions, row.id ≤ x.lastSession

theorem Numbered.means {x : Tables} (h : Numbered x) {s : AgentSession} (hs : s ∈ x.sessions) :
    Means x s.id s.scope := by
  refine ⟨h.given s hs, ?_⟩
  intro row hrow heq
  rw [List.inj_on_of_nodup_map h.nodup hrow hs heq]

theorem numbered_of_did (h : Did db x r stage next y) (hx : Numbered x) : Numbered y := by
  cases h with
  | @created _ _ s _ _ _ _ _ hs hnext =>
    obtain ⟨_, hfresh, _, rfl⟩ := createSession_spec hs
    refine ⟨?_, ?_⟩
    · show ((x.sessions ++ [s]).map (fun s : AgentSession => s.id)).Nodup
      rw [List.map_append, List.map_singleton, hfresh]
      refine nodup_concat_nextId db _ hx.nodup ?_
      intro i hi
      obtain ⟨row, hrow, rfl⟩ := List.mem_map.mp hi
      exact hx.given row hrow
    · intro row hrow
      rcases List.mem_append.mp hrow with hold | hlast
      · exact (hx.given row hold).trans (le_max_left _ _)
      · rw [List.mem_singleton.mp hlast]
        exact le_max_right _ _
  | touched ht =>
    rw [touchSession_spec ht]
    refine ⟨?_, ?_⟩
    · show ((x.sessions.map _).map (fun s : AgentSession => s.id)).Nodup
      rw [map_touched]
      exact hx.nodup
    · intro row hrow
      obtain ⟨old, hold, rfl⟩ := List.mem_map.mp hrow
      rw [touched_id]
      exact hx.given old hold
  | removed =>
    refine ⟨hx.nodup.sublist (List.filter_sublist.map _), ?_⟩
    intro row hrow
    exact hx.given row (List.mem_filter.mp hrow).1
  | added hm hnext =>
    obtain ⟨_, _, _, rfl⟩ := addMessage_spec hm
    exact ⟨hx.nodup, hx.given⟩
  | saved => exact ⟨hx.nodup, hx.given⟩
  | _ => exact hx

/-- The id of the session that a request has in its hands. -/
def Stage.holds : Stage → Option Nat
  | .refreshing id => some id
  | .adding id => some id
  | .rereading id _ => some id
  | .touching id => some id
  | .removing id => some id
  | _ => none

/-- **Where a request has its id from**: it held it before, or a row of its scope has it now. -/
theorem row_of_holds (h : Did db x r stage next y) {id : Nat} (hid : next.holds = some id) :
    stage.holds = some id ∨ ∃ row ∈ y.sessions, row.id = id ∧ row.scope = r.scope := by
  cases h with
  | @present _ _ s hs hscope =>
    cases hid
    exact Or.inr ⟨s, hs, rfl, hscope⟩
  | @foundAgain _ s hs hscope =>
    cases hid
    exact Or.inr ⟨s, hs, rfl, hscope⟩
  | @created _ _ s _ _ _ _ _ hs hnext =>
    obtain ⟨hscope, _, _, rfl⟩ := createSession_spec hs
    rcases hnext with rfl | rfl
    · cases hid
      exact Or.inr ⟨s, List.mem_append_right _ (List.mem_singleton.mpr rfl), rfl, hscope⟩
    · cases hid
  | added hm hnext =>
    rcases hnext with rfl | rfl
    · exact Or.inl hid
    · cases hid
  | refreshed => exact Or.inl hid
  | reread => exact Or.inl hid
  | raised => cases hid
  | absent => cases hid
  | touched ht => cases hid
  | found => cases hid
  | removed => cases hid
  | saved => cases hid

/-- Such an id names the scope. -/
theorem holds_of_did (h : Did db x r stage next y) (hy : Numbered y) {id : Nat} (hid : next.holds = some id) :
    stage.holds = some id ∨ Means y id r.scope := by
  rcases row_of_holds h hid with hheld | ⟨row, hrow, rfl, hscope⟩
  · exact Or.inl hheld
  · exact Or.inr (hscope ▸ hy.means hrow)

/-- **Where a message comes from.** -/
theorem message_of_did (h : Did db x r stage next y) {m : AgentMessage} (hm : m ∈ y.messages) :
    m ∈ x.messages ∨ ∃ scope, r = .record scope m.message ∧ stage.holds = some m.sessionId := by
  cases h with
  | @added scope message id row _ _ _ _ hrow hnext =>
    obtain ⟨hsession, hmessage, _, rfl⟩ := addMessage_spec hrow
    rcases List.mem_append.mp hm with hold | hnew
    · exact Or.inl hold
    · rw [List.mem_singleton.mp hnew, hsession, hmessage]
      exact Or.inr ⟨scope, rfl, rfl⟩
  | created hs hnext =>
    obtain ⟨_, _, _, rfl⟩ := createSession_spec hs
    exact Or.inl hm
  | touched ht =>
    rw [touchSession_spec ht] at hm
    exact Or.inl hm
  | removed => exact Or.inl (List.mem_filter.mp hm).1
  | _ => exact Or.inl hm

/-- **A request that holds the right id leaves the other conversations alone.** -/
theorem untouched_of_did (h : Did db x r stage next y)
    (hheld : ∀ id, stage.holds = some id → Names x id r.scope) : Untouched r.scope x y := by
  cases h with
  | created hs hnext => exact untouched_createSession hs
  | added hm hnext => exact untouched_addMessage (hheld _ rfl) hm
  | touched ht => exact untouched_touchSession (hheld _ rfl) ht
  | removed => exact untouched_removeSession (hheld _ rfl) _
  | saved => exact untouched_saveCheckpoint _ _ _ _ _ _
  | _ => exact Untouched.refl _ _

end Rows

/-! ## The invariant -/

/-- Every id in a request or a message names the scope that it is there for. -/
structure Sound (requests : Nat → Request) (s : State) : Prop where
  numbered : Numbered s.tables
  held : ∀ k id, (s.stage k).holds = some id → Means s.tables id (requests k).scope
  written : ∀ m ∈ s.tables.messages, ∃ k scope,
    requests k = .record scope m.message ∧ Means s.tables m.sessionId scope

theorem sound_init (requests : Nat → Request) : Sound requests .init := by
  refine ⟨⟨List.nodup_nil, ?_⟩, ?_, ?_⟩
  · intro row hrow
    cases hrow
  · intro k id hid
    cases hid
  · intro m hm
    cases hm

theorem sound_step {db : Database} (hdb : db.reusesIds = false) {requests : Nat → Request} {s t : State}
    {e : Nat × Input} (h : Sound requests s) (hstep : step db requests s e = some t) : Sound requests t := by
  obtain ⟨next, hdid, hstage⟩ := step_did hstep
  have hnumbered := numbered_of_did hdid h.numbered
  have hheld : ∀ id, (s.stage e.1).holds = some id → Means t.tables id (requests e.1).scope :=
    fun id hid => means_of_did hdb hdid (h.held e.1 id hid)
  refine ⟨hnumbered, ?_, ?_⟩
  · intro k id hid
    by_cases hk : k = e.1
    · subst hk
      rw [hstage, Function.update_self] at hid
      rcases holds_of_did hdid hnumbered hid with hold | hmeans
      · exact hheld id hold
      · exact hmeans
    · rw [hstage, Function.update_of_ne hk] at hid
      exact means_of_did hdb hdid (h.held k id hid)
  · intro m hm
    rcases message_of_did hdid hm with hold | ⟨scope, hr, hid⟩
    · obtain ⟨k, scope, hk, hmeans⟩ := h.written m hold
      exact ⟨k, scope, hk, means_of_did hdb hdid hmeans⟩
    · have hmeans := hheld _ hid
      rw [hr] at hmeans
      exact ⟨e.1, scope, hr, hmeans⟩

theorem sound_of_run {db : Database} (hdb : db.reusesIds = false) {requests : Nat → Request} {s : State}
    {es : List (Nat × Input)} (h : Run (step db requests) Always .init es s) : Sound requests s :=
  h.invariant (fun _ _ _ hs _ hstep => sound_step hdb hs hstep) (sound_init requests)

/-! ## Conversations keep apart -/

/-- No request changes what a query that does not read its conversation is answered, and whatever a
    conversation shows was recorded for it. -/
structure Apart (db : Database) (requests : Nat → Request) (s : State) : Prop where
  unmoved : ∀ e t (q : Query), step db requests s e = some t → ¬ q.Reads (requests e.1).scope →
    q.answer t.tables = q.answer s.tables
  own : ∀ row ∈ s.tables.sessions, ∀ m ∈ transcript s.tables row.id,
    ∃ k, requests k = .record row.scope m.message

theorem Sound.apart {db : Database} {requests : Nat → Request} {s : State} (h : Sound requests s) :
    Apart db requests s := by
  refine ⟨?_, ?_⟩
  · intro e t q hstep hq
    obtain ⟨next, hdid, _⟩ := step_did hstep
    exact answer_of_untouched (untouched_of_did hdid fun id hid => (h.held e.1 id hid).names) hq
  · intro row hrow m hm
    obtain ⟨hmem, hsession⟩ := List.mem_filter.mp (PyList.mem_sorted.mp hm)
    obtain ⟨k, scope, hk, hmeans⟩ := h.written m hmem
    have hscope : row.scope = scope := hmeans.names row hrow (of_decide_eq_true hsession).symm
    exact ⟨k, hscope ▸ hk⟩

/-! ### An id that comes back -/

/-- Two users with a thread of the same name, and what each says. -/
def userScope (userId : Int) : Scope := ⟨1, some userId, [116]⟩

def userMessage (userId : Int) : Message := ⟨[117], [⟨userId.toNat % 0x110000, Nat.mod_lt _ (by decide)⟩], []⟩

/-- User 1 says something and deletes the conversation; user 2 says something. -/
def crossing : Nat → Request
  | 0 => .record (userScope 1) (userMessage 1)
  | 1 => .delete (userScope 1)
  | _ => .record (userScope 2) (userMessage 2)

/-- The first request has created the session when the second deletes it, and the third creates its own
    before the first goes on. -/
def crossed : List (Nat × Input) :=
  [0, 0, 0, 1, 1, 1, 2, 2, 0].map fun k => (k, ⟨.answered, 0, 0, 0, 0⟩)

theorem exec_crossed (foreignKeys : Bool) :
    (exec (step ⟨true, foreignKeys⟩ crossing) .init crossed).map (·.tables) =
      some { Tables.empty with
        sessions := [⟨1, userScope 2, 0, 0⟩]
        messages := [⟨1, 1, userMessage 1, 0⟩]
        lastSession := 1
        lastMessage := 1 } := by
  cases foreignKeys with
  | false => decide +kernel
  | true => decide +kernel

/-- **Conversations keep apart if and only if ids do not come back.** -/
theorem conversations_apart_iff (db : Database) :
    (∀ requests es s, Run (step db requests) Always .init es s → Apart db requests s) ↔
      db.reusesIds = false := by
  constructor
  · intro hall
    rw [← Bool.not_eq_true]
    intro hdb
    have hcrossed := exec_crossed db.foreignKeys
    rw [← hdb] at hcrossed
    obtain ⟨s, hs, htables⟩ := Option.map_eq_some_iff.mp hcrossed
    have hapart := hall _ _ _ (run_of_exec hs fun _ _ _ => trivial)
    have hmem : (⟨1, 1, userMessage 1, 0⟩ : AgentMessage) ∈ transcript s.tables 1 := by
      rw [htables]
      exact PyList.mem_sorted.mpr (by decide)
    have hrow : (⟨1, userScope 2, 0, 0⟩ : AgentSession) ∈ s.tables.sessions := by
      rw [htables]
      exact List.mem_singleton.mpr rfl
    obtain ⟨k, hk⟩ := hapart.own _ hrow _ hmem
    -- user 1's message stands in user 2's conversation, and nobody has recorded it there
    match k with
    | 0 => exact absurd hk (by decide)
    | 1 => exact absurd hk (by decide)
    | k + 2 => exact absurd hk (by show ¬ Request.record (userScope 2) (userMessage 2) = _; decide)
  · intro hdb requests es s h
    exact (sound_of_run hdb h).apart

/-! ## The history of a run -/

/-- The ids of the messages are distinct, and have been given. -/
structure NumberedMessages (x : Tables) : Prop where
  nodup : (x.messages.map (·.id)).Nodup
  given : ∀ m ∈ x.messages, m.id ≤ x.lastMessage

theorem numberedMessages_empty : NumberedMessages .empty := by
  refine ⟨List.nodup_nil, ?_⟩
  intro m hm
  cases hm

theorem NumberedMessages.le_last {x : Tables} (h : NumberedMessages x) :
    ∀ i ∈ x.messages.map (·.id), i ≤ x.lastMessage := by
  intro i hi
  obtain ⟨m, hm, rfl⟩ := List.mem_map.mp hi
  exact h.given m hm

theorem numberedMessages_addMessage {db : Database} {x y : Tables} {id : Nat} {message : Message} {now : Int}
    {gap : Nat} {m : AgentMessage} (hx : NumberedMessages x)
    (h : addMessage db x id message now gap = some (m, y)) : NumberedMessages y := by
  obtain ⟨_, _, hfresh, rfl⟩ := addMessage_spec h
  refine ⟨?_, ?_⟩
  · show ((x.messages ++ [m]).map (fun m : AgentMessage => m.id)).Nodup
    rw [List.map_append, List.map_singleton, hfresh]
    exact nodup_concat_nextId db _ hx.nodup hx.le_last
  · intro m' hm'
    rcases List.mem_append.mp hm' with hold | hlast
    · exact (hx.given m' hold).trans (le_max_left _ _)
    · rw [List.mem_singleton.mp hlast]
      exact le_max_right _ _

/-! ## Recorded turns are kept -/

section Rows

variable {db : Database} {x y : Tables} {r : Request} {stage next : Stage}

/-- **What becomes of a row**: it stays, touched or not, unless a deletion that holds its id removes it. -/
theorem row_of_did (h : Did db x r stage next y) {row : AgentSession} (hrow : row ∈ x.sessions) :
    (∃ row' ∈ y.sessions, row'.id = row.id ∧ row'.scope = row.scope) ∨
      ∃ scope, r = .delete scope ∧ stage.holds = some row.id := by
  cases h with
  | created hs hnext =>
    obtain ⟨_, _, _, rfl⟩ := createSession_spec hs
    exact Or.inl ⟨row, List.mem_append_left _ hrow, rfl, rfl⟩
  | touched ht =>
    rw [touchSession_spec ht]
    exact Or.inl ⟨_, List.mem_map_of_mem hrow, touched_id _ _ _, touched_scope _ _ _⟩
  | @removed scope id _ _ =>
    by_cases heq : row.id = id
    · exact Or.inr ⟨scope, rfl, by rw [heq]; rfl⟩
    · exact Or.inl ⟨row, List.mem_filter.mpr ⟨hrow, bne_iff_ne.mpr heq⟩, rfl, rfl⟩
  | added hm hnext =>
    obtain ⟨_, _, _, rfl⟩ := addMessage_spec hm
    exact Or.inl ⟨row, hrow, rfl, rfl⟩
  | saved => exact Or.inl ⟨row, hrow, rfl, rfl⟩
  | _ => exact Or.inl ⟨row, hrow, rfl, rfl⟩

/-- **What becomes of a message**, likewise. -/
theorem message_kept_of_did (h : Did db x r stage next y) {m : AgentMessage} (hm : m ∈ x.messages) :
    m ∈ y.messages ∨ ∃ scope, r = .delete scope ∧ stage.holds = some m.sessionId := by
  cases h with
  | created hs hnext =>
    obtain ⟨_, _, _, rfl⟩ := createSession_spec hs
    exact Or.inl hm
  | touched ht =>
    rw [touchSession_spec ht]
    exact Or.inl hm
  | @removed scope id _ _ =>
    by_cases heq : m.sessionId = id
    · exact Or.inr ⟨scope, rfl, by rw [heq]; rfl⟩
    · exact Or.inl (List.mem_filter.mpr ⟨hm, bne_iff_ne.mpr heq⟩)
  | added hrow hnext =>
    obtain ⟨_, _, _, rfl⟩ := addMessage_spec hrow
    exact Or.inl (List.mem_append_left _ hm)
  | saved => exact Or.inl hm
  | _ => exact Or.inl hm

/-- A scope with a user has one session at most. -/
def OneEach (x : Tables) : Prop :=
  ∀ a ∈ x.sessions, ∀ b ∈ x.sessions, a.scope = b.scope → a.scope.userId ≠ none → a = b

theorem oneEach_of_did (h : Did db x r stage next y) (hx : OneEach x) : OneEach y := by
  cases h with
  | @created scope _ s _ _ _ _ _ hs hnext =>
    obtain ⟨hscope, _, hunique, rfl⟩ := createSession_spec hs
    -- the unique index: no row of the scope was there
    have hnone : ∀ row ∈ x.sessions, s.scope.userId ≠ none → row.scope ≠ s.scope := by
      intro row hrow huser
      rw [hscope] at huser ⊢
      exact hunique huser row hrow
    intro a ha b hb heq huser
    rcases List.mem_append.mp ha with holda | hnewa
    · rcases List.mem_append.mp hb with holdb | hnewb
      · exact hx a holda b holdb heq huser
      · have hb : b = s := List.mem_singleton.mp hnewb
        rw [hb] at heq
        exact absurd heq (hnone a holda (heq ▸ huser))
    · have ha : a = s := List.mem_singleton.mp hnewa
      rw [ha] at heq huser ⊢
      rcases List.mem_append.mp hb with holdb | hnewb
      · exact absurd heq.symm (hnone b holdb huser)
      · exact (List.mem_singleton.mp hnewb).symm
  | touched ht =>
    rw [touchSession_spec ht]
    intro a ha b hb heq huser
    obtain ⟨a', ha', rfl⟩ := List.mem_map.mp ha
    obtain ⟨b', hb', rfl⟩ := List.mem_map.mp hb
    rw [touched_scope, touched_scope] at heq
    rw [touched_scope] at huser
    rw [hx a' ha' b' hb' heq huser]
  | removed =>
    intro a ha b hb
    exact hx a (List.mem_filter.mp ha).1 b (List.mem_filter.mp hb).1
  | added hm hnext =>
    obtain ⟨_, _, _, rfl⟩ := addMessage_spec hm
    exact hx
  | saved => exact hx
  | _ => exact hx

/-- So `get_session` has no choice. -/
theorem getSession_eq (hx : OneEach x) {row : AgentSession} (hrow : row ∈ x.sessions)
    (huser : row.scope.userId ≠ none) (pick : Nat) : getSession pick x row.scope = some row := by
  have hmem : row ∈ x.sessions.filter fun s => s.scope = row.scope :=
    List.mem_filter.mpr ⟨hrow, decide_eq_true rfl⟩
  cases hs : getSession pick x row.scope with
  | none =>
    have hpick := Nat.mod_lt pick (List.length_pos_of_mem hmem)
    have hle := List.getElem?_eq_none_iff.mp hs
    omega
  | some s =>
    obtain ⟨hin, hscope⟩ := mem_of_getSession hs
    rw [hx row hrow s hin hscope.symm huser]

/-- The request has added its message, and knows. -/
def Stage.hasAdded : Stage → Bool
  | .rereading _ _ => true
  | .touching _ => true
  | .ended successful => successful
  | _ => false

/-- The request may have added its message. -/
def Stage.past : Stage → Bool
  | .rereading _ _ => true
  | .touching _ => true
  | .ended _ => true
  | _ => false

/-- There is no way back. -/
theorem past_of_did (h : Did db x r stage next y) (hpast : stage.past = true) : next.past = true := by
  cases h with
  | raised => rfl
  | reread => rfl
  | touched ht => rfl
  | removed => rfl
  | saved => rfl
  | absent => cases hpast
  | present hs hscope => cases hpast
  | created hs hnext => cases hpast
  | refreshed => cases hpast
  | added hm hnext => cases hpast
  | found => cases hpast
  | foundAgain hs hscope => cases hpast

/-- A step that adds no message. -/
structure Quiet (x : Tables) (r : Request) (stage next : Stage) (y : Tables) : Prop where
  messages : y.messages.Sublist x.messages
  last : y.lastMessage = x.lastMessage
  added : ∀ scope message, r = .record scope message → next.hasAdded = true → stage.hasAdded = true

theorem quiet_or_added (h : Did db x r stage next y) :
    Quiet x r stage next y ∨ ∃ scope message id m now gap, r = .record scope message ∧
      stage = .adding id ∧ addMessage db x id message now gap = some (m, y) ∧
      (next = .rereading id m.id ∨ next = .ended false) := by
  cases h with
  | @added scope message id m _ _ now gap hm hnext =>
    exact Or.inr ⟨scope, message, id, m, now, gap, rfl, rfl, hm, hnext⟩
  | created hs hnext =>
    obtain ⟨_, _, _, rfl⟩ := createSession_spec hs
    refine Or.inl ⟨List.Sublist.refl _, rfl, ?_⟩
    intro scope message hr hadded
    rcases hnext with rfl | rfl
    · cases hadded
    · cases hadded
  | touched ht =>
    rw [touchSession_spec ht]
    exact Or.inl ⟨List.Sublist.refl _, rfl, fun _ _ _ _ => rfl⟩
  | removed => exact Or.inl ⟨List.filter_sublist, rfl, fun _ _ hr _ => by cases hr⟩
  | saved => exact Or.inl ⟨List.Sublist.refl _, rfl, fun _ _ hr _ => by cases hr⟩
  | reread => exact Or.inl ⟨List.Sublist.refl _, rfl, fun _ _ _ _ => rfl⟩
  | raised => exact Or.inl ⟨List.Sublist.refl _, rfl, fun _ _ _ hadded => by cases hadded⟩
  | absent => exact Or.inl ⟨List.Sublist.refl _, rfl, fun _ _ _ hadded => by cases hadded⟩
  | present hs hscope => exact Or.inl ⟨List.Sublist.refl _, rfl, fun _ _ _ hadded => by cases hadded⟩
  | refreshed => exact Or.inl ⟨List.Sublist.refl _, rfl, fun _ _ _ hadded => by cases hadded⟩
  | found => exact Or.inl ⟨List.Sublist.refl _, rfl, fun _ _ _ hadded => by cases hadded⟩
  | foundAgain hs hscope => exact Or.inl ⟨List.Sublist.refl _, rfl, fun _ _ _ hadded => by cases hadded⟩

theorem Quiet.numberedMessages (h : Quiet x r stage next y) (hx : NumberedMessages x) :
    NumberedMessages y := by
  refine ⟨hx.nodup.sublist (h.messages.map _), ?_⟩
  intro m hm
  rw [h.last]
  exact hx.given m (h.messages.subset hm)

theorem numberedMessages_of_did (h : Did db x r stage next y) (hx : NumberedMessages x) :
    NumberedMessages y := by
  rcases quiet_or_added h with hquiet | ⟨scope, message, id, m, now, gap, _, _, hm, _⟩
  · exact hquiet.numberedMessages hx
  · exact numberedMessages_addMessage hx hm

end Rows

/-- **The history that a run is given is the page that ends with the transcript**, whatever the database:
    messages of one instant are in the order of their ids both ways. -/
theorem loadHistory_of_run {db : Database} {requests : Nat → Request} {s : State} {es : List (Nat × Input)}
    (h : Run (step db requests) Always .init es s) {pick : Nat} {scope : Scope} {row : AgentSession}
    (hrow : getSession pick s.tables scope = some row) (limit : Nat) :
    loadHistory pick s.tables scope limit =
      (listMessages s.tables row.id limit
        ((listMessages s.tables row.id limit 0).2 - limit)).1.map (·.message) := by
  have hnumbered : NumberedMessages s.tables := by
    refine h.invariant (I := fun s => NumberedMessages s.tables) ?_ numberedMessages_empty
    intro s e t hs _ hstep
    obtain ⟨next, hdid, _⟩ := step_did hstep
    exact numberedMessages_of_did hdid hs
  rw [listMessages_eq_getMessages hnumbered.nodup]
  unfold loadHistory
  rw [hrow]

/-- Nobody asks to delete the conversation. -/
def Undeleted (requests : Nat → Request) (scope : Scope) : Prop := ∀ k, requests k ≠ .delete scope

/-- Whose every message is, and that a conversation that nobody deletes has what was recorded in it. -/
structure Kept (requests : Nat → Request) (author : Nat → Nat) (s : State) : Prop where
  numbered : NumberedMessages s.tables
  wrote : ∀ m ∈ s.tables.messages, ∃ scope, requests (author m.id) = .record scope m.message ∧
    Means s.tables m.sessionId scope
  past : ∀ m ∈ s.tables.messages, (s.stage (author m.id)).past = true
  once : ∀ m ∈ s.tables.messages, ∀ m' ∈ s.tables.messages, author m.id = author m'.id → m = m'
  rows : ∀ k id, (s.stage k).holds = some id → Undeleted requests (requests k).scope →
    ∃ row ∈ s.tables.sessions, row.id = id ∧ row.scope = (requests k).scope
  kept : ∀ k scope message, requests k = .record scope message → Undeleted requests scope →
    (s.stage k).hasAdded = true → ∃ m ∈ s.tables.messages, author m.id = k ∧
      ∃ row ∈ s.tables.sessions, row.id = m.sessionId ∧ row.scope = scope

theorem kept_init (requests : Nat → Request) (author : Nat → Nat) : Kept requests author .init := by
  refine ⟨numberedMessages_empty, ?_, ?_, ?_, ?_, ?_⟩
  · intro m hm
    cases hm
  · intro m hm
    cases hm
  · intro m hm
    cases hm
  · intro k id hid
    cases hid
  · intro k scope message hk hscope hadded
    cases hadded

section Step

variable {db : Database} {requests : Nat → Request} {s t : State} {e : Nat × Input} {next : Stage}

theorem past_step (hdid : Did db s.tables (requests e.1) (s.stage e.1) next t.tables)
    (hstage : t.stage = Function.update s.stage e.1 next) {k : Nat} (hpast : (s.stage k).past = true) :
    (t.stage k).past = true := by
  rw [hstage]
  by_cases hk : k = e.1
  · subst hk
    rw [Function.update_self]
    exact past_of_did hdid hpast
  · rw [Function.update_of_ne hk]
    exact hpast

/-- A row of a conversation that nobody deletes stays. -/
theorem row_stays (hsound : Sound requests s)
    (hdid : Did db s.tables (requests e.1) (s.stage e.1) next t.tables) {row : AgentSession}
    (hrow : row ∈ s.tables.sessions) (hkeep : Undeleted requests row.scope) :
    ∃ row' ∈ t.tables.sessions, row'.id = row.id ∧ row'.scope = row.scope := by
  rcases row_of_did hdid hrow with hstays | ⟨scope, hr, hid⟩
  · exact hstays
  · have hscope := (hsound.held e.1 row.id hid).names row hrow rfl
    rw [hr] at hscope
    have hscope : row.scope = scope := hscope
    exact absurd hr (hscope ▸ hkeep e.1)

/-- So does a message of it. -/
theorem message_stays (hsound : Sound requests s)
    (hdid : Did db s.tables (requests e.1) (s.stage e.1) next t.tables) {m : AgentMessage}
    (hm : m ∈ s.tables.messages) {row : AgentSession} (hrow : row ∈ s.tables.sessions)
    (hid : row.id = m.sessionId) (hkeep : Undeleted requests row.scope) : m ∈ t.tables.messages := by
  rcases message_kept_of_did hdid hm with hstays | ⟨scope, hr, hheld⟩
  · exact hstays
  · have hscope := (hsound.held e.1 _ hheld).names row hrow hid
    rw [hr] at hscope
    have hscope : row.scope = scope := hscope
    exact absurd hr (hscope ▸ hkeep e.1)

theorem rows_step {author : Nat → Nat} (hsound : Sound requests s) (h : Kept requests author s)
    (hdid : Did db s.tables (requests e.1) (s.stage e.1) next t.tables)
    (hstage : t.stage = Function.update s.stage e.1 next) {k id : Nat} (hid : (t.stage k).holds = some id)
    (hkeep : Undeleted requests (requests k).scope) :
    ∃ row ∈ t.tables.sessions, row.id = id ∧ row.scope = (requests k).scope := by
  have hold : (s.stage k).holds = some id →
      ∃ row ∈ t.tables.sessions, row.id = id ∧ row.scope = (requests k).scope := by
    intro hid
    obtain ⟨row, hrow, rfl, hscope⟩ := h.rows k id hid hkeep
    obtain ⟨row', hrow', hid', hscope'⟩ := row_stays hsound hdid hrow (hscope ▸ hkeep)
    exact ⟨row', hrow', hid', hscope'.trans hscope⟩
  by_cases hk : k = e.1
  · subst hk
    rw [hstage, Function.update_self] at hid
    rcases row_of_holds hdid hid with hheld | hrow
    · exact hold hheld
    · exact hrow
  · rw [hstage, Function.update_of_ne hk] at hid
    exact hold hid

/-- What was kept is kept. -/
theorem kept_still {author : Nat → Nat} (hsound : Sound requests s) (h : Kept requests author s)
    (hdid : Did db s.tables (requests e.1) (s.stage e.1) next t.tables) {k : Nat} {scope : Scope}
    {message : Message} (hk : requests k = .record scope message) (hkeep : Undeleted requests scope)
    (hadded : (s.stage k).hasAdded = true) :
    ∃ m ∈ s.tables.messages, m ∈ t.tables.messages ∧ author m.id = k ∧
      ∃ row ∈ t.tables.sessions, row.id = m.sessionId ∧ row.scope = scope := by
  obtain ⟨m, hm, hauthor, row, hrow, hid, hscope⟩ := h.kept k scope message hk hkeep hadded
  subst hscope
  obtain ⟨row', hrow', hid', hscope'⟩ := row_stays hsound hdid hrow hkeep
  exact ⟨m, hm, message_stays hsound hdid hm hrow hid hkeep, hauthor, row', hrow', hid'.trans hid, hscope'⟩

/-- A step that adds no message. -/
theorem kept_quiet (hdb : db.reusesIds = false) {author : Nat → Nat} (hsound : Sound requests s)
    (h : Kept requests author s) (hdid : Did db s.tables (requests e.1) (s.stage e.1) next t.tables)
    (hstage : t.stage = Function.update s.stage e.1 next)
    (hquiet : Quiet s.tables (requests e.1) (s.stage e.1) next t.tables) : Kept requests author t := by
  have hback : ∀ m ∈ t.tables.messages, m ∈ s.tables.messages := fun m hm => hquiet.messages.subset hm
  refine ⟨hquiet.numberedMessages h.numbered, ?_, ?_, ?_, ?_, ?_⟩
  · intro m hm
    obtain ⟨scope, hauthor, hmeans⟩ := h.wrote m (hback m hm)
    exact ⟨scope, hauthor, means_of_did hdb hdid hmeans⟩
  · intro m hm
    exact past_step hdid hstage (h.past m (hback m hm))
  · intro m hm m' hm'
    exact h.once m (hback m hm) m' (hback m' hm')
  · intro k id hid hkeep
    exact rows_step hsound h hdid hstage hid hkeep
  · intro k scope message hk hkeep hadded
    have hbefore : (s.stage k).hasAdded = true := by
      by_cases heq : k = e.1
      · subst heq
        rw [hstage, Function.update_self] at hadded
        exact hquiet.added scope message hk hadded
      · rwa [hstage, Function.update_of_ne heq] at hadded
    obtain ⟨m, _, hm, hauthor, hrow⟩ := kept_still hsound h hdid hk hkeep hbefore
    exact ⟨m, hm, hauthor, hrow⟩

/-- A step that adds a message. -/
theorem kept_added (hdb : db.reusesIds = false) {author : Nat → Nat} (hsound : Sound requests s)
    (h : Kept requests author s) (hdid : Did db s.tables (requests e.1) (s.stage e.1) next t.tables)
    (hstage : t.stage = Function.update s.stage e.1 next) {scope : Scope} {message : Message} {id : Nat}
    {m : AgentMessage} {now : Int} {gap : Nat} (hr : requests e.1 = .record scope message)
    (hat : s.stage e.1 = .adding id) (hm : addMessage db s.tables id message now gap = some (m, t.tables))
    (hnext : next = .rereading id m.id ∨ next = .ended false) :
    Kept requests (Function.update author m.id e.1) t := by
  obtain ⟨hsession, hmessage, hfresh, htables⟩ := addMessage_spec hm
  have hnew : m.id ∉ s.tables.messages.map (·.id) := hfresh ▸ nextId_notMem db _ h.numbered.le_last
  have hmessages : t.tables.messages = s.tables.messages ++ [m] := by rw [htables]
  have hother : ∀ m' ∈ s.tables.messages, Function.update author m.id e.1 m'.id = author m'.id := by
    intro m' hm'
    refine Function.update_of_ne ?_ _ _
    intro heq
    exact hnew (heq ▸ List.mem_map_of_mem hm')
  have hself : Function.update author m.id e.1 m.id = e.1 := Function.update_self _ _ _
  -- nobody else's message is e.1's: it has not added any yet
  have hnone : ∀ m' ∈ s.tables.messages, author m'.id ≠ e.1 := by
    intro m' hm' heq
    have hpast := h.past m' hm'
    rw [heq, hat] at hpast
    cases hpast
  have hcases : ∀ m' ∈ t.tables.messages, m' ∈ s.tables.messages ∨ m' = m := by
    intro m' hm'
    rw [hmessages] at hm'
    exact (List.mem_append.mp hm').imp (fun hold => hold) List.mem_singleton.mp
  refine ⟨numberedMessages_addMessage h.numbered hm, ?_, ?_, ?_, ?_, ?_⟩
  · intro m' hm'
    rcases hcases m' hm' with hold | rfl
    · obtain ⟨scope', hauthor, hmeans⟩ := h.wrote m' hold
      rw [hother m' hold]
      exact ⟨scope', hauthor, means_of_did hdb hdid hmeans⟩
    · have hmeans := hsound.held e.1 id (by rw [hat]; rfl)
      rw [hr] at hmeans
      rw [hself, hmessage, hsession]
      exact ⟨scope, hr, means_of_did hdb hdid hmeans⟩
  · intro m' hm'
    rcases hcases m' hm' with hold | rfl
    · rw [hother m' hold]
      exact past_step hdid hstage (h.past m' hold)
    · rw [hself, hstage, Function.update_self]
      rcases hnext with rfl | rfl
      · rfl
      · rfl
  · intro m₁ h₁ m₂ h₂ heq
    rcases hcases m₁ h₁ with hold₁ | rfl
    · rcases hcases m₂ h₂ with hold₂ | rfl
      · rw [hother m₁ hold₁, hother m₂ hold₂] at heq
        exact h.once m₁ hold₁ m₂ hold₂ heq
      · rw [hother m₁ hold₁, hself] at heq
        exact absurd heq (hnone m₁ hold₁)
    · rcases hcases m₂ h₂ with hold₂ | rfl
      · rw [hother m₂ hold₂, hself] at heq
        exact absurd heq.symm (hnone m₂ hold₂)
      · rfl
  · intro k id' hid hkeep
    exact rows_step hsound h hdid hstage hid hkeep
  · intro k scope' message' hk hkeep hadded
    by_cases heq : k = e.1
    · subst heq
      have hscope : scope' = scope := by
        rw [hr] at hk
        cases hk
        rfl
      subst hscope
      rw [hr] at hdid
      have hheld : (s.stage e.1).holds = some id := by rw [hat]; rfl
      obtain ⟨row, hrow, hrowid, hrowscope⟩ := h.rows e.1 id hheld (by rw [hr]; exact hkeep)
      rw [hr] at hrowscope
      refine ⟨m, ?_, hself, row, ?_, ?_, hrowscope⟩
      · rw [hmessages]
        exact List.mem_append_right _ (List.mem_singleton.mpr rfl)
      · rw [htables]
        exact hrow
      · rw [hsession]
        exact hrowid
    · rw [hstage, Function.update_of_ne heq] at hadded
      obtain ⟨m', hm', hmt, hauthor, hrow⟩ := kept_still hsound h hdid hk hkeep hadded
      exact ⟨m', hmt, (hother m' hm').trans hauthor, hrow⟩

theorem kept_step (hdb : db.reusesIds = false) {author : Nat → Nat} (hsound : Sound requests s)
    (h : Kept requests author s) (hstep : step db requests s e = some t) :
    ∃ author', Kept requests author' t := by
  obtain ⟨next, hdid, hstage⟩ := step_did hstep
  rcases quiet_or_added hdid with hquiet | ⟨scope, message, id, m, now, gap, hr, hat, hm, hnext⟩
  · exact ⟨author, kept_quiet hdb hsound h hdid hstage hquiet⟩
  · exact ⟨_, kept_added hdb hsound h hdid hstage hr hat hm hnext⟩

end Step

/-- **Recorded turns are kept, each once.**  In a conversation that nobody asks to delete, the messages
    are those of different requests to record them there, every request that has ended well has one, and
    (for an authenticated user) the session that a query finds shows it. -/
theorem turns_kept {db : Database} (hdb : db.reusesIds = false) {requests : Nat → Request} {s : State}
    {es : List (Nat × Input)} (h : Run (step db requests) Always .init es s) {scope : Scope}
    (hkeep : Undeleted requests scope) :
    ∃ author : Nat → Nat,
      (∀ m ∈ s.tables.messages, ∀ m' ∈ s.tables.messages, author m.id = author m'.id → m = m') ∧
      (∀ row ∈ s.tables.sessions, row.scope = scope → ∀ m ∈ transcript s.tables row.id,
        requests (author m.id) = .record scope m.message) ∧
      ∀ k message, requests k = .record scope message → s.stage k = .ended true →
        ∃ row ∈ s.tables.sessions, row.scope = scope ∧
          (scope.userId ≠ none → ∀ pick, getSession pick s.tables scope = some row) ∧
          ∃ m ∈ transcript s.tables row.id, author m.id = k := by
  obtain ⟨hsound, hone, author, hkept⟩ :
      Sound requests s ∧ OneEach s.tables ∧ ∃ author, Kept requests author s := by
    refine h.invariant (I := fun s => Sound requests s ∧ OneEach s.tables ∧ ∃ author, Kept requests author s)
      ?_ ⟨sound_init requests, ?_, id, kept_init requests id⟩
    · rintro s e t ⟨hsound, hone, author, hkept⟩ - hstep
      obtain ⟨next, hdid, _⟩ := step_did hstep
      exact ⟨sound_step hdb hsound hstep, oneEach_of_did hdid hone, kept_step hdb hsound hkept hstep⟩
    · intro a ha
      cases ha
  refine ⟨author, hkept.once, ?_, ?_⟩
  · rintro row hrow rfl m hm
    obtain ⟨hmem, hsession⟩ := List.mem_filter.mp (PyList.mem_sorted.mp hm)
    obtain ⟨scope, hauthor, hmeans⟩ := hkept.wrote m hmem
    have hscope : row.scope = scope := hmeans.names row hrow (of_decide_eq_true hsession).symm
    rw [hscope]
    exact hauthor
  · intro k message hk hended
    obtain ⟨m, hm, hauthor, row, hrow, hid, rfl⟩ :=
      hkept.kept k scope message hk hkeep (by rw [hended]; rfl)
    refine ⟨row, hrow, rfl, fun huser pick => getSession_eq hone hrow huser pick, m, ?_, hauthor⟩
    exact PyList.mem_sorted.mpr (List.mem_filter.mpr ⟨hm, decide_eq_true hid.symm⟩)

/-- User 1 says one thing after another, and user 2 deletes a conversation. -/
def chatting : Nat → Request
  | 2 => .delete (userScope 2)
  | k => .record (userScope 1) (userMessage k)

theorem undeleted_chatting : Undeleted chatting (userScope 1) := by
  intro k
  match k with
  | 0 => decide
  | 1 => decide
  | 2 => decide
  | k + 3 =>
    show Request.record (userScope 1) _ ≠ _
    intro h
    cases h

/-- The first request creates the session and does not hear of it; the second one ends well. -/
def chatted : List (Nat × Input) :=
  [(0, .answered), (0, .lost), (1, .answered), (1, .answered), (1, .answered), (1, .answered)].map
    fun e => (e.1, ⟨e.2, 0, 0, 0, 0⟩)

theorem chatted_kept : ∃ s, exec (step ⟨false, true⟩ chatting) .init chatted = some s ∧
    ∃ row, (∀ pick, getSession pick s.tables (userScope 1) = some row) ∧
      ∃ m ∈ transcript s.tables row.id, m.message = userMessage 1 := by
  have hended : (exec (step ⟨false, true⟩ chatting) .init chatted).map (fun s => s.stage 1) =
      some (.ended true) := rfl
  obtain ⟨s, hs, hstage⟩ := Option.map_eq_some_iff.mp hended
  obtain ⟨author, _, hown, hkept⟩ := turns_kept rfl (run_of_exec hs fun _ _ _ => trivial) undeleted_chatting
  obtain ⟨row, hrow, hscope, hpick, m, hm, hauthor⟩ := hkept 1 (userMessage 1) rfl hstage
  have hwrote := hown row hrow hscope m hm
  rw [hauthor] at hwrote
  injection hwrote with _ hmessage
  exact ⟨s, hs, row, hpick (by decide), m, hm, hmessage.symm⟩

end FinancialRag.Api.Conversations
