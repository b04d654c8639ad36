/-
  `AgentRepository` of `storage/agent/repository.py`, over the tables of `storage/agent/models.py`.

  A conversation is NAMED by its scope (tenant, user, thread) and REFERRED TO by the id of its row: messages
  carry the id, and so do the requests between two transactions.  What keeps two conversations apart is
  therefore that an id means one scope, for as long as anyone holds it.

  A query of a conversation reads the rows of its scope and the messages of these rows (`Untouched`): a
  transaction that leaves these as they are leaves every answer as it is (`answer_of_untouched`).
-/
import Mathlib.Data.Prod.Lex
import FinancialRag.Lib.PyList
import FinancialRag.Services.AgentRuntime

set_option linter.unusedVariables false

namespace FinancialRag.Storage.AgentRepository

open FinancialRag.Services (Message)

/-! ## The tables -/

/-- `(tenant_id, user_id, thread_id)`. -/
structure Scope where
  tenantId : Int
  userId : Option Int
  threadId : PyStr
  deriving DecidableEq

structure AgentSession where
  id : Nat
  scope : Scope
  createdAt : Int
  updatedAt : Int
  deriving DecidableEq

structure AgentMessage where
  id : Nat
  sessionId : Nat
  message : Message
  createdAt : Int
  deriving DecidableEq

structure AgentCheckpoint where
  id : Nat
  scope : Scope
  checkpointData : PyStr
  createdAt : Int
  archivedAt : Option Int
  deriving DecidableEq

/-- What the models leave to the database: whether it may give the id of a deleted row again (SQLite gives
    one more than the highest id in the table; a sequence never goes back), and whether it enforces
    foreign keys. -/
structure Database where
  reusesIds : Bool
  foreignKeys : Bool
  deriving DecidableEq

structure Tables where
  sessions : List AgentSession
  messages : List AgentMessage
  checkpoints : List AgentCheckpoint
  /-- the highest id that each table has given -/
  lastSession : Nat
  lastMessage : Nat
  lastCheckpoint : Nat
  deriving DecidableEq

def Tables.empty : Tables := ⟨[], [], [], 0, 0, 0⟩

/-- The id of the next row; a sequence may leave out `gap` numbers. -/
def Database.nextId (db : Database) (last gap : Nat) (ids : List Nat) : Nat :=
  if db.reusesIds then ids.foldr max 0 + 1 else last + 1 + gap

theorem le_foldr_max {ids : List Nat} {i : Nat} (h : i ∈ ids) : i ≤ ids.foldr max 0 := by
  induction ids with
  | nil => cases h
  | cons j ids ih =>
    show i ≤ max j (ids.foldr max 0)
    rcases List.mem_cons.mp h with rfl | h
    · exact le_max_left _ _
    · exact (ih h).trans (le_max_right _ _)

/-- The next id is not in the table. -/
theorem nextId_notMem (db : Database) {last : Nat} (gap : Nat) {ids : List Nat} (h : ∀ i ∈ ids, i ≤ last) :
    db.nextId last gap ids ∉ ids := by
  intro hmem
  unfold Database.nextId at hmem
  split at hmem
  · have hle := le_foldr_max hmem
    omega
  · have hle := h _ hmem
    omega

/-- So the ids of a table stay distinct. -/
theorem nodup_concat_nextId (db : Database) {last : Nat} (gap : Nat) {ids : List Nat} (hnodup : ids.Nodup)
    (h : ∀ i ∈ ids, i ≤ last) : (ids ++ [db.nextId last gap ids]).Nodup := by
  rw [List.nodup_append]
  refine ⟨hnodup, List.nodup_singleton _, ?_⟩
  intro i hi j hj heq
  rw [heq, List.mem_singleton.mp hj] at hi
  exact nextId_notMem db gap h hi

/-- A sequence gives a number it has never given. -/
theorem last_lt_nextId {db : Database} (hdb : db.reusesIds = false) (last gap : Nat) (ids : List Nat) :
    last < db.nextId last gap ids := by
  rw [Database.nextId, hdb, if_neg Bool.false_ne_true]
  omega

/-! ## Sessions -/

/-- `get_session`: `first()` of a query without an order, which may pick any of the rows. -/
def getSession (pick : Nat) (x : Tables) (scope : Scope) : Option AgentSession :=
  let rows := x.sessions.filter fun s => s.scope = scope
  rows[pick % rows.length]?

/-- `create_session`; the unique index does not compare rows without a user. -/
def createSession (db : Database) (x : Tables) (scope : Scope) (createdAt updatedAt : Int) (gap : Nat) :
    Option (AgentSession × Tables) :=
  if scope.userId ≠ none ∧ ∃ s ∈ x.sessions, s.scope = scope then none
  else
    let session : AgentSession :=
      ⟨db.nextId x.lastSession gap (x.sessions.map (·.id)), scope, createdAt, updatedAt⟩
    some (session,
      { x with sessions := x.sessions ++ [session], lastSession := max x.lastSession session.id })

/-- `db.refresh` of a session. -/
def refreshSession (x : Tables) (id : Nat) : Option AgentSession := x.sessions.find? (·.id == id)

def touched (id : Nat) (now : Int) (s : AgentSession) : AgentSession :=
  if s.id = id then { s with updatedAt := now } else s

theorem touched_id (id : Nat) (now : Int) (s : AgentSession) : (touched id now s).id = s.id := by
  unfold touched
  split <;> rfl

theorem touched_scope (id : Nat) (now : Int) (s : AgentSession) : (touched id now s).scope = s.scope := by
  unfold touched
  split <;> rfl

theorem map_touched (id : Nat) (now : Int) (rows : List AgentSession) :
    (rows.map (touched id now)).map (·.id) = rows.map (·.id) := by
  rw [List.map_map]
  exact List.map_congr_left fun s _ => touched_id id now s

/-- `touch_session`: an update that must match a row. -/
def touchSession (x : Tables) (id : Nat) (now : Int) : Option Tables :=
  if ∃ s ∈ x.sessions, s.id = id then some { x with sessions := x.sessions.map (touched id now) }
  else none

structure AgentSessionDeletion where
  threadId : PyStr
  messagesDeleted : Nat
  checkpointsArchived : Nat
  deriving DecidableEq

/-- The checkpoints that a deletion archives. -/
def archived (scope : Scope) (now : Int) (c : AgentCheckpoint) : AgentCheckpoint :=
  if c.scope = scope ∧ c.archivedAt = none then { c with archivedAt := some now } else c

/-- The transaction of `delete_session`, for the row that it has found. -/
def removeSession (x : Tables) (scope : Scope) (id : Nat) (now : Int) : AgentSessionDeletion × Tables :=
  (⟨scope.threadId, x.messages.countP (·.sessionId == id),
      x.checkpoints.countP fun c => decide (c.scope = scope ∧ c.archivedAt = none)⟩,
    { x with
      sessions := x.sessions.filter (·.id != id)
      messages := x.messages.filter (·.sessionId != id)
      checkpoints := x.checkpoints.map (archived scope now) })

/-! ## Messages -/

/-- `add_message`. -/
def addMessage (db : Database) (x : Tables) (sessionId : Nat) (message : Message) (now : Int) (gap : Nat) :
    Option (AgentMessage × Tables) :=
  if db.foreignKeys = true ∧ ∀ s ∈ x.sessions, s.id ≠ sessionId then none
  else
    let row : AgentMessage :=
      ⟨db.nextId x.lastMessage gap (x.messages.map (·.id)), sessionId, message, now⟩
    some (row, { x with messages := x.messages ++ [row], lastMessage := max x.lastMessage row.id })

/-- `db.refresh` of a message. -/
def refreshMessage (x : Tables) (id : Nat) : Option AgentMessage := x.messages.find? (·.id == id)

/-- `(created_at, id)`, ascending. -/
def messageLt (a b : AgentMessage) : Bool :=
  PyList.tupleLt [(decide (a.createdAt = b.createdAt), decide (a.createdAt < b.createdAt)),
    (decide (a.id = b.id), decide (a.id < b.id))]

/-- The messages of a session. -/
def messagesOf (x : Tables) (sessionId : Nat) : List AgentMessage :=
  x.messages.filter fun m => m.sessionId = sessionId

/-- The messages of a session, the oldest first. -/
def transcript (x : Tables) (sessionId : Nat) : List AgentMessage :=
  PyList.sorted messageLt (messagesOf x sessionId)

/-- `list_messages`: a page of the transcript, and its length. -/
def listMessages (x : Tables) (sessionId limit offset : Nat) : List AgentMessage × Nat :=
  (((transcript x sessionId).drop offset).take limit, (messagesOf x sessionId).length)

/-- `get_messages`: the newest first, then turned round. -/
def getMessages (x : Tables) (sessionId limit : Nat) : List AgentMessage :=
  ((PyList.sorted (fun a b => messageLt b a) (messagesOf x sessionId)).take limit).reverse

theorem messageLt_iff (a b : AgentMessage) :
    messageLt a b = true ↔ toLex (a.createdAt, a.id) < toLex (b.createdAt, b.id) := by
  have hend : PyList.tupleLt [] = true ↔ False := by simp [PyList.tupleLt]
  have hid := PyList.tupleLt_cons_iff hend (a := a.id) (b := b.id)
  unfold messageLt
  rw [PyList.tupleLt_cons_iff hid, Prod.Lex.toLex_lt_toLex]
  simp

/-- **The history is the end of the transcript.** -/
theorem getMessages_eq {x : Tables} (hids : (x.messages.map (·.id)).Nodup) (sessionId limit : Nat) :
    getMessages x sessionId limit =
      (transcript x sessionId).drop ((transcript x sessionId).length - limit) := by
  have hinj : ∀ a ∈ messagesOf x sessionId, ∀ b ∈ messagesOf x sessionId,
      toLex (a.createdAt, a.id) = toLex (b.createdAt, b.id) → a = b := by
    intro a ha b hb hab
    have hid : a.id = b.id := congrArg Prod.snd (toLex_inj.mp hab)
    exact List.inj_on_of_nodup_map hids (List.mem_filter.mp ha).1 (List.mem_filter.mp hb).1 hid
  unfold getMessages
  rw [PyList.sorted_swap_of_place messageLt_iff hinj, List.take_reverse, List.reverse_reverse]
  rfl

/-- The page that ends with the transcript is the history of its length. -/
theorem listMessages_eq_getMessages {x : Tables} (hids : (x.messages.map (·.id)).Nodup)
    (sessionId limit : Nat) :
    (listMessages x sessionId limit ((listMessages x sessionId limit 0).2 - limit)).1 =
      getMessages x sessionId limit := by
  have hlength : (transcript x sessionId).length = (messagesOf x sessionId).length :=
    (PyList.sorted_perm _ _).length_eq
  rw [getMessages_eq hids, hlength]
  show ((transcript x sessionId).drop ((messagesOf x sessionId).length - limit)).take limit = _
  refine List.take_of_length_le ?_
  rw [List.length_drop, hlength]
  omega

/-- `_load_history` of `services/agent_runtime/runtime.py`, when the database answers. -/
def loadHistory (pick : Nat) (x : Tables) (scope : Scope) (limit : Nat) : List Message :=
  match getSession pick x scope with
  | none => []
  | some session => (getMessages x session.id limit).map (·.message)

/-! ## Checkpoints -/

/-- `save_checkpoint`. -/
def saveCheckpoint (db : Database) (x : Tables) (scope : Scope) (data : PyStr) (now : Int) (gap : Nat) :
    AgentCheckpoint × Tables :=
  let row : AgentCheckpoint :=
    ⟨db.nextId x.lastCheckpoint gap (x.checkpoints.map (·.id)), scope, data, now, none⟩
  (row, { x with checkpoints := x.checkpoints ++ [row], lastCheckpoint := max x.lastCheckpoint row.id })

/-- `(created_at, id)`, descending. -/
def checkpointLt (a b : AgentCheckpoint) : Bool :=
  PyList.tupleLt [(decide (a.createdAt = b.createdAt), decide (b.createdAt < a.createdAt)),
    (decide (a.id = b.id), decide (b.id < a.id))]

/-- `get_latest_checkpoint`. -/
def getLatestCheckpoint (x : Tables) (scope : Scope) : Option AgentCheckpoint :=
  (PyList.sorted checkpointLt
    (x.checkpoints.filter fun c => c.scope = scope ∧ c.archivedAt = none)).head?

/-! ## The list of sessions -/

/-- The session belongs to the principal. -/
def Scope.ofPrincipal (scope : Scope) (tenantId userId : Int) : Bool :=
  decide (scope.tenantId = tenantId) && decide (scope.userId = some userId)

/-- `(updated_at, id)`, descending. -/
def sessionLt (a b : AgentSession) : Bool :=
  PyList.tupleLt [(decide (a.updatedAt = b.updatedAt), decide (b.updatedAt < a.updatedAt)),
    (decide (a.id = b.id), decide (b.id < a.id))]

def sessionsOf (x : Tables) (tenantId userId : Int) : List AgentSession :=
  x.sessions.filter fun s => s.scope.ofPrincipal tenantId userId

/-- `list_sessions`: a page with the number of messages of each, and the number of sessions. -/
def listSessions (x : Tables) (tenantId userId : Int) (limit offset : Nat) :
    List (AgentSession × Nat) × Nat :=
  ((((PyList.sorted sessionLt (sessionsOf x tenantId userId)).drop offset).take limit).map fun s =>
      (s, (messagesOf x s.id).length),
    (sessionsOf x tenantId userId).length)

/-! ## Queries -/

/-- The reading requests: the endpoints of one conversation, the history of a run, the latest checkpoint,
    and the list of a principal. -/
inductive Query where
  | session (pick : Nat) (scope : Scope) (limit offset : Nat)
  | history (pick : Nat) (scope : Scope) (limit : Nat)
  | checkpoint (scope : Scope)
  | sessions (tenantId userId : Int) (limit offset : Nat)

inductive Answer where
  | session (detail : Option (AgentSession × List AgentMessage × Nat))
  | history (messages : List Message)
  | checkpoint (row : Option AgentCheckpoint)
  | sessions (items : List (AgentSession × Nat)) (total : Nat)
  deriving DecidableEq

/-- `get_agent_session` and `export_agent_session`, `_load_history`, `get_latest_checkpoint`,
    `list_agent_sessions`. -/
def Query.answer (x : Tables) : Query → Answer
  | .session pick scope limit offset =>
    .session ((getSession pick x scope).map fun s => (s, listMessages x s.id limit offset))
  | .history pick scope limit => .history (loadHistory pick x scope limit)
  | .checkpoint scope => .checkpoint (getLatestCheckpoint x scope)
  | .sessions tenantId userId limit offset =>
    let page := listSessions x tenantId userId limit offset
    .sessions page.1 page.2

/-- The query reads the conversation. -/
def Query.Reads (scope : Scope) : Query → Prop
  | .session _ scope' _ _ => scope' = scope
  | .history _ scope' _ => scope' = scope
  | .checkpoint scope' => scope' = scope
  | .sessions tenantId userId _ _ => scope.ofPrincipal tenantId userId = true

/-! ## What a transaction leaves as it is -/

/-- From `x` to `y` nothing has changed outside the conversation. -/
structure Untouched (scope : Scope) (x y : Tables) : Prop where
  sessions : ∀ p : Scope → Bool, p scope = false →
    y.sessions.filter (fun s => p s.scope) = x.sessions.filter fun s => p s.scope
  messages : ∀ s ∈ x.sessions, s.scope ≠ scope → messagesOf y s.id = messagesOf x s.id
  checkpoints : ∀ p : Scope → Bool, p scope = false →
    y.checkpoints.filter (fun c => p c.scope) = x.checkpoints.filter fun c => p c.scope

theorem Untouched.refl (scope : Scope) (x : Tables) : Untouched scope x x :=
  ⟨fun _ _ => rfl, fun _ _ _ => rfl, fun _ _ => rfl⟩

/-- The row that `get_session` finds is one of the scope. -/
theorem mem_of_getSession {pick : Nat} {x : Tables} {scope : Scope} {s : AgentSession}
    (h : getSession pick x scope = some s) : s ∈ x.sessions ∧ s.scope = scope := by
  have hmem := List.mem_filter.mp (List.mem_of_getElem? h)
  exact ⟨hmem.1, of_decide_eq_true hmem.2⟩

theorem getSession_of_untouched {scope scope' : Scope} {x y : Tables} (h : Untouched scope x y)
    (hne : scope' ≠ scope) (pick : Nat) : getSession pick y scope' = getSession pick x scope' := by
  have hrows := h.sessions (fun c => decide (c = scope')) (decide_eq_false (Ne.symm hne))
  unfold getSession
  rw [hrows]

theorem listMessages_of_eq {x y : Tables} {id : Nat} (h : messagesOf y id = messagesOf x id)
    (limit offset : Nat) : listMessages y id limit offset = listMessages x id limit offset := by
  unfold listMessages transcript
  rw [h]

theorem getMessages_of_eq {x y : Tables} {id : Nat} (h : messagesOf y id = messagesOf x id)
    (limit : Nat) : getMessages y id limit = getMessages x id limit := by
  unfold getMessages
  rw [h]

theorem loadHistory_of_untouched {scope scope' : Scope} {x y : Tables} (h : Untouched scope x y)
    (hne : scope' ≠ scope) (pick limit : Nat) :
    loadHistory pick y scope' limit = loadHistory pick x scope' limit := by
  unfold loadHistory
  rw [getSession_of_untouched h hne]
  cases hs : getSession pick x scope' with
  | none => rfl
  | some s =>
    obtain ⟨hmem, hscope⟩ := mem_of_getSession hs
    show (getMessages y s.id limit).map _ = (getMessages x s.id limit).map _
    rw [getMessages_of_eq (h.messages s hmem (hscope ▸ hne))]

theorem getLatestCheckpoint_of_untouched {scope scope' : Scope} {x y : Tables} (h : Untouched scope x y)
    (hne : scope' ≠ scope) : getLatestCheckpoint y scope' = getLatestCheckpoint x scope' := by
  have hopen : ∀ z : Tables, (z.checkpoints.filter fun c => decide (c.scope = scope' ∧ c.archivedAt = none)) =
      (z.checkpoints.filter fun c => decide (c.scope = scope')).filter fun c =>
        decide (c.archivedAt = none) := by
    intro z
    rw [List.filter_filter]
    refine List.filter_congr ?_
    intro c hc
    rw [Bool.and_comm, ← Bool.decide_and]
  unfold getLatestCheckpoint
  rw [hopen x, hopen y, h.checkpoints (fun c => decide (c = scope')) (decide_eq_false (Ne.symm hne))]

theorem listSessions_of_untouched {scope : Scope} {x y : Tables} (h : Untouched scope x y)
    {tenantId userId : Int} (hother : scope.ofPrincipal tenantId userId = false) (limit offset : Nat) :
    listSessions y tenantId userId limit offset = listSessions x tenantId userId limit offset := by
  have hrows : sessionsOf y tenantId userId = sessionsOf x tenantId userId :=
    h.sessions (fun c => c.ofPrincipal tenantId userId) hother
  have hcounts : ∀ s ∈ ((PyList.sorted sessionLt (sessionsOf x tenantId userId)).drop offset).take limit,
      (s, (messagesOf y s.id).length) = (s, (messagesOf x s.id).length) := by
    intro s hs
    have hmem := PyList.mem_sorted.mp (List.mem_of_mem_drop (List.mem_of_mem_take hs))
    obtain ⟨hrow, howner⟩ := List.mem_filter.mp hmem
    rw [h.messages s hrow]
    intro heq
    rw [heq, hother] at howner
    cases howner
  unfold listSessions
  rw [hrows, List.map_congr_left hcounts]

/-- **What is untouched answers as before.** -/
theorem answer_of_untouched {scope : Scope} {x y : Tables} (h : Untouched scope x y) {q : Query}
    (hq : ¬ q.Reads scope) : q.answer y = q.answer x := by
  cases q with
  | session pick scope' limit offset =>
    show Answer.session _ = Answer.session _
    rw [getSession_of_untouched h hq]
    cases hs : getSession pick x scope' with
    | none => rfl
    | some s =>
      obtain ⟨hmem, hscope⟩ := mem_of_getSession hs
      show Answer.session (some (s, listMessages y s.id limit offset)) = _
      rw [listMessages_of_eq (h.messages s hmem (hscope ▸ hq))]
      rfl
  | history pick scope' limit =>
    show Answer.history _ = Answer.history _
    rw [loadHistory_of_untouched h hq]
  | checkpoint scope' =>
    show Answer.checkpoint _ = Answer.checkpoint _
    rw [getLatestCheckpoint_of_untouched h hq]
  | sessions tenantId userId limit offset =>
    have hother : scope.ofPrincipal tenantId userId = false := Bool.eq_false_iff.mpr hq
    show Answer.sessions (listSessions y tenantId userId limit offset).1
      (listSessions y tenantId userId limit offset).2 = _
    rw [listSessions_of_untouched h hother]
    rfl

/-! ### The transactions -/

/-- Every row with the id is one of the scope. -/
def Names (x : Tables) (id : Nat) (scope : Scope) : Prop := ∀ s ∈ x.sessions, s.id = id → s.scope = scope

theorem createSession_spec {db : Database} {x y : Tables} {scope : Scope} {createdAt updatedAt : Int}
    {gap : Nat} {s : AgentSession} (h : createSession db x scope createdAt updatedAt gap = some (s, y)) :
    s.scope = scope ∧ s.id = db.nextId x.lastSession gap (x.sessions.map (·.id)) ∧
      (scope.userId ≠ none → ∀ row ∈ x.sessions, row.scope ≠ scope) ∧
      y = { x with sessions := x.sessions ++ [s], lastSession := max x.lastSession s.id } := by
  unfold createSession at h
  split at h
  · cases h
  · rename_i hunique
    cases h
    refine ⟨rfl, rfl, ?_, rfl⟩
    intro huser row hrow heq
    exact hunique ⟨huser, row, hrow, heq⟩

theorem touchSession_spec {x y : Tables} {id : Nat} {now : Int} (h : touchSession x id now = some y) :
    y = { x with sessions := x.sessions.map (touched id now) } := by
  unfold touchSession at h
  split at h
  · cases h
    rfl
  · cases h

theorem addMessage_spec {db : Database} {x y : Tables} {id : Nat} {message : Message} {now : Int}
    {gap : Nat} {m : AgentMessage} (h : addMessage db x id message now gap = some (m, y)) :
    m.sessionId = id ∧ m.message = message ∧
      m.id = db.nextId x.lastMessage gap (x.messages.map (·.id)) ∧
      y = { x with messages := x.messages ++ [m], lastMessage := max x.lastMessage m.id } := by
  unfold addMessage at h
  split at h
  · cases h
  · cases h
    exact ⟨rfl, rfl, rfl, rfl⟩

theorem untouched_createSession {db : Database} {x y : Tables} {scope : Scope} {createdAt updatedAt : Int}
    {gap : Nat} {s : AgentSession} (h : createSession db x scope createdAt updatedAt gap = some (s, y)) :
    Untouched scope x y := by
  obtain ⟨hscope, _, _, rfl⟩ := createSession_spec h
  refine ⟨?_, fun _ _ _ => rfl, fun _ _ => rfl⟩
  intro p hp
  show (x.sessions ++ [s]).filter _ = _
  rw [List.filter_append, List.filter_cons_of_neg (by simp [hscope, hp]), List.filter_nil, List.append_nil]

theorem untouched_touchSession {x y : Tables} {scope : Scope} {id : Nat} {now : Int}
    (hid : Names x id scope) (h : touchSession x id now = some y) : Untouched scope x y := by
  rw [touchSession_spec h]
  refine ⟨?_, fun _ _ _ => rfl, fun _ _ => rfl⟩
  intro p hp
  show (x.sessions.map (touched id now)).filter _ = _
  rw [List.filter_map]
  have hkeep : (x.sessions.filter ((fun s => p s.scope) ∘ touched id now)) =
      x.sessions.filter fun s => p s.scope := by
    refine List.filter_congr ?_
    intro s hs
    show p (touched id now s).scope = p s.scope
    rw [touched_scope]
  -- the rows that the filter keeps are not the touched ones
  have hsame : ∀ s ∈ x.sessions.filter (fun s => p s.scope), touched id now s = s := by
    intro s hs
    obtain ⟨hmem, hps⟩ := List.mem_filter.mp hs
    refine if_neg ?_
    intro heq
    rw [hid s hmem heq, hp] at hps
    cases hps
  rw [hkeep, List.map_congr_left hsame, List.map_id']

theorem untouched_removeSession {x : Tables} {scope : Scope} {id : Nat} (hid : Names x id scope)
    (now : Int) : Untouched scope x (removeSession x scope id now).2 := by
  refine ⟨?_, ?_, ?_⟩
  · intro p hp
    show (x.sessions.filter _).filter _ = _
    rw [List.filter_filter]
    refine List.filter_congr ?_
    intro s hs
    by_cases heq : s.id = id
    · rw [hid s hs heq, hp, Bool.false_and]
    · rw [bne_iff_ne.mpr heq, Bool.and_true]
  · intro s hs hne
    show (x.messages.filter _).filter _ = _
    unfold messagesOf
    rw [List.filter_filter]
    refine List.filter_congr ?_
    intro m hm
    by_cases heq : m.sessionId = s.id
    · have hother : s.id ≠ id := fun h => hne (hid s hs h)
      rw [heq, bne_iff_ne.mpr hother, Bool.and_true]
    · rw [decide_eq_false heq, Bool.false_and]
  · intro p hp
    show (x.checkpoints.map (archived scope now)).filter _ = _
    rw [List.filter_map]
    have hkeep : (x.checkpoints.filter ((fun c => p c.scope) ∘ archived scope now)) =
        x.checkpoints.filter fun c => p c.scope := by
      refine List.filter_congr ?_
      intro c hc
      show p (archived scope now c).scope = p c.scope
      unfold archived
      split <;> rfl
    have hsame : ∀ c ∈ x.checkpoints.filter (fun c => p c.scope), archived scope now c = c := by
      intro c hc
      have hpc := (List.mem_filter.mp hc).2
      refine if_neg ?_
      rintro ⟨heq, _⟩
      rw [heq, hp] at hpc
      cases hpc
    rw [hkeep, List.map_congr_left hsame, List.map_id']

theorem untouched_addMessage {db : Database} {x y : Tables} {scope : Scope} {id : Nat} {message : Message}
    {now : Int} {gap : Nat} {m : AgentMessage} (hid : Names x id scope)
    (h : addMessage db x id message now gap = some (m, y)) : Untouched scope x y := by
  obtain ⟨hsession, _, _, rfl⟩ := addMessage_spec h
  refine ⟨fun _ _ => rfl, ?_, fun _ _ => rfl⟩
  intro s hs hne
  have hother : m.sessionId ≠ s.id := by
    rw [hsession]
    exact fun heq => hne (hid s hs heq.symm)
  show (x.messages ++ [m]).filter _ = _
  rw [List.filter_append, List.filter_cons_of_neg (by simp [hother]), List.filter_nil, List.append_nil]
  rfl

theorem untouched_saveCheckpoint (db : Database) (x : Tables) (scope : Scope) (data : PyStr) (now : Int)
    (gap : Nat) : Untouched scope x (saveCheckpoint db x scope data now gap).2 := by
  refine ⟨fun _ _ => rfl, fun _ _ _ => rfl, ?_⟩
  intro p hp
  show (x.checkpoints ++ [_]).filter _ = _
  rw [List.filter_append, List.filter_cons_of_neg (by simp [hp]), List.filter_nil, List.append_nil]

end FinancialRag.Storage.AgentRepository
