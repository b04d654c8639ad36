/-
  `delete_knowledge_document` (`api/routers/knowledge.py`) and what it does to a document that is being
  processed at the same time.

  A request is a party of its own: `DeletePc` cuts the endpoint at its queries, its directory renames,
  the vector delete and the commit of the row delete, and `System` puts any number of requests next to
  the worker protocol of the document's task.  They share the document row, the vector store and the
  uploaded file.

  The endpoint decides from a SNAPSHOT: the document's status as it was fetched, then the status of its
  tasks.  Between FAILED and the worker's re-queue that snapshot looks finished although the task is
  about to run again.  `DeleteCare` is the missing test: a request passes its check only while nobody
  is executing the task.  Then `Quiet` holds from the check to the row delete, nothing writes a vector
  in between, and once the row is gone a handler stops at its own check (`harmless`).
-/
import FinancialRag.Storage.Entries
import FinancialRag.Tasks.Documents

set_option linter.unusedVariables false
set_option linter.unusedSectionVars false

namespace FinancialRag.Api

open Machine FinancialRag.Storage FinancialRag.Tasks

/-! ## The endpoint, cut at its external operations -/

/-- The path parameter and the authenticated user. -/
structure DeleteRequest where
  documentId : Int
  tenantId : Int
  userId : Int
  deriving DecidableEq, Repr

inductive DeleteResponse where
  | deleted (documentId : Int)
  | error (status : Nat) (detail : String)
  /-- an exception the endpoint re-raises -/
  | raised (error : String)
  deriving DecidableEq, Repr

inductive DeletePc where
  /-- no request -/
  | idle
  /-- the document is fetched and is the user's, before `_document_tasks` -/
  | fetched (req : DeleteRequest) (document : Document)
  /-- the check is passed, before the upload directory is staged -/
  | checked (req : DeleteRequest)
  /-- staged, before the vector delete -/
  | staged (req : DeleteRequest) (held : Option Nat)
  /-- the vector delete has raised, before the directory is restored -/
  | vectorsFailed (held : Option Nat)
  /-- the vectors are deleted, before the commit of the row delete -/
  | cleared (req : DeleteRequest) (held : Option Nat)
  /-- that commit has raised, before the directory is restored -/
  | commitFailed (held : Option Nat) (error : String)
  /-- the row is deleted, before the staged directory is removed -/
  | removing (req : DeleteRequest)
  | done (response : DeleteResponse)
  deriving DecidableEq, Repr

/-- How the next external operation of a request ends; `progress` counts the collections in which a
    vector delete that fails has already deleted. -/
inductive DeleteInput where
  | go
  | fails (error : String) (progress : Nat)
  deriving DecidableEq, Repr

/-- `_document_tasks`, on the task of this document. -/
def documentTasks (row : Task) (tenantId documentId : Int) : List Task :=
  [row].filter fun t => t.tenantId == tenantId && t.taskType == TaskType.processDocument.value &&
    t.payload.documentId == some documentId

/-- `document.status == "processing" or has_active_task`. -/
def stillProcessing (row : Task) (req : DeleteRequest) (document : Document) : Bool :=
  document.status == .processing ||
    (documentTasks row req.tenantId document.id).any fun t =>
      t.status == .pending || t.status == .running

section Endpoint

variable {F : Type}

/-- The first query and the permission test. -/
def fetchDocument (x : DocStores F) (req : DeleteRequest) : DeletePc :=
  match (getDocument x.document req.documentId).filter (·.tenantId == req.tenantId) with
  | none => .done (.error 404 "Document not found")
  | some d =>
    if d.uploadedByUserId ≠ some req.userId then
      .done (.error 403 "You do not have permission to delete this document.")
    else .fetched req d

/-- `_restore_upload_directories`. -/
def restoreDirectory (x : DocStores F) (held : Option Nat) : DocStores F :=
  match held, x.file with
  | some size, none => { x with file := some size }
  | _, _ => x

/-- A vector delete that raises after the first `n` collections. -/
def deletePartly (client : Client F) (n : Nat) (documentId : String) (tenantId : Int) : Client F :=
  ⟨(deleteDocument ⟨client.collections.take n⟩ documentId tenantId).collections ++
    client.collections.drop n⟩

/-- The next operation of a request. -/
def deleteStep (row : Task) (x : DocStores F) : DeletePc → DeleteInput → Option (DeletePc × DocStores F)
  | .fetched req d, .go =>
    if stillProcessing row req d then
      some (.done (.error 409 "Document is still processing and cannot be deleted."), x)
    else some (.checked req, x)
  | .checked req, .go => some (.staged req x.file, { x with file := none })
  | .checked _, .fails _ _ =>
    some (.done (.error 500 "Unable to prepare document storage for deletion."), x)
  | .staged req held, .go =>
    some (.cleared req held, { x with
      client := deleteDocument x.client (vectorDocumentId req.tenantId req.documentId) req.tenantId })
  | .staged req held, .fails _ n =>
    some (.vectorsFailed held, { x with
      client := deletePartly x.client n (vectorDocumentId req.tenantId req.documentId) req.tenantId })
  | .vectorsFailed held, .go =>
    some (.done (.error 503 "Unable to delete document vectors."), restoreDirectory x held)
  | .vectorsFailed _, .fails _ _ => some (.done (.error 503 "Unable to delete document vectors."), x)
  | .cleared req held, .go =>
    some (.removing req, { x with document := x.document.filter (·.id != req.documentId) })
  | .cleared _ held, .fails error _ => some (.commitFailed held error, x)
  | .commitFailed held error, .go => some (.done (.raised error), restoreDirectory x held)
  | .commitFailed _ error, .fails _ _ => some (.done (.raised error), x)
  | .removing req, .go => some (.done (.deleted req.documentId), x)
  | .removing _, .fails _ _ =>
    some (.done (.error 500 "Document was deleted but storage cleanup is pending."), x)
  | _, _ => none

end Endpoint

/-! ## A vector delete that stops half-way -/

section DeletePartly

variable {F : Type} {client : Client F} {n : Nat} {documentId : String} {tenantId : Int}

theorem deletePartly_all (client : Client F) (documentId : String) (tenantId : Int) :
    deletePartly client client.collections.length documentId tenantId =
      deleteDocument client documentId tenantId := by
  unfold deletePartly
  rw [List.take_length, List.drop_length, List.append_nil]

theorem names_deletePartly : (deletePartly client n documentId tenantId).names = client.names := by
  have htake := names_deleteDocument (⟨client.collections.take n⟩ : Client F) documentId tenantId
  unfold Client.names at htake ⊢
  unfold deletePartly
  rw [List.map_append, htake, ← List.map_append, List.take_append_drop]

theorem entries_deletePartly_of_disjoint {p : Record F → Bool}
    (hp : ∀ r, p r = true → r.isOf tenantId documentId = false) :
    (deletePartly client n documentId tenantId).entries p = client.entries p := by
  have htake : (deleteDocument (⟨client.collections.take n⟩ : Client F) documentId tenantId).entries p =
      (⟨client.collections.take n⟩ : Client F).entries p := entries_deleteDocument_of_disjoint hp
  unfold Client.entries at htake ⊢
  unfold deletePartly
  rw [List.flatMap_append, htake, ← List.flatMap_append, List.take_append_drop]

theorem allIn_deletePartly {name : String} {q : Record F → Prop} (h : client.AllIn name q) :
    (deletePartly client n documentId tenantId).AllIn name q := by
  have htake : (Client.mk (client.collections.take n)).AllIn name q :=
    fun c hc => h c (List.mem_of_mem_take hc)
  intro c hc hname r hr
  rcases List.mem_append.mp hc with hdeleted | hkept
  · exact allIn_deleteDocument htake c hdeleted hname r hr
  · exact h c (List.mem_of_mem_drop hkept) hname r hr

/-- Of the document itself, the entries in the collections that are still to come are left. -/
theorem entries_deletePartly :
    (deletePartly client n documentId tenantId).entries (Record.isOf tenantId documentId) =
      (⟨client.collections.drop n⟩ : Client F).entries (Record.isOf tenantId documentId) := by
  have htake := entries_deleteDocument (⟨client.collections.take n⟩ : Client F) documentId tenantId
  unfold Client.entries at htake ⊢
  unfold deletePartly
  rw [List.flatMap_append, htake, List.nil_append]

end DeletePartly

/-! ## Requests next to the worker protocol -/

structure System (ι κ F : Type) where
  task : State ι (DocPc F) (DocStores F)
  requests : κ → DeletePc

inductive SystemEvent (ι κ F : Type) where
  /-- a step of the worker protocol -/
  | task (e : Event ι (DocInput F))
  /-- a request arrives and fetches the document -/
  | request (k : κ) (req : DeleteRequest)
  /-- the next operation of a request -/
  | proceed (k : κ) (input : DeleteInput)

section System

variable {ι κ F : Type} [DecidableEq ι] [DecidableEq κ] [PyFloat F] {cfg : WorkerConfig}
  {name : ι → String} {T : PyText} {ecfg : EmbeddingConfig}

def System.init (row : Task) (stores : DocStores F) : System ι κ F :=
  ⟨State.init row stores, fun _ => .idle⟩

def systemStep (cfg : WorkerConfig) (name : ι → String) (T : PyText) (ecfg : EmbeddingConfig)
    (s : System ι κ F) : SystemEvent ι κ F → Option (System ι κ F)
  | .task e =>
    (step cfg name (processDocumentTask T ecfg) s.task e).map fun t => { s with task := t }
  | .request k req =>
    if s.requests k = .idle then
      some { s with requests := Function.update s.requests k (fetchDocument s.task.stores req) }
    else none
  | .proceed k input =>
    (deleteStep s.task.row s.task.stores (s.requests k) input).map fun m =>
      { task := { s.task with stores := m.2 }, requests := Function.update s.requests k m.1 }

/-! ## Inversion -/

/-- What one operation of a request can do: answer, pass its check, stage, delete vectors, delete the
    row, or undo. -/
theorem deleteStep_cases {row : Task} {x : DocStores F} {pc : DeletePc} {input : DeleteInput}
    {m : DeletePc × DocStores F} (h : deleteStep row x pc input = some m) :
    (∃ r held, (m = (.done r, x) ∨ m = (.done r, restoreDirectory x held))) ∨
    (∃ req d, pc = .fetched req d ∧ stillProcessing row req d = false ∧ m = (.checked req, x)) ∨
    (∃ req, pc = .checked req ∧ m = (.staged req x.file, { x with file := none })) ∨
    (∃ req held, pc = .staged req held ∧ m = (.cleared req held, { x with
      client := deleteDocument x.client (vectorDocumentId req.tenantId req.documentId) req.tenantId })) ∨
    (∃ req held n, pc = .staged req held ∧ m = (.vectorsFailed held, { x with
      client := deletePartly x.client n (vectorDocumentId req.tenantId req.documentId) req.tenantId })) ∨
    (∃ req held, pc = .cleared req held ∧ m = (.removing req, { x with
      document := x.document.filter (·.id != req.documentId) })) ∨
    (∃ held error, m = (.commitFailed held error, x)) := by
  unfold deleteStep at h
  split at h
  · split at h <;> rename_i hb <;> injection h with h <;> subst h
    · exact Or.inl ⟨_, none, Or.inl rfl⟩
    · exact Or.inr (Or.inl ⟨_, _, rfl, by simpa using hb, rfl⟩)
  · injection h with h; subst h
    exact Or.inr (Or.inr (Or.inl ⟨_, rfl, rfl⟩))
  · injection h with h; subst h
    exact Or.inl ⟨_, none, Or.inl rfl⟩
  · injection h with h; subst h
    exact Or.inr (Or.inr (Or.inr (Or.inl ⟨_, _, rfl, rfl⟩)))
  · injection h with h; subst h
    exact Or.inr (Or.inr (Or.inr (Or.inr (Or.inl ⟨_, _, _, rfl, rfl⟩))))
  · injection h with h; subst h
    exact Or.inl ⟨_, _, Or.inr rfl⟩
  · injection h with h; subst h
    exact Or.inl ⟨_, none, Or.inl rfl⟩
  · injection h with h; subst h
    exact Or.inr (Or.inr (Or.inr (Or.inr (Or.inr (Or.inl ⟨_, _, rfl, rfl⟩)))))
  · injection h with h; subst h
    exact Or.inr (Or.inr (Or.inr (Or.inr (Or.inr (Or.inr ⟨_, _, rfl⟩)))))
  · injection h with h; subst h
    exact Or.inl ⟨_, _, Or.inr rfl⟩
  · injection h with h; subst h
    exact Or.inl ⟨_, none, Or.inl rfl⟩
  · injection h with h; subst h
    exact Or.inl ⟨_, none, Or.inl rfl⟩
  · injection h with h; subst h
    exact Or.inl ⟨_, none, Or.inl rfl⟩
  · exact absurd h (by simp)

/-! ## What keeps vectors from being orphaned -/

/-- The request a control point is about. -/
def DeletePc.request : DeletePc → Option DeleteRequest
  | .fetched req _ | .checked req | .staged req _ | .cleared req _ | .removing req => some req
  | _ => none

/-- Between a passed check and the row delete. -/
def DeletePc.pastCheck : DeletePc → Bool
  | .checked _ | .staged _ _ | .cleared _ _ => true
  | _ => false

def DeletePc.isCleared : DeletePc → Bool
  | .cleared _ _ => true
  | _ => false

/-- Nobody is executing the task, and nothing will start it. -/
structure Quiet {L X : Type} (s : State ι L X) : Prop where
  rest : AtRest s
  notPending : s.row.status ≠ .pending
  notRunning : s.row.status ≠ .running

/-- A request passes its check only while nobody is executing the task; a recovery writes only a task
    at rest, and not between a request's check and its row delete. -/
def DeleteCare (s : System ι κ F) : SystemEvent ι κ F → Prop
  | .task (.recover r _) => s.task.stale r = true →
      AtRest s.task ∧ ∀ k, (s.requests k).pastCheck = false
  | .proceed k .go => ∀ req d, s.requests k = .fetched req d →
      stillProcessing s.task.row req d = false → AtRest s.task
  | _ => True

/-- The control points a handler can be at once its document is gone: none of them is followed by a
    vector write. -/
def harmless : DocPc F → Bool
  | .loading | .checking | .missingDocument | .failing _ _ | .failedDocument | .handled | .escaped _ =>
    true
  | _ => false

/-- Without its document a handler stays harmless and leaves the vector store alone. -/
theorem harmless_move {row : Task} {x : DocStores F} {l : DocPc F} {a : DocInput F}
    {m : HandlerMove (DocPc F) (DocStores F)} (hm : DocMove T ecfg row x l a m)
    (hdoc : x.document = none) (hid : row.payload.documentId.isSome = true)
    (hl : harmless l = true) : harmless m.next = true ∧ m.stores.client = x.client := by
  obtain ⟨id, hid⟩ := Option.isSome_iff_exists.mp hid
  cases hm with
  | load => exact ⟨by simp [hid, harmless], rfl⟩
  | check hok =>
    -- there is no row to commit 'processing' to
    rw [hdoc, hid] at hok
    exact absurd hok (by simp [setDocumentStatus, getDocument])
  | checkFails _ => exact ⟨rfl, rfl⟩
  | reject => exact ⟨rfl, rfl⟩
  | @fail error known now => exact ⟨by cases known <;> rfl, rfl⟩
  | escape => exact ⟨rfl, rfl⟩
  | failMark => exact ⟨rfl, rfl⟩
  | failMarkEscape => exact ⟨rfl, rfl⟩
  | raiseUnread => exact ⟨rfl, rfl⟩
  | raise hin => exact ⟨rfl, rfl⟩
  | _ => simp [harmless] at hl

/-- A status commit neither makes nor removes a document row, and keeps whose it is. -/
theorem mark_document {row : Task} {x : DocStores F} (u : DocumentUpdate) :
    ((x.mark row u).document = none ↔ x.document = none) ∧
      ∀ d, (x.mark row u).document = some d → ∃ d₀, x.document = some d₀ ∧ d.id = d₀.id ∧
        d.tenantId = d₀.tenantId := by
  simp only [DocStores.mark, setDocumentStatus]
  split
  · exact ⟨Iff.rfl, fun d hd => ⟨d, hd, rfl, rfl⟩⟩
  · split
    · exact ⟨Iff.rfl, fun d hd => ⟨d, hd, rfl, rfl⟩⟩
    · rename_i d₀ hget
      have hx : x.document = some d₀ := (Option.filter_eq_some_iff.mp hget).1
      split
      · exact ⟨Iff.rfl, fun d hd => ⟨d, hd, rfl, rfl⟩⟩
      · refine ⟨by simp [hx], fun d hd => ⟨d₀, hx, ?_⟩⟩
        obtain rfl : d₀.update u = d := Option.some.inj hd
        exact ⟨rfl, rfl⟩

/-- The handler neither makes nor removes a document row. -/
theorem move_document {row : Task} {x : DocStores F} {l : DocPc F} {a : DocInput F}
    {m : HandlerMove (DocPc F) (DocStores F)} (hm : DocMove T ecfg row x l a m) :
    (m.stores.document = none ↔ x.document = none) ∧
      ∀ d, m.stores.document = some d → ∃ d₀, x.document = some d₀ ∧ d.id = d₀.id ∧
        d.tenantId = d₀.tenantId := by
  cases hm with
  | check _ => exact mark_document _
  | noFileMark => exact mark_document _
  | mark => exact mark_document _
  | failMark => exact mark_document _
  | _ => exact ⟨Iff.rfl, fun d hd => ⟨d, hd, rfl, rfl⟩⟩

theorem holds_deletePartly_of_not {client : Client F} {n : Nat} {tenant tenant' : Int}
    {doc doc' : String} (h : client.holds tenant doc = false) :
    (deletePartly client n doc' tenant').holds tenant doc = false := by
  have hsplit : (Client.mk (client.collections.take n)).holds tenant doc = false ∧
      (Client.mk (client.collections.drop n)).holds tenant doc = false := by
    simp only [Client.holds, List.any_eq_false] at h ⊢
    exact ⟨fun c hc => h c (List.mem_of_mem_take hc), fun c hc => h c (List.mem_of_mem_drop hc)⟩
  have hfirst : (deleteDocument ⟨client.collections.take n⟩ doc' tenant').holds tenant doc = false :=
    holds_deleteDocument_of_not hsplit.1
  have hlast := hsplit.2
  simp only [Client.holds, deletePartly, List.any_append, Bool.or_eq_false_iff] at hfirst hlast ⊢
  exact ⟨hfirst, hlast⟩

/-! ## Quiet stays quiet -/

theorem Quiet.goto {s : State ι (DocPc F) (DocStores F)} {w : ι} {q : WorkerPc} (h : Quiet s)
    (hq : q.active = false) : Quiet (s.goto w q) := by
  refine ⟨⟨?_, h.rest.dead⟩, h.notPending, h.notRunning⟩
  intro v
  exact update_of (p := fun q : WorkerPc => q.active = false) (fun _ => hq) (h.rest.idle v)

/-- **A quiet task stays quiet**, as long as no recovery writes it, and its stores stay as they are. -/
theorem quiet_step {s t : State ι (DocPc F) (DocStores F)} {e : Event ι (DocInput F)} (h : Quiet s)
    (hrec : ∀ r now, e = .recover r now → s.stale r = false)
    (ht : step cfg name (processDocumentTask T ecfg) s e = some t) :
    Quiet t ∧ t.stores = s.stores := by
  -- no worker is active, and no process is alive
  have hno : ∀ {w : ι} {q : WorkerPc}, s.workers w = q → q.active = true → False := by
    intro w q hw hq
    have := h.rest.idle w
    rw [hw, hq] at this
    exact absurd this (by simp)
  have hdead : ∀ {n : Nat} {l : DocPc F}, s.procs n = .alive l → False := by
    intro n l hp
    have := h.rest.dead n
    rw [hp] at this
    exact absurd this (by simp [Proc.isAlive])
  cases step_transition ht with
  | deliver hw => exact ⟨h.goto rfl, rfl⟩
  | poll hw hrow => exact absurd hrow h.notPending
  | readPending hw hrow => exact absurd hrow h.notPending
  | readOther hw hrow => exact ⟨h.goto rfl, rfl⟩
  | claim hw hrow => exact absurd hrow h.notPending
  | claimLost hw hrow => exact ⟨h.goto rfl, rfl⟩
  | reread hw hrow => exact absurd hrow h.notRunning
  | rereadOther hw hrow => exact ⟨h.goto rfl, rfl⟩
  | lock hw => exact (hno hw rfl).elim
  | noHandler hw hh => exact (hno hw rfl).elim
  | notStarted hw => exact (hno hw rfl).elim
  | start hw => exact (hno hw rfl).elim
  | joined hw hp => exact (hno hw rfl).elim
  | joinedFailed hw hp hd => exact (hno hw rfl).elim
  | killed hw hi => exact (hno hw rfl).elim
  | writeFailed hw => exact (hno hw rfl).elim
  | retry hw hrow hr => exact (hno hw rfl).elim
  | done hw hr => exact (hno hw rfl).elim
  | countRetry hw => exact (hno hw rfl).elim
  | requeue hw => exact (hno hw rfl).elim
  | handle hp he hm => exact (hdead hp).elim
  | exit hp he => exact (hdead hp).elim
  | die hp => exact (hdead hp).elim
  | crash hw => exact ⟨h.goto rfl, rfl⟩
  | recoverRead hr hrow => exact ⟨⟨⟨h.rest.idle, h.rest.dead⟩, h.notPending, h.notRunning⟩, rfl⟩
  | @recoverWrite r now hr =>
    rw [hrec r now rfl] at hr
    exact absurd hr (by simp)

/-- A passed check of the task's own document shows that its task is finished. -/
theorem finished_of_check {row : Task} {req : DeleteRequest} {d : Document}
    (h : stillProcessing row req d = false) (hten : row.tenantId = req.tenantId)
    (hty : row.taskType = TaskType.processDocument.value) (hid : row.payload.documentId = some d.id) :
    row.status ≠ .pending ∧ row.status ≠ .running := by
  simp only [stillProcessing, Bool.or_eq_false_iff] at h
  have hsel : documentTasks row req.tenantId d.id = [row] := by
    simp [documentTasks, hten, hty, hid]
  rw [hsel] at h
  constructor
  · intro hs
    exact absurd h.2 (by simp [hs])
  · intro hs
    exact absurd h.2 (by simp [hs])

/-! ## The invariant -/

/-- The vectors of the document are gone. -/
def Bare (id tenant : Int) (x : DocStores F) : Prop :=
  x.client.holds tenant (vectorDocumentId tenant id) = false

/-- What a request at this control point says about the task and the stores. -/
structure RequestAt (id tenant : Int) (s : State ι (DocPc F) (DocStores F)) (pc : DeletePc) : Prop where
  aimed : ∀ req, pc.request = some req → req.documentId = id ∧ req.tenantId = tenant
  snapshot : ∀ req d, pc = .fetched req d → d.id = id
  quiet : pc.pastCheck = true → Quiet s
  clear : pc.isCleared = true → Bare id tenant s.stores

structure SystemInv (id tenant : Int) (s : System ι κ F) : Prop where
  excl : Excl s.task
  row : s.task.row.payload.documentId = some id ∧ s.task.row.tenantId = tenant ∧
    s.task.row.taskType = TaskType.processDocument.value
  doc : ∀ d, s.task.stores.document = some d → d.id = id ∧ d.tenantId = tenant
  request : ∀ k, RequestAt id tenant s.task (s.requests k)
  gone : s.task.stores.document = none → Bare id tenant s.task.stores ∧
    ∀ n l, s.task.procs n = .alive l → harmless l = true

/-- A finished or failed request says nothing any more. -/
theorem RequestAt.over {id tenant : Int} {s : State ι (DocPc F) (DocStores F)} {pc : DeletePc}
    (hreq : pc.request = none) (hpast : pc.pastCheck = false) (hclear : pc.isCleared = false) :
    RequestAt id tenant s pc := by
  refine ⟨?_, ?_, ?_, ?_⟩
  · intro req h
    rw [hreq] at h; exact absurd h (by simp)
  · intro req d h
    rw [h] at hreq; exact absurd hreq (by simp [DeletePc.request])
  · intro h
    rw [hpast] at h; exact absurd h (by simp)
  · intro h
    rw [hclear] at h; exact absurd h (by simp)

theorem DeletePc.pastCheck_of_isCleared {pc : DeletePc} (h : pc.isCleared = true) :
    pc.pastCheck = true := by
  cases pc with
  | cleared req held => rfl
  | _ => simp [DeletePc.isCleared] at h

theorem DeleteCare.recoversAtRest {s : System ι κ F} {e : Event ι (DocInput F)}
    (h : DeleteCare s (.task e)) : RecoversAtRest s.task e := by
  cases e with
  | recover r now => exact fun hr => (h hr).1
  | _ => trivial

/-- While some request is past its check, no recovery writes. -/
theorem DeleteCare.no_recovery {s : System ι κ F} {e : Event ι (DocInput F)} {k : κ}
    (h : DeleteCare s (.task e)) (hk : (s.requests k).pastCheck = true) :
    ∀ r now, e = .recover r now → s.task.stale r = false := by
  rintro r now rfl
  cases hr : s.task.stale r with
  | false => rfl
  | true =>
    have := (h hr).2 k
    rw [hk] at this
    exact absurd this (by simp)

/-- Once the document is gone, a task step writes no vector and leaves every handler harmless. -/
theorem SystemInv.gone_step {id tenant : Int} {s : System ι κ F} {t : State ι (DocPc F) (DocStores F)}
    {e : Event ι (DocInput F)} (h : SystemInv id tenant s) (hP : DeleteCare s (.task e))
    (ht : step cfg name (processDocumentTask T ecfg) s.task e = some t)
    (hdoc : t.stores.document = none) :
    Bare id tenant t.stores ∧ ∀ n l, t.procs n = .alive l → harmless l = true := by
  -- the row was gone before: no step of the protocol deletes it
  have hgone : s.task.stores.document = none := by
    rcases stores_step ht with hst | ⟨n, a, l, m, _, _, hm, _, hst⟩
    · rw [hst] at hdoc; exact hdoc
    · rw [hst] at hdoc; exact (move_document (docStep_move hm)).1.mp hdoc
  obtain ⟨hbare, hharm⟩ := h.gone hgone
  have hid : s.task.row.payload.documentId.isSome = true := by rw [h.row.1]; rfl
  constructor
  · rcases stores_step ht with hst | ⟨n, a, l, m, _, hp, hm, _, hst⟩
    · rw [hst]; exact hbare
    · rw [hst]
      unfold Bare
      rw [(harmless_move (docStep_move hm) hgone hid (hharm n l hp)).2]
      exact hbare
  · intro n l hp
    rcases live_step h.excl hP.recoversAtRest ht hp with ⟨hp', _⟩ |
      ⟨a, l₀, m, _, hp', _, hm, rfl, _⟩ | ⟨_, rfl, _⟩
    · exact hharm n l hp'
    · exact (harmless_move (docStep_move hm) hgone hid (hharm n l₀ hp')).1
    · rfl

/-- **A step of the worker protocol keeps the invariant.** -/
theorem systemInv_task {id tenant : Int} {s : System ι κ F} {t : State ι (DocPc F) (DocStores F)}
    {e : Event ι (DocInput F)} (h : SystemInv id tenant s) (hP : DeleteCare s (.task e))
    (ht : step cfg name (processDocumentTask T ecfg) s.task e = some t) :
    SystemInv id tenant { s with task := t } := by
  obtain ⟨_, hten, hty, hpay⟩ := step_identity ht
  refine ⟨excl_step h.excl hP.recoversAtRest ht, ?_, ?_, ?_, h.gone_step hP ht⟩
  · rw [hten, hty, hpay]; exact h.row
  · intro d hd
    rcases stores_step ht with hst | ⟨n, a, l, m, _, _, hm, _, hst⟩
    · exact h.doc d (by rw [← hst]; exact hd)
    · obtain ⟨d₀, hd₀, hid, hdten⟩ := (move_document (docStep_move hm)).2 d (by rw [← hst]; exact hd)
      obtain ⟨hid₀, hten₀⟩ := h.doc d₀ hd₀
      exact ⟨hid.trans hid₀, hdten.trans hten₀⟩
  · intro k
    have hk := h.request k
    refine ⟨hk.aimed, hk.snapshot, ?_, ?_⟩
    · intro hpast
      exact (quiet_step (hk.quiet hpast) (hP.no_recovery hpast) ht).1
    · intro hclear
      -- a cleared request is past its check, so the task is quiet and its stores stay as they are
      have hpast := DeletePc.pastCheck_of_isCleared hclear
      show Bare id tenant t.stores
      rw [(quiet_step (hk.quiet hpast) (hP.no_recovery hpast) ht).2]
      exact hk.clear hclear

/-- A fetched document is the task's, and the request is aimed at it. -/
theorem fetchDocument_spec {id tenant : Int} {s : State ι (DocPc F) (DocStores F)}
    {req : DeleteRequest}
    (hdoc : ∀ d, s.stores.document = some d → d.id = id ∧ d.tenantId = tenant) :
    RequestAt id tenant s (fetchDocument s.stores req) := by
  unfold fetchDocument
  split
  · exact .over rfl rfl rfl
  · rename_i d hd
    obtain ⟨hget, hten⟩ := Option.filter_eq_some_iff.mp hd
    obtain ⟨hx, hid⟩ := Option.filter_eq_some_iff.mp hget
    obtain ⟨hd₁, hd₂⟩ := hdoc d hx
    split
    · exact .over rfl rfl rfl
    · refine ⟨?_, ?_, (fun h => nomatch h), (fun h => nomatch h)⟩
      · intro req' h
        obtain rfl : req = req' := Option.some.inj h
        have hid' : d.id = req.documentId := by simpa using hid
        have hten' : d.tenantId = req.tenantId := by simpa using hten
        exact ⟨hid'.symm.trans hd₁, hten'.symm.trans hd₂⟩
      · intro req' d' h
        injection h with _ h
        exact h ▸ hd₁

/-- A request moves and the stores change with it: what has to be shown. -/
theorem SystemInv.proceed {id tenant : Int} {s : System ι κ F} (h : SystemInv id tenant s) {k : κ}
    {pc : DeletePc} {x : DocStores F}
    (hdoc : ∀ d, x.document = some d → s.task.stores.document = some d)
    (hbare : Bare id tenant s.task.stores → Bare id tenant x)
    (hpc : RequestAt id tenant { s.task with stores := x } pc)
    (hgone : x.document = none → s.task.stores.document = none ∨
      Bare id tenant x ∧ ∀ n, (s.task.procs n).isAlive = false) :
    SystemInv id tenant
      { task := { s.task with stores := x }, requests := Function.update s.requests k pc } := by
  refine ⟨h.excl, h.row, fun d hd => h.doc d (hdoc d hd), ?_, ?_⟩
  · refine (Function.forall_update_iff s.requests fun _ q => RequestAt id tenant _ q).mpr ⟨hpc, ?_⟩
    intro j _
    have hj := h.request j
    refine ⟨hj.aimed, hj.snapshot, ?_, fun hclear => hbare (hj.clear hclear)⟩
    intro hpast
    have hq := hj.quiet hpast
    exact ⟨⟨hq.rest.idle, hq.rest.dead⟩, hq.notPending, hq.notRunning⟩
  · intro hx
    rcases hgone hx with hs | ⟨hb, hdead⟩
    · obtain ⟨hb, hharm⟩ := h.gone hs
      exact ⟨hbare hb, hharm⟩
    · refine ⟨hb, ?_⟩
      intro n l hp
      have hd := hdead n
      have hp' : s.task.procs n = .alive l := hp
      rw [hp'] at hd
      exact absurd hd (by simp [Proc.isAlive])

/-- The control points that promise nothing go with any stores that keep the document and add no
    vector. -/
theorem SystemInv.proceed_over {id tenant : Int} {s : System ι κ F} (h : SystemInv id tenant s) {k : κ}
    {pc : DeletePc} {x : DocStores F} (hdoc : x.document = s.task.stores.document)
    (hbare : Bare id tenant s.task.stores → Bare id tenant x) (hreq : pc.request = none)
    (hpast : pc.pastCheck = false) (hclear : pc.isCleared = false) :
    SystemInv id tenant
      { task := { s.task with stores := x }, requests := Function.update s.requests k pc } :=
  h.proceed (fun d hd => hdoc ▸ hd) hbare (.over hreq hpast hclear) (fun hx => Or.inl (hdoc ▸ hx))

/-- **A step of a request keeps the invariant.** -/
theorem systemInv_proceed {id tenant : Int} {s : System ι κ F} (h : SystemInv id tenant s) {k : κ}
    {input : DeleteInput} {m : DeletePc × DocStores F} (hP : DeleteCare s (.proceed k input))
    (hm : deleteStep s.task.row s.task.stores (s.requests k) input = some m) :
    SystemInv id tenant
      { task := { s.task with stores := m.2 }, requests := Function.update s.requests k m.1 } := by
  have hk := h.request k
  rcases deleteStep_cases hm with ⟨r, held, rfl | rfl⟩ | ⟨req, d, hpc, hfree, rfl⟩ | ⟨req, hpc, rfl⟩ |
    ⟨req, held, hpc, rfl⟩ | ⟨req, held, n, hpc, rfl⟩ | ⟨req, held, hpc, rfl⟩ | ⟨held, error, rfl⟩
  · exact h.proceed_over rfl (fun hb => hb) rfl rfl rfl
  · -- restoring the directory touches the file only
    refine h.proceed_over ?_ ?_ rfl rfl rfl
    · unfold restoreDirectory; split <;> rfl
    · intro hb
      unfold restoreDirectory; split <;> exact hb
  · -- the check is passed: the task is finished, and with care nobody is executing it
    obtain ⟨hrid, hrten, hrty⟩ := h.row
    obtain ⟨hreqid, hreqten⟩ := hk.aimed req (by rw [hpc]; rfl)
    have hdid : d.id = id := hk.snapshot req d hpc
    have hrest : AtRest s.task := by
      cases input with
      | go => exact hP req d hpc hfree
      | fails e n =>
        rw [hpc] at hm
        exact absurd hm (by simp [deleteStep])
    obtain ⟨hnp, hnr⟩ := finished_of_check hfree (hrten.trans hreqten.symm) hrty
      (hrid.trans (by rw [hdid]))
    refine h.proceed (fun d' hd' => hd') (fun hb => hb) ?_ (fun hx => Or.inl hx)
    refine ⟨?_, (fun req' d' hc => nomatch hc), fun _ => ⟨hrest, hnp, hnr⟩,
      (fun hc => absurd hc Bool.false_ne_true)⟩
    intro req' hr
    obtain rfl : req = req' := Option.some.inj hr
    exact ⟨hreqid, hreqten⟩
  · have hq := hk.quiet (by rw [hpc]; rfl)
    refine h.proceed (fun d' hd' => hd') (fun hb => hb) ?_ (fun hx => Or.inl hx)
    refine ⟨?_, (fun req' d' hc => nomatch hc),
      fun _ => ⟨⟨hq.rest.idle, hq.rest.dead⟩, hq.notPending, hq.notRunning⟩,
      (fun hc => absurd hc Bool.false_ne_true)⟩
    intro req' hr
    obtain rfl : req = req' := Option.some.inj hr
    exact hk.aimed req (by rw [hpc]; rfl)
  · have hq := hk.quiet (by rw [hpc]; rfl)
    obtain ⟨hreqid, hreqten⟩ := hk.aimed req (by rw [hpc]; rfl)
    have hbare : Bare id tenant { s.task.stores with
        client := deleteDocument s.task.stores.client (vectorDocumentId req.tenantId req.documentId)
          req.tenantId } := by
      unfold Bare
      rw [hreqid, hreqten]
      exact holds_deleteDocument _ _ _
    refine h.proceed (fun d' hd' => hd') (fun _ => hbare) ?_ (fun hx => Or.inl hx)
    refine ⟨?_, (fun req' d' hc => nomatch hc),
      fun _ => ⟨⟨hq.rest.idle, hq.rest.dead⟩, hq.notPending, hq.notRunning⟩, fun _ => hbare⟩
    intro req' hr
    obtain rfl : req = req' := Option.some.inj hr
    exact ⟨hreqid, hreqten⟩
  · exact h.proceed_over rfl (fun hb => holds_deletePartly_of_not hb) rfl rfl rfl
  · -- the row goes: the vectors are gone already, and no handler is alive
    have hq := hk.quiet (by rw [hpc]; rfl)
    have hb := hk.clear (by rw [hpc]; rfl)
    refine h.proceed (fun d' hd' => (Option.filter_eq_some_iff.mp hd').1) (fun hb' => hb') ?_
      (fun _ => Or.inr ⟨hb, hq.rest.dead⟩)
    refine ⟨?_, (fun req' d' hc => nomatch hc), (fun hc => absurd hc Bool.false_ne_true),
      (fun hc => absurd hc Bool.false_ne_true)⟩
    intro req' hr
    obtain rfl : req = req' := Option.some.inj hr
    exact hk.aimed req (by rw [hpc]; rfl)
  · exact h.proceed_over rfl (fun hb => hb) rfl rfl rfl

/-- **One step of the whole system keeps the invariant.** -/
theorem systemInv_step {id tenant : Int} {s t : System ι κ F} {e : SystemEvent ι κ F}
    (h : SystemInv id tenant s) (hP : DeleteCare s e) (ht : systemStep cfg name T ecfg s e = some t) :
    SystemInv id tenant t := by
  cases e with
  | task e =>
    obtain ⟨u, hu, rfl⟩ := Option.map_eq_some_iff.mp ht
    exact systemInv_task h hP hu
  | request k req =>
    simp only [systemStep] at ht
    split at ht
    · injection ht with ht
      subst ht
      refine ⟨h.excl, h.row, h.doc, ?_, h.gone⟩
      exact (Function.forall_update_iff s.requests fun _ q => RequestAt id tenant s.task q).mpr
        ⟨fetchDocument_spec h.doc, fun j _ => h.request j⟩
    · exact absurd ht (by simp)
  | proceed k input =>
    obtain ⟨m, hm, rfl⟩ := Option.map_eq_some_iff.mp ht
    exact systemInv_proceed h hP hm

/-- **No orphan vectors.**  In every run in which delete requests pass their check only while nobody is
    executing the task, and recovery does not re-open it between such a check and the row delete, the
    vector store holds entries of the document only while its row exists. -/
theorem no_orphan_vectors {id tenant : Int} {row : Task} {stores : DocStores F} {d : Document}
    {es : List (SystemEvent ι κ F)} {s : System ι κ F}
    (hrow : row.payload.documentId = some id) (hten : row.tenantId = tenant)
    (hty : row.taskType = TaskType.processDocument.value)
    (hdoc : stores.document = some d) (hid : d.id = id) (hdten : d.tenantId = tenant)
    (hrun : Run (systemStep cfg name T ecfg) DeleteCare (System.init row stores) es s)
    (hholds : s.task.stores.client.holds tenant (vectorDocumentId tenant id) = true) :
    ∃ d, s.task.stores.document = some d ∧ d.id = id ∧ d.tenantId = tenant := by
  have hinv : SystemInv id tenant s := by
    refine hrun.invariant (I := SystemInv id tenant) (fun _ _ _ h hP ht => systemInv_step h hP ht) ?_
    refine ⟨excl_init row stores, ⟨hrow, hten, hty⟩, ?_, fun k => .over rfl rfl rfl,
      ?_⟩
    · intro d' hd'
      obtain rfl : d = d' := Option.some.inj (hdoc.symm.trans hd')
      exact ⟨hid, hdten⟩
    · intro hnone
      exact absurd (hdoc.symm.trans hnone) (by simp)
  cases hd : s.task.stores.document with
  | some d' => exact ⟨d', rfl, hinv.doc d' hd⟩
  | none =>
    have hbare := (hinv.gone hd).1
    unfold Bare at hbare
    rw [hbare] at hholds
    exact absurd hholds (by simp)

end System

/-! ## Schedules -/

abbrev sampleSystemStep :=
  systemStep (ι := Unit) (κ := Unit) .default (fun _ => "w") .ascii ⟨"m", ""⟩ (F := ℚ)

/-- The uploader's request to delete the sample document. -/
def sampleRequest : DeleteRequest := ⟨3, 7, 1⟩

/-- The document is processed to its end; a delete request in the middle of it is refused. -/
def refusedMeanwhile : List (SystemEvent Unit Unit ℚ) :=
  (processed.take 8).map .task ++ [.request () sampleRequest, .proceed () .go] ++
    (processed.drop 8).map .task

/-- A test that no step needing care passes. -/
def undisputed (s : System Unit Unit ℚ) : SystemEvent Unit Unit ℚ → Bool
  | .task e => !e.isRecover
  | .proceed k .go =>
    match s.requests k with
    | .fetched req d => stillProcessing s.task.row req d
    | _ => true
  | _ => true

theorem deleteCare_of_undisputed (s : System Unit Unit ℚ) (e : SystemEvent Unit Unit ℚ)
    (h : undisputed s e = true) : DeleteCare s e := by
  cases e with
  | task e =>
    cases e with
    | recover r now => exact absurd h (by simp [undisputed, Event.isRecover])
    | _ => trivial
  | request k req => trivial
  | proceed k input =>
    cases input with
    | go =>
      intro req d hk hfree
      simp only [undisputed, hk] at h
      rw [hfree] at h
      exact absurd h (by simp)
    | fails error n => trivial

theorem refusedMeanwhile_keeps_document :
    ∃ s d, exec sampleSystemStep (System.init sampleDocumentTask sampleStores) refusedMeanwhile = some s ∧
      s.requests () = .done (.error 409 "Document is still processing and cannot be deleted.") ∧
      s.task.stores.client.holds 7 (vectorDocumentId 7 3) = true ∧
      s.task.stores.document = some d ∧ d.id = 3 := by
  have hexec : ∃ s, execIf undisputed sampleSystemStep (System.init sampleDocumentTask sampleStores)
        refusedMeanwhile = some s ∧
      exec sampleSystemStep (System.init sampleDocumentTask sampleStores) refusedMeanwhile = some s ∧
      s.requests () = .done (.error 409 "Document is still processing and cannot be deleted.") ∧
      s.task.stores.client.holds 7 (vectorDocumentId 7 3) = true :=
    ⟨_, rfl, rfl, rfl, by decide +kernel⟩
  obtain ⟨s, hif, hs, hrefused, hholds⟩ := hexec
  have hrow : ∃ d, s.task.stores.document = some d ∧ d.id = 3 ∧ d.tenantId = 7 :=
    no_orphan_vectors rfl rfl rfl rfl rfl rfl (run_of_execIf deleteCare_of_undisputed hif) hholds
  obtain ⟨d, hd, hid, _⟩ := hrow
  exact ⟨s, d, hs, hrefused, hholds, hd, hid⟩

/-- A request passes its check between the handler's 'failed' and the worker's re-queue.  The second
    attempt has read the file when the request stages it, and writes its vectors after the request has
    deleted vectors and row. -/
def deletedBetweenAttempts : List (SystemEvent Unit Unit ℚ) :=
  [.task (.poll () 1), .task (.work () (.go 2)), .task (.work () (.go 3)), .task (.work () (.go 4)),
    .task (.handle 0 (.go 5)), .task (.handle 0 (.go 6)), .task (.handle 0 (.go 7)),
    .task (.handle 0 (.raises "boom")), .task (.handle 0 (.go 8)), .task (.handle 0 (.go 9)),
    .task (.handle 0 (.go 10)), .task (.work () (.go 11)),
    .request () sampleRequest, .proceed () .go,
    .task (.work () (.go 12)), .task (.work () (.go 13)), .task (.work () (.go 14)),
    .task (.poll () 20), .task (.work () (.go 21)), .task (.work () (.go 22)), .task (.work () (.go 23)),
    .task (.handle 1 (.go 24)), .task (.handle 1 (.go 25)), .task (.handle 1 (.go 26)),
    .task (.handle 1 (.go 27)), .task (.handle 1 (.go 28)), .task (.handle 1 (.loads [sampleChunk])),
    .proceed () .go, .proceed () .go, .proceed () .go, .proceed () .go,
    .task (.handle 1 (.go 29)), .task (.handle 1 (.embeds [[1, 0]])), .task (.handle 1 (.go 30)),
    .task (.handle 1 (.go 31)), .task (.handle 1 (.go 32)), .task (.handle 1 (.go 33)),
    .task (.handle 1 (.go 34)), .task (.handle 1 (.go 35)), .task (.handle 1 (.go 36)),
    .task (.handle 1 (.go 37)), .task (.handle 1 (.go 38)), .task (.handle 1 (.go 39)),
    .task (.handle 1 (.go 40)), .task (.work () (.go 41)), .task (.work () (.go 42))]

/-- Nothing is in progress any more, the document row is gone, and its vectors are in the store. -/
theorem vectors_orphaned :
    ∃ s, exec sampleSystemStep (System.init sampleDocumentTask sampleStores) deletedBetweenAttempts =
        some s ∧
      s.task.workers () = .idle ∧ (∀ n, (s.task.procs n).isAlive = false) ∧
      s.requests () = .done (.deleted 3) ∧
      s.task.stores.document = none ∧
      s.task.stores.client.holds 7 (vectorDocumentId 7 3) = true := by
  have hheld : (exec sampleSystemStep (System.init sampleDocumentTask sampleStores)
      deletedBetweenAttempts).map
        (fun s => s.task.stores.client.holds 7 (vectorDocumentId 7 3)) = some true := by decide +kernel
  have hexec : ∃ s, exec sampleSystemStep (System.init sampleDocumentTask sampleStores)
        deletedBetweenAttempts = some s ∧
      s.task.workers () = .idle ∧ (∀ n, (s.task.procs n).isAlive = false) ∧
      s.requests () = .done (.deleted 3) ∧ s.task.stores.document = none := by
    refine ⟨_, rfl, rfl, ?_, rfl, rfl⟩
    intro n
    match n with
    | 0 => rfl
    | 1 => rfl
    | n + 2 => rfl
  obtain ⟨s, hs, hidle, hdead, hdone, hgone⟩ := hexec
  rw [hs] at hheld
  exact ⟨s, hs, hidle, hdead, hdone, hgone, Option.some.inj hheld⟩

end FinancialRag.Api
