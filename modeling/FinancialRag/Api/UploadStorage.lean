/-
  What an upload leaves behind (`api/routers/upload.py`): its row, its task, its directory.

  `storageStep` is the endpoint of `Api.Upload` with the file system next to the database.  Between the flush and the
  task the endpoint makes a directory and writes the file; `write` is the file with any prefix of its bytes.  A failure
  from then on takes the row back and NOT the directory: the `except OSError` block rolls the database back, and what
  is no `OSError` does so when the session is closed.  A failure after the commit takes nothing back.

  So the endpoint is all-or-nothing in exactly the runs in which every failure comes before the directory
  (`upload_all_or_nothing_iff`).  Rows and tasks keep together in ANY run, with the workers, the agent's endpoint and
  the deletion of documents at work (`Elsewhere`): they are committed together, and no task is deleted.
-/
import FinancialRag.Api.Upload
import FinancialRag.Lib.Dict
import FinancialRag.Tasks.Record

set_option linter.unusedVariables false

namespace FinancialRag.Api.Upload

open Machine FinancialRag.Tasks

/-! ## The upload directories -/

structure UploadDirectory where
  tenantId : Int
  documentId : Int
  hex : String
  deriving DecidableEq, Repr

/-- `UPLOAD_DIR / str(tenant_id) / f"{document.id}-{uuid.uuid4().hex}"` -/
def UploadDirectory.path (uploadDir : String) (d : UploadDirectory) : String :=
  s!"{uploadDir}/{d.tenantId}/{d.documentId}-{d.hex}"

/-- The files of every upload directory. -/
abbrev Uploads := Dict UploadDirectory (List (String × List UInt8))

/-- The tree without the directories of a document. -/
def Uploads.without (uploads : Uploads) (document : Document) : Uploads where
  entries := uploads.entries.filter fun e => !(e.1.tenantId == document.tenantId && e.1.documentId == document.id)
  keysNodup := uploads.keysNodup.sublist (List.filter_sublist.map Prod.fst)

/-! ## The endpoint, with the file system -/

/-- The variables of a request. -/
structure Locals where
  content : List UInt8
  document : Option Document
  uploadDirectory : Option UploadDirectory

structure Storage (κ : Type) where
  base : State κ
  uploads : Uploads
  locals : κ → Locals

/-- What the rest of the system does to rows and upload directories. -/
inductive Elsewhere where
  /-- a worker, or the recovery, writes the row of a task -/
  | task (publicId : String) (op : RowOp)
  /-- `_set_document_status` -/
  | mark (documentId : Int) (u : DocumentUpdate)
  /-- the agent's endpoint -/
  | enqueue (publicId question threadId : String) (tenantId userId now : Int)
  /-- `delete_knowledge_document` -/
  | delete (documentId : Int)

def elsewhere (db : Database) (uploads : Uploads) : Elsewhere → Option (Database × Uploads)
  | .task publicId op =>
    some ({ db with
      tasks := db.tasks.map fun t => if t.publicId = publicId then (rowStep t op).getD t else t }, uploads)
  | .mark documentId u =>
    some ({ db with documents := db.documents.map fun d => if d.id = documentId then d.update u else d }, uploads)
  | .enqueue publicId question threadId tenantId userId now =>
    some ({ db with
      tasks := db.tasks ++ [newTask publicId .agentTask { question := some question, threadId := some threadId }
        tenantId userId now] }, uploads)
  | .delete documentId =>
    (db.documents.find? fun d => d.id == documentId).map fun document =>
      ({ db with documents := db.documents.filter fun d => d.id != documentId }, uploads.without document)

inductive StorageEvent (κ : Type) where
  | receive (k : κ) (req : UploadRequest) (content : List UInt8)
  /-- `mkdir` succeeds -/
  | mkdir (k : κ) (hex : String)
  /-- `write_bytes` has come so far -/
  | write (k : κ) (count : Nat)
  /-- any other operation, also one that fails -/
  | proceed (k : κ) (input : UploadInput)
  | elsewhere (e : Elsewhere)

variable {κ : Type} [DecidableEq κ]

/-- The file is stored when all its bytes are written. -/
def Storage.permits (uploadDir : String) (s : Storage κ) (k : κ) : UploadInput → Bool
  | .stores filePath =>
    match s.base.requests k, (s.locals k).uploadDirectory with
    | .flushed req _ _, some directory =>
      filePath == s!"{directory.path uploadDir}/{req.filename}" &&
        s.uploads.get directory == some [(req.filename, (s.locals k).content)]
    | _, _ => false
  | _ => true

/-- The variables after a step: the flush gives the row its id. -/
def Locals.after (v : Locals) : UploadPc → Locals
  | .flushed _ _ document => { v with document := some document }
  | _ => v

def storageStep (uploadDir : String) (p : PlanTables) (T : PyText) (s : Storage κ) :
    StorageEvent κ → Option (Storage κ)
  | .receive k req content =>
    (uploadStep p T s.base (.receive k req)).map fun base =>
      { s with base := base, locals := Function.update s.locals k ⟨content, none, none⟩ }
  | .mkdir k hex =>
    match s.base.requests k with
    | .flushed req _ document =>
      let directory : UploadDirectory := ⟨req.tenantId, document.id, hex⟩
      -- `exist_ok=False`
      if (s.locals k).uploadDirectory.isSome || (s.uploads.get directory).isSome then none
      else
        some { s with
          uploads := s.uploads.set directory []
          locals := Function.update s.locals k { s.locals k with uploadDirectory := some directory } }
    | _ => none
  | .write k count =>
    match s.base.requests k, (s.locals k).uploadDirectory with
    | .flushed req _ _, some directory =>
      some { s with uploads := s.uploads.set directory [(req.filename, (s.locals k).content.take count)] }
    | _, _ => none
  | .proceed k input =>
    if s.permits uploadDir k input then
      (uploadStep p T s.base (.proceed k input)).map fun base =>
        { s with base := base, locals := Function.update s.locals k ((s.locals k).after (base.requests k)) }
    else none
  | .elsewhere e =>
    (elsewhere s.base.db s.uploads e).map fun m => { s with base := { s.base with db := m.1 }, uploads := m.2 }

def Storage.init (db : Database) (uploads : Uploads) : Storage κ :=
  ⟨State.init db, uploads, fun _ => ⟨[], none, none⟩⟩

/-! ## What is promised -/

/-- The endpoint has ended with an error. -/
def UploadPc.failed : UploadPc → Bool
  | .done (.error _ _) => true
  | .done (.raised _) => true
  | _ => false

/-- Nothing of a request with these variables remains. -/
structure NothingLeft (db : Database) (uploads : Uploads) (v : Locals) : Prop where
  document : ∀ d, v.document = some d → ∀ row ∈ db.documents ++ db.pending, row.id ≠ d.id
  task : ∀ d, v.document = some d → ∀ t ∈ db.tasks, t.payload.documentId ≠ some d.id
  directory : ∀ directory, v.uploadDirectory = some directory → uploads.get directory = none

def AllOrNothing (s : Storage κ) : Prop :=
  ∀ k, (s.base.requests k).failed = true → NothingLeft s.base.db s.uploads (s.locals k)

/-- The task that processes the document. -/
structure IsTaskOf (d : Document) (t : Task) : Prop where
  taskType : t.taskType = TaskType.processDocument.value
  tenantId : t.tenantId = d.tenantId
  documentId : t.payload.documentId = some d.id
  contentSha256 : t.payload.contentSha256 = d.contentSha256

def EveryRowHasTask (db : Database) : Prop := ∀ d ∈ db.documents, ∃ t ∈ db.tasks, IsTaskOf d t

def UploadInput.fails : UploadInput → Bool
  | .cannotPersist => true
  | .raises _ => true
  | _ => false

/-- An operation that fails comes before the request has made its directory. -/
def BeforeDirectory (s : Storage κ) (e : StorageEvent κ) : Prop :=
  ∀ k input, e = .proceed k input → input.fails = true → (s.locals k).uploadDirectory = none

/-! ## What an operation does to the rows -/

/-- Before the flush. -/
def UploadPc.early : UploadPc → Bool
  | .idle | .received _ | .unseen _ | .allowed _ _ | .collided _ => true
  | _ => false

/-- Rows and tasks are left alone. -/
structure SameRows (db db' : Database) : Prop where
  documents : db'.documents = db.documents
  pending : db'.pending = db.pending
  tasks : db'.tasks = db.tasks
  nextId : db.nextId ≤ db'.nextId

theorem SameRows.refl (db : Database) : SameRows db db := ⟨rfl, rfl, rfl, le_refl _⟩

/-- The file path, content hash and document id as the endpoint hands them on. -/
def uploadTask (publicId filePath : String) (now : Int) (req : UploadRequest) (document : Document) : Task :=
  newTask publicId .processDocument
    { filePath := some filePath, documentId := some document.id, contentSha256 := some req.contentSha256 }
    req.tenantId req.userId now

/-- **The ways an operation of a request can go.** -/
inductive RowMove (T : PyText) (db : Database) : UploadPc → UploadInput → UploadPc → Database → Prop
  | looks {pc input pc' db'} (hpc : pc.early = true) (hpc' : pc'.early = true ∨ ∃ r, pc' = .done r)
      (hrows : SameRows db db') : RowMove T db pc input pc' db'
  | flushes {req quota} :
      RowMove T db (.allowed req quota) .go (.flushed req quota (newDocument T req db.nextId))
        { db with pending := newDocument T req db.nextId :: db.pending, nextId := db.nextId + 1 }
  | stores {req quota document filePath} :
      RowMove T db (.flushed req quota document) (.stores filePath) (.stored req quota document filePath) db
  | commits {req quota document filePath publicId now} :
      RowMove T db (.stored req quota document filePath) (.creates publicId now) (.created req document publicId)
        (db.commit document (uploadTask publicId filePath now req document))
  | rollsBack {pc document input r} (hpc : (∃ req quota, pc = .flushed req quota document) ∨
        ∃ req quota filePath, pc = .stored req quota document filePath) (hfails : input.fails = true)
      (hfailed : (UploadPc.done r).failed = true) : RowMove T db pc input (.done r) (db.rollback document)
  | responds {req document taskId input r db'} (hfails : input.fails = false)
      (hfailed : (UploadPc.done r).failed = false) (hrows : SameRows db db') :
      RowMove T db (.created req document taskId) input (.done r) db'
  | loses {req document taskId input r} (hfails : input.fails = true) (hfailed : (UploadPc.done r).failed = true) :
      RowMove T db (.created req document taskId) input (.done r) db

theorem requestStep_rowMove {p : PlanTables} {T : PyText} {db db' : Database} {pc pc' : UploadPc}
    {input : UploadInput} (h : requestStep p T db pc input = some (pc', db')) : RowMove T db pc input pc' db' := by
  unfold requestStep at h
  split at h
  case h_1 req =>
    obtain ⟨rfl, rfl⟩ := Prod.mk.inj (Option.some.inj h)
    refine .looks rfl ?_ (.refl db)
    split
    · exact Or.inr ⟨_, rfl⟩
    · exact Or.inl rfl
  case h_2 req =>
    obtain ⟨rfl, rfl⟩ := Prod.mk.inj (Option.some.inj h)
    refine .looks rfl ?_ (.refl db)
    split
    · exact Or.inl rfl
    · exact Or.inr ⟨_, rfl⟩
  case h_3 req quota =>
    split at h
    · cases h
    · split at h
      · obtain ⟨rfl, rfl⟩ := Prod.mk.inj (Option.some.inj h)
        exact .looks rfl (Or.inl rfl) ⟨rfl, rfl, rfl, by simp⟩
      · obtain ⟨rfl, rfl⟩ := Prod.mk.inj (Option.some.inj h)
        exact .flushes
  case h_4 req =>
    obtain ⟨rfl, rfl⟩ := Prod.mk.inj (Option.some.inj h)
    exact .looks rfl (Or.inr ⟨_, rfl⟩) (.refl db)
  case h_5 req quota document filePath =>
    obtain ⟨rfl, rfl⟩ := Prod.mk.inj (Option.some.inj h)
    exact .stores
  case h_6 req quota document filePath publicId now =>
    obtain ⟨rfl, rfl⟩ := Prod.mk.inj (Option.some.inj h)
    exact .commits
  case h_7 | h_8 =>
    obtain ⟨rfl, rfl⟩ := Prod.mk.inj (Option.some.inj h)
    exact .responds rfl rfl ⟨rfl, rfl, rfl, le_refl _⟩
  case h_9 req quota document | h_15 req quota document error =>
    obtain ⟨rfl, rfl⟩ := Prod.mk.inj (Option.some.inj h)
    exact .rollsBack (Or.inl ⟨_, _, rfl⟩) rfl rfl
  case h_10 req quota document filePath | h_16 req quota document filePath error =>
    obtain ⟨rfl, rfl⟩ := Prod.mk.inj (Option.some.inj h)
    exact .rollsBack (Or.inr ⟨_, _, _, rfl⟩) rfl rfl
  case h_11 | h_12 | h_13 | h_14 =>
    obtain ⟨rfl, rfl⟩ := Prod.mk.inj (Option.some.inj h)
    exact .looks rfl (Or.inr ⟨_, rfl⟩) (.refl db)
  case h_17 =>
    obtain ⟨rfl, rfl⟩ := Prod.mk.inj (Option.some.inj h)
    exact .loses rfl rfl
  case h_18 => cases h

/-! ## Where a request stands -/

/-- A task for the document of this id. -/
def HasTask (db : Database) (documentId : Int) : Prop := ∃ t ∈ db.tasks, t.payload.documentId = some documentId

/-- What the request in this place has made so far, if every failure has come before its directory. -/
inductive InPlace (db : Database) (uploads : Uploads) : UploadPc → Locals → Prop
  | early {pc v} (hpc : pc.early = true) (hdocument : v.document = none) (hdirectory : v.uploadDirectory = none) :
      InPlace db uploads pc v
  | flushed {req quota document v} (hdocument : v.document = some document) (hpending : document ∈ db.pending)
      (htask : ¬ HasTask db document.id)
      (hdirectory : ∀ directory, v.uploadDirectory = some directory →
        directory.documentId = document.id ∧ (uploads.get directory).isSome = true) :
      InPlace db uploads (.flushed req quota document) v
  | stored {req quota document filePath v} (hdocument : v.document = some document) (hpending : document ∈ db.pending)
      (htask : ¬ HasTask db document.id) (hmade : v.uploadDirectory.isSome = true)
      (hdirectory : ∀ directory, v.uploadDirectory = some directory →
        directory.documentId = document.id ∧ (uploads.get directory).isSome = true) :
      InPlace db uploads (.stored req quota document filePath) v
  | created {req document taskId v} (hdocument : v.document = some document) (htask : HasTask db document.id)
      (hmade : v.uploadDirectory.isSome = true) : InPlace db uploads (.created req document taskId) v
  | done {r v} (hleft : (UploadPc.done r).failed = true → NothingLeft db uploads v ∧ v.uploadDirectory = none) :
      InPlace db uploads (.done r) v

/-- What others do spares the document of this id, and what was made for it. -/
structure Spares (db : Database) (uploads : Uploads) (db' : Database) (uploads' : Uploads) (id : Int) : Prop where
  pending : ∀ d ∈ db.pending, d.id = id → d ∈ db'.pending
  rows : ∀ row ∈ db'.documents ++ db'.pending, row.id = id → ∃ row' ∈ db.documents ++ db.pending, row'.id = id
  tasks : HasTask db' id ↔ HasTask db id
  uploads : (∃ d ∈ db.pending, d.id = id) → ∀ directory : UploadDirectory, directory.documentId = id →
    (uploads.get directory).isSome = true → (uploads'.get directory).isSome = true

section Storage

variable {db db' : Database} {uploads uploads' : Uploads} {v : Locals} {pc : UploadPc}

theorem hasTask_iff :
    (∀ d, v.document = some d → ∀ t ∈ db.tasks, t.payload.documentId ≠ some d.id) ↔
      ∀ d, v.document = some d → ¬ HasTask db d.id := by
  unfold HasTask
  push Not
  exact Iff.rfl

theorem NothingLeft.of_none (hdocument : v.document = none) (hdirectory : v.uploadDirectory = none) :
    NothingLeft db uploads v where
  document := fun d hd => by rw [hdocument] at hd; cases hd
  task := fun d hd => by rw [hdocument] at hd; cases hd
  directory := fun d hd => by rw [hdirectory] at hd; cases hd

theorem InPlace.spares (h : InPlace db uploads pc v)
    (hspares : ∀ d, v.document = some d → Spares db uploads db' uploads' d.id) : InPlace db' uploads' pc v := by
  have hkept : ∀ document, v.document = some document → document ∈ db.pending →
      (∀ directory, v.uploadDirectory = some directory →
        directory.documentId = document.id ∧ (uploads.get directory).isSome = true) →
      ∀ directory, v.uploadDirectory = some directory →
        directory.documentId = document.id ∧ (uploads'.get directory).isSome = true := by
    intro document hdocument hpending hdirectory directory hd
    obtain ⟨hid, hsome⟩ := hdirectory directory hd
    exact ⟨hid, (hspares document hdocument).uploads ⟨document, hpending, rfl⟩ directory hid hsome⟩
  cases h with
  | early hpc hdocument hdirectory => exact .early hpc hdocument hdirectory
  | flushed hdocument hpending htask hdirectory =>
    have hdoc := hspares _ hdocument
    exact .flushed hdocument (hdoc.pending _ hpending rfl) (mt hdoc.tasks.mp htask)
      (hkept _ hdocument hpending hdirectory)
  | stored hdocument hpending htask hmade hdirectory =>
    have hdoc := hspares _ hdocument
    exact .stored hdocument (hdoc.pending _ hpending rfl) (mt hdoc.tasks.mp htask) hmade
      (hkept _ hdocument hpending hdirectory)
  | created hdocument htask hmade => exact .created hdocument ((hspares _ hdocument).tasks.mpr htask) hmade
  | done hleft =>
    refine .done fun hfailed => ?_
    obtain ⟨hnothing, hnone⟩ := hleft hfailed
    refine ⟨⟨?_, ?_, ?_⟩, hnone⟩
    · intro d hd row hrow hid
      obtain ⟨row', hrow', hid'⟩ := (hspares d hd).rows row hrow hid
      exact hnothing.document d hd row' hrow' hid'
    · intro d hd t ht hid
      obtain ⟨t', ht', hid'⟩ := (hspares d hd).tasks.mp ⟨t, ht, hid⟩
      exact hnothing.task d hd t' ht' hid'
    · intro directory hd
      rw [hnone] at hd
      cases hd

/-! ### What each operation spares -/

theorem SameRows.spares (h : SameRows db db') (id : Int) : Spares db uploads db' uploads id where
  pending := fun d hd _ => h.pending ▸ hd
  rows := fun row hrow hid => ⟨row, by rwa [h.documents, h.pending] at hrow, hid⟩
  tasks := by unfold HasTask; rw [h.tasks]
  uploads := fun _ directory _ hsome => hsome

theorem spares_flush {document : Document} {nextId id : Int} (hne : document.id ≠ id) :
    Spares db uploads { db with pending := document :: db.pending, nextId := nextId } uploads id where
  pending := fun d hd _ => List.mem_cons_of_mem _ hd
  rows := by
    intro row hrow hid
    obtain hrow | hrow := List.mem_append.mp hrow
    · exact ⟨row, List.mem_append_left _ hrow, hid⟩
    · obtain rfl | hrow := List.mem_cons.mp hrow
      · exact absurd hid hne
      · exact ⟨row, List.mem_append_right _ hrow, hid⟩
  tasks := Iff.rfl
  uploads := fun _ directory _ hsome => hsome

theorem spares_rollback {document : Document} {id : Int} (hne : document.id ≠ id) :
    Spares db uploads (db.rollback document) uploads id where
  pending := by
    intro d hd hid
    have hother : d ≠ document := fun heq => hne (heq ▸ hid)
    exact (List.mem_erase_of_ne hother).mpr hd
  rows := by
    intro row hrow hid
    obtain hrow | hrow := List.mem_append.mp hrow
    · exact ⟨row, List.mem_append_left _ hrow, hid⟩
    · exact ⟨row, List.mem_append_right _ (List.mem_of_mem_erase hrow), hid⟩
  tasks := Iff.rfl
  uploads := fun _ directory _ hsome => hsome

theorem spares_commit {document : Document} {task : Task} {id : Int} (hne : document.id ≠ id)
    (htask : task.payload.documentId = some document.id) :
    Spares db uploads (db.commit document task) uploads id where
  pending := (spares_rollback hne : Spares db uploads _ uploads id).pending
  rows := by
    intro row hrow hid
    obtain hrow | hrow := List.mem_append.mp hrow
    · obtain hrow | hrow := List.mem_append.mp hrow
      · exact ⟨row, List.mem_append_left _ hrow, hid⟩
      · obtain rfl := List.mem_singleton.mp hrow
        exact absurd hid hne
    · exact ⟨row, List.mem_append_right _ (List.mem_of_mem_erase hrow), hid⟩
  tasks := by
    constructor
    · rintro ⟨t, ht, hid⟩
      obtain ht | ht := List.mem_append.mp ht
      · exact ⟨t, ht, hid⟩
      · obtain rfl := List.mem_singleton.mp ht
        exact absurd (Option.some.inj (htask.symm.trans hid)) hne
    · rintro ⟨t, ht, hid⟩
      exact ⟨t, List.mem_append_left _ ht, hid⟩
  uploads := fun _ directory _ hsome => hsome

theorem spares_set (directory : UploadDirectory) (files : List (String × List UInt8)) (id : Int) :
    Spares db uploads db (uploads.set directory files) id where
  pending := fun d hd _ => hd
  rows := fun row hrow hid => ⟨row, hrow, hid⟩
  tasks := Iff.rfl
  uploads := by
    intro _ other _ hsome
    rw [Dict.get_set]
    split
    · rfl
    · exact hsome

/-! ## Primary keys -/

/-- Ids of rows are primary keys, and the sequence is ahead of every id that rows and tasks have. -/
structure Keyed (db : Database) : Prop where
  distinct : ((db.documents ++ db.pending).map Document.id).Nodup
  rows : ∀ row ∈ db.documents ++ db.pending, row.id < db.nextId
  tasks : ∀ id, HasTask db id → id < db.nextId

theorem Keyed.eq_of_id (h : Keyed db) {row row' : Document} (hrow : row ∈ db.documents ++ db.pending)
    (hrow' : row' ∈ db.documents ++ db.pending) (hid : row.id = row'.id) : row = row' :=
  List.inj_on_of_nodup_map h.distinct hrow hrow' hid

/-- A row that is not committed is no committed row, and is pending once. -/
theorem Keyed.notMem_rollback (h : Keyed db) {document row : Document} (hpending : document ∈ db.pending)
    (hrow : row ∈ (db.rollback document).documents ++ (db.rollback document).pending) : row.id ≠ document.id := by
  intro hid
  have hnodup : (db.documents ++ db.pending).Nodup := h.distinct.of_map
  obtain ⟨-, hpendingNodup, hdisjoint⟩ := List.nodup_append.mp hnodup
  have hmem : document ∈ db.documents ++ db.pending := List.mem_append_right _ hpending
  obtain hrow | hrow := List.mem_append.mp hrow
  · obtain rfl := h.eq_of_id (List.mem_append_left _ hrow) hmem hid
    exact hdisjoint row hrow row hpending rfl
  · obtain rfl := h.eq_of_id (List.mem_append_right _ (List.mem_of_mem_erase hrow)) hmem hid
    exact hpendingNodup.not_mem_erase hrow

theorem Keyed.sameRows (h : Keyed db) (hrows : SameRows db db') : Keyed db' where
  distinct := by rw [hrows.documents, hrows.pending]; exact h.distinct
  rows := by
    intro row hrow
    rw [hrows.documents, hrows.pending] at hrow
    exact (h.rows row hrow).trans_le hrows.nextId
  tasks := by
    rintro id ⟨t, ht, hid⟩
    rw [hrows.tasks] at ht
    exact (h.tasks id ⟨t, ht, hid⟩).trans_le hrows.nextId

theorem Keyed.flush (h : Keyed db) {document : Document} (hid : document.id = db.nextId) :
    Keyed { db with pending := document :: db.pending, nextId := db.nextId + 1 } where
  distinct := by
    have hnew : document.id ∉ (db.documents ++ db.pending).map Document.id := by
      intro hmem
      obtain ⟨row, hrow, heq⟩ := List.mem_map.mp hmem
      have hlt := h.rows row hrow
      omega
    exact ((List.perm_middle.map Document.id).nodup_iff).mpr (List.nodup_cons.mpr ⟨hnew, h.distinct⟩)
  rows := by
    intro row hrow
    show row.id < db.nextId + 1
    obtain rfl | hrow := List.mem_cons.mp (List.perm_middle.mem_iff.mp hrow)
    · omega
    · have hlt := h.rows row hrow
      omega
  tasks := fun id htask => (h.tasks id htask).trans (Int.lt_succ _)

theorem Keyed.rollback (h : Keyed db) (document : Document) : Keyed (db.rollback document) := by
  have hsub : ((db.rollback document).documents ++ (db.rollback document).pending).Sublist
      (db.documents ++ db.pending) := (List.Sublist.refl _).append List.erase_sublist
  exact ⟨h.distinct.sublist (hsub.map _), fun row hrow => h.rows row (hsub.subset hrow), h.tasks⟩

theorem Keyed.commit (h : Keyed db) {document : Document} {task : Task} (hpending : document ∈ db.pending)
    (htask : task.payload.documentId = some document.id) : Keyed (db.commit document task) := by
  -- the row only goes from one list to the other
  have hperm : ((db.commit document task).documents ++ (db.commit document task).pending).Perm
      (db.documents ++ db.pending) := by
    show ((db.documents ++ [document]) ++ db.pending.erase document).Perm _
    rw [List.append_assoc]
    exact (List.perm_cons_erase hpending).symm.append_left _
  refine ⟨((hperm.map _).nodup_iff).mpr h.distinct, fun row hrow => h.rows row (hperm.mem_iff.mp hrow), ?_⟩
  rintro id ⟨t, ht, hid⟩
  obtain ht | ht := List.mem_append.mp ht
  · exact h.tasks id ⟨t, ht, hid⟩
  · obtain rfl := List.mem_singleton.mp ht
    obtain rfl := Option.some.inj (htask.symm.trans hid)
    exact h.rows document (List.mem_append_right _ hpending)

/-! ## The rest of the system -/

/-- What identifies a task and its work stays. -/
theorem mem_tasks_task (tasks : List Task) (publicId : String) (op : RowOp)
    (P : String → Int → TaskPayload → Prop) :
    (∃ t ∈ tasks.map fun t => if t.publicId = publicId then (rowStep t op).getD t else t,
      P t.taskType t.tenantId t.payload) ↔ ∃ t ∈ tasks, P t.taskType t.tenantId t.payload := by
  have hsame : ∀ t : Task, P (if t.publicId = publicId then (rowStep t op).getD t else t).taskType
      (if t.publicId = publicId then (rowStep t op).getD t else t).tenantId
      (if t.publicId = publicId then (rowStep t op).getD t else t).payload ↔ P t.taskType t.tenantId t.payload := by
    intro t
    by_cases hid : t.publicId = publicId
    · rw [if_pos hid]
      cases hstep : rowStep t op with
      | none => exact Iff.rfl
      | some u =>
        obtain ⟨-, htenant, htype, hpayload⟩ := rowStep_identity hstep
        rw [Option.getD_some, htenant, htype, hpayload]
    · rw [if_neg hid]
  simp only [List.mem_map, exists_exists_and_eq_and, hsame]

theorem get_without (uploads : Uploads) {document : Document} {directory : UploadDirectory}
    (hne : directory.documentId ≠ document.id) : (uploads.without document).get directory = uploads.get directory := by
  refine Option.ext fun files => ⟨fun h => ?_, fun h => ?_⟩
  · exact Dict.get_of_mem_entries (List.mem_filter.mp (Dict.mem_entries_of_get h)).1
  · refine Dict.get_of_mem_entries (List.mem_filter.mpr ⟨Dict.mem_entries_of_get h, ?_⟩)
    simp [hne]

/-- What happens elsewhere spares every document that is not committed, and takes no id. -/
structure SparesAll (db : Database) (uploads : Uploads) (db' : Database) (uploads' : Uploads) : Prop where
  spares : ∀ id, Spares db uploads db' uploads' id
  keyed : Keyed db'
  nextId : db'.nextId = db.nextId

/-- A write to the tasks that leaves every document its tasks. -/
theorem sparesAll_of_tasks (h : Keyed db) (uploads : Uploads) {tasks : List Task}
    (htasks : ∀ id, HasTask { db with tasks := tasks } id ↔ HasTask db id) :
    SparesAll db uploads { db with tasks := tasks } uploads where
  spares := fun id =>
    { pending := fun d hd _ => hd
      rows := fun row hrow hid => ⟨row, hrow, hid⟩
      tasks := htasks id
      uploads := fun _ _ _ hsome => hsome }
  keyed := ⟨h.distinct, h.rows, fun id hid => h.tasks id ((htasks id).mp hid)⟩
  nextId := rfl

theorem sparesAll_enqueue (h : Keyed db) (uploads : Uploads) {task : Task} (htask : task.payload.documentId = none) :
    SparesAll db uploads { db with tasks := db.tasks ++ [task] } uploads := by
  refine sparesAll_of_tasks h uploads fun id => ⟨?_, ?_⟩
  · rintro ⟨t, ht, hid⟩
    obtain ht | ht := List.mem_append.mp ht
    · exact ⟨t, ht, hid⟩
    · obtain rfl := List.mem_singleton.mp ht
      rw [htask] at hid
      cases hid
  · rintro ⟨t, ht, hid⟩
    exact ⟨t, List.mem_append_left _ ht, hid⟩

theorem sparesAll_mark (h : Keyed db) (uploads : Uploads) (documentId : Int) (u : DocumentUpdate) :
    SparesAll db uploads
      { db with documents := db.documents.map fun d => if d.id = documentId then d.update u else d } uploads := by
  have hids : (db.documents.map fun d => if d.id = documentId then d.update u else d).map Document.id =
      db.documents.map Document.id := by
    rw [List.map_map]
    refine List.map_congr_left fun d _ => ?_
    show (if d.id = documentId then d.update u else d).id = d.id
    split <;> rfl
  have hrows : ∀ row ∈ (db.documents.map fun d => if d.id = documentId then d.update u else d) ++ db.pending,
      ∃ row' ∈ db.documents ++ db.pending, row'.id = row.id := by
    intro row hrow
    have hmem : row.id ∈ (db.documents ++ db.pending).map Document.id := by
      rw [List.map_append, ← hids, ← List.map_append]
      exact List.mem_map_of_mem hrow
    exact List.mem_map.mp hmem
  refine ⟨fun id => ⟨fun d hd _ => hd, ?_, Iff.rfl, fun _ _ _ hsome => hsome⟩, ⟨?_, ?_, h.tasks⟩, rfl⟩
  · rintro row hrow rfl
    exact hrows row hrow
  · show ((_ ++ db.pending).map Document.id).Nodup
    rw [List.map_append, hids, ← List.map_append]
    exact h.distinct
  · intro row hrow
    obtain ⟨row', hrow', hid⟩ := hrows row hrow
    exact hid ▸ h.rows row' hrow'

theorem sparesAll_delete (h : Keyed db) (uploads : Uploads) {document : Document} (hdocument : document ∈ db.documents)
    (documentId : Int) :
    SparesAll db uploads { db with documents := db.documents.filter fun d => d.id != documentId }
      (uploads.without document) := by
  have hsub : ((db.documents.filter fun d => d.id != documentId) ++ db.pending).Sublist
      (db.documents ++ db.pending) := List.filter_sublist.append (List.Sublist.refl _)
  refine ⟨fun id => ⟨fun d hd _ => hd, fun row hrow hid => ⟨row, hsub.subset hrow, hid⟩, Iff.rfl, ?_⟩,
    ⟨h.distinct.sublist (hsub.map _), fun row hrow => h.rows row (hsub.subset hrow), h.tasks⟩, rfl⟩
  -- the row that is deleted is committed, so it is not the pending one
  rintro ⟨d, hd, rfl⟩ directory hid hsome
  have hne : directory.documentId ≠ document.id := by
    intro heq
    have hnodup : (db.documents ++ db.pending).Nodup := h.distinct.of_map
    obtain rfl := h.eq_of_id (List.mem_append_right _ hd) (List.mem_append_left _ hdocument) (hid.symm.trans heq)
    exact (List.nodup_append.mp hnodup).2.2 d hdocument d hd rfl
  rwa [get_without uploads hne]

/-- **The rest of the system spares what is not committed.** -/
theorem elsewhere_spares (h : Keyed db) {e : Elsewhere} (he : elsewhere db uploads e = some (db', uploads')) :
    SparesAll db uploads db' uploads' := by
  cases e with
  | task publicId op =>
    obtain ⟨rfl, rfl⟩ := Prod.mk.inj (Option.some.inj he)
    exact sparesAll_of_tasks h uploads fun id =>
      mem_tasks_task db.tasks publicId op fun _ _ payload => payload.documentId = some id
  | mark documentId u =>
    obtain ⟨rfl, rfl⟩ := Prod.mk.inj (Option.some.inj he)
    exact sparesAll_mark h uploads documentId u
  | enqueue publicId question threadId tenantId userId now =>
    obtain ⟨rfl, rfl⟩ := Prod.mk.inj (Option.some.inj he)
    exact sparesAll_enqueue h uploads rfl
  | delete documentId =>
    obtain ⟨document, hfind, hm⟩ := Option.map_eq_some_iff.mp he
    obtain ⟨rfl, rfl⟩ := Prod.mk.inj hm
    exact sparesAll_delete h uploads (List.mem_of_find?_eq_some hfind) documentId

/-! ## One operation of a request -/

section Move

variable {T : PyText} {pc' : UploadPc} {input : UploadInput}

theorem RowMove.keyed (hmove : RowMove T db pc input pc' db') (h : InPlace db uploads pc v) (hkeyed : Keyed db) :
    Keyed db' ∧ db.nextId ≤ db'.nextId := by
  cases hmove with
  | looks hpc hpc' hrows => exact ⟨hkeyed.sameRows hrows, hrows.nextId⟩
  | flushes => exact ⟨hkeyed.flush rfl, (Int.lt_succ _).le⟩
  | stores => exact ⟨hkeyed, le_refl _⟩
  | commits =>
    cases h with
    | early hpc => cases hpc
    | stored hdocument hpending htask hmade hdirectory => exact ⟨hkeyed.commit hpending rfl, le_refl _⟩
  | rollsBack hpc hfails hfailed => exact ⟨hkeyed.rollback _, le_refl _⟩
  | responds hfails hfailed hrows => exact ⟨hkeyed.sameRows hrows, hrows.nextId⟩
  | loses hfails hfailed => exact ⟨hkeyed, le_refl _⟩

/-- A request gets a document from the flush only. -/
theorem RowMove.document_after (hmove : RowMove T db pc input pc' db') {d : Document}
    (hd : (v.after pc').document = some d) :
    v.document = some d ∨ (d.id = db.nextId ∧ db.nextId < db'.nextId) := by
  cases hmove with
  | flushes =>
    obtain rfl := Option.some.inj hd
    exact Or.inr ⟨rfl, Int.lt_succ _⟩
  | looks hpc hpc' hrows =>
    refine Or.inl ?_
    obtain hpc' | ⟨r, rfl⟩ := hpc'
    · cases pc' <;> first | exact hd | cases hpc'
    · exact hd
  | stores | commits | rollsBack | responds | loses => exact Or.inl hd

/-- Other documents are spared. -/
theorem RowMove.spares (hmove : RowMove T db pc input pc' db') (h : InPlace db uploads pc v) {id : Int}
    (hother : ∀ d, v.document = some d → d.id ≠ id) (hid : id < db.nextId) : Spares db uploads db' uploads id := by
  cases hmove with
  | looks hpc hpc' hrows => exact hrows.spares id
  | flushes => exact spares_flush (ne_of_gt hid)
  | stores => exact (SameRows.refl db).spares id
  | commits =>
    cases h with
    | early hpc => cases hpc
    | stored hdocument hpending htask hmade hdirectory => exact spares_commit (hother _ hdocument) rfl
  | rollsBack hpc hfails hfailed =>
    obtain ⟨req, quota, rfl⟩ | ⟨req, quota, filePath, rfl⟩ := hpc
    · cases h with
      | early hpc => cases hpc
      | flushed hdocument hpending htask hdirectory => exact spares_rollback (hother _ hdocument)
    · cases h with
      | early hpc => cases hpc
      | stored hdocument hpending htask hmade hdirectory => exact spares_rollback (hother _ hdocument)
  | responds hfails hfailed hrows => exact hrows.spares id
  | loses hfails hfailed => exact (SameRows.refl db).spares id

/-- **A request stays in its place**, if it does not fail behind its directory. -/
theorem InPlace.move (h : InPlace db uploads pc v) (hmove : RowMove T db pc input pc' db') (hkeyed : Keyed db)
    (hbefore : input.fails = true → v.uploadDirectory = none)
    (hstores : ∀ filePath, input = .stores filePath → v.uploadDirectory.isSome = true) :
    InPlace db' uploads pc' (v.after pc') := by
  cases hmove with
  | looks hpc hpc' hrows =>
    cases h with
    | flushed | stored | created | done => cases hpc
    | early _ hdocument hdirectory =>
      obtain hpc' | ⟨r, rfl⟩ := hpc'
      · have hsame : v.after pc' = v := by cases pc' <;> first | rfl | cases hpc'
        rw [hsame]
        exact .early hpc' hdocument hdirectory
      · exact .done fun _ => ⟨.of_none hdocument hdirectory, hdirectory⟩
  | flushes =>
    cases h with
    | early hpc hdocument hdirectory =>
      refine .flushed rfl List.mem_cons_self (fun htask => ?_) fun directory hd => ?_
      · exact absurd (hkeyed.tasks db.nextId htask) (lt_irrefl _)
      · exact absurd (hdirectory.symm.trans hd) (by simp)
  | stores =>
    cases h with
    | early hpc => cases hpc
    | flushed hdocument hpending htask hdirectory =>
      exact .stored hdocument hpending htask (hstores _ rfl) hdirectory
  | commits =>
    cases h with
    | early hpc => cases hpc
    | stored hdocument hpending htask hmade hdirectory =>
      exact .created hdocument ⟨_, List.mem_append_right _ List.mem_cons_self, rfl⟩ hmade
  | rollsBack hpc hfails hfailed =>
    have hnone := hbefore hfails
    refine .done fun _ => ⟨?_, hnone⟩
    obtain ⟨req, quota, rfl⟩ | ⟨req, quota, filePath, rfl⟩ := hpc
    · cases h with
      | early hpc => cases hpc
      | flushed hdocument hpending htask hdirectory =>
        refine ⟨fun d hd row hrow => ?_, hasTask_iff.mpr fun d hd => ?_, fun directory hd => ?_⟩
        · obtain rfl := Option.some.inj (hdocument.symm.trans hd)
          exact hkeyed.notMem_rollback hpending hrow
        · obtain rfl := Option.some.inj (hdocument.symm.trans hd)
          exact htask
        · exact absurd (hnone.symm.trans hd) (by simp)
    · -- the file is stored in a directory
      cases h with
      | early hpc => cases hpc
      | stored hdocument hpending htask hmade hdirectory => rw [hnone] at hmade; cases hmade
  | responds hfails hfailed hrows => exact .done fun hfailed' => by rw [hfailed] at hfailed'; cases hfailed'
  | loses hfails hfailed =>
    cases h with
    | early hpc => cases hpc
    | created hdocument htask hmade => rw [hbefore hfails] at hmade; cases hmade

/-- **A failure behind the directory leaves something.** -/
theorem InPlace.not_nothingLeft (h : InPlace db uploads pc v) (hmove : RowMove T db pc input pc' db')
    (hfails : input.fails = true) (hmade : v.uploadDirectory ≠ none) :
    pc'.failed = true ∧ ¬ NothingLeft db' uploads (v.after pc') := by
  obtain ⟨directory, hdir⟩ := Option.ne_none_iff_exists'.mp hmade
  cases hmove with
  | looks hpc hpc' hrows =>
    cases h with
    | flushed | stored | created | done => cases hpc
    | early _ hdocument hdirectory => exact absurd hdirectory hmade
  | flushes => cases hfails
  | stores => cases hfails
  | commits => cases hfails
  | rollsBack hpc _ hfailed =>
    refine ⟨hfailed, fun hnothing => ?_⟩
    have hsome : (uploads.get directory).isSome = true := by
      obtain ⟨req, quota, rfl⟩ | ⟨req, quota, filePath, rfl⟩ := hpc
      · cases h with
        | early hpc => cases hpc
        | flushed hdocument hpending htask hdirectory => exact (hdirectory directory hdir).2
      · cases h with
        | early hpc => cases hpc
        | stored hdocument hpending htask _ hdirectory => exact (hdirectory directory hdir).2
    rw [hnothing.directory directory hdir] at hsome
    cases hsome
  | responds hfails' => rw [hfails] at hfails'; cases hfails'
  | loses _ hfailed =>
    refine ⟨hfailed, fun hnothing => ?_⟩
    cases h with
    | early hpc => cases hpc
    | created hdocument htask _ => exact hasTask_iff.mp hnothing.task _ hdocument htask

end Move

end Storage

/-! ## Any number of requests -/

/-- The rows are keyed, requests have different documents, and each one is in its place. -/
structure StorageInv (s : Storage κ) : Prop where
  keyed : Keyed s.base.db
  below : ∀ k d, (s.locals k).document = some d → d.id < s.base.db.nextId
  separate : ∀ j k d d', (s.locals j).document = some d → (s.locals k).document = some d' → d.id = d'.id → j = k
  places : ∀ k, InPlace s.base.db s.uploads (s.base.requests k) (s.locals k)

/-- **One request moves, and spares what the others have.** -/
theorem StorageInv.update {s : Storage κ} (h : StorageInv s) {k : κ} {db : Database} {uploads : Uploads}
    {pc : UploadPc} {v : Locals} (hkeyed : Keyed db) (hnext : s.base.db.nextId ≤ db.nextId)
    (hplace : InPlace db uploads pc v)
    (hdocument : ∀ d, v.document = some d → (s.locals k).document = some d ∨
      (d.id = s.base.db.nextId ∧ s.base.db.nextId < db.nextId))
    (hspares : ∀ id, (∀ d, (s.locals k).document = some d → d.id ≠ id) → id < s.base.db.nextId →
      Spares s.base.db s.uploads db uploads id) :
    StorageInv (⟨⟨db, Function.update s.base.requests k pc⟩, uploads, Function.update s.locals k v⟩ : Storage κ) := by
  have hnew : ∀ d, v.document = some d →
      d.id < db.nextId ∧ ∀ j ≠ k, ∀ d', (s.locals j).document = some d' → d'.id ≠ d.id := by
    intro d hd
    obtain hold | ⟨hid, hlt⟩ := hdocument d hd
    · exact ⟨(h.below k d hold).trans_le hnext, fun j hj d' hd' heq => hj (h.separate j k d' d hd' hold heq)⟩
    · exact ⟨hid ▸ hlt, fun j _ d' hd' heq => absurd (h.below j d' hd') (by omega)⟩
  have hread : ∀ j d, (Function.update s.locals k v j).document = some d →
      (j = k ∧ v.document = some d) ∨ (j ≠ k ∧ (s.locals j).document = some d) := by
    intro j d hd
    by_cases hjk : j = k
    · subst hjk
      rw [Function.update_self] at hd
      exact Or.inl ⟨rfl, hd⟩
    · rw [Function.update_of_ne hjk] at hd
      exact Or.inr ⟨hjk, hd⟩
  refine ⟨hkeyed, ?_, ?_, fun j => ?_⟩
  · intro j d hd
    obtain ⟨rfl, hv⟩ | ⟨hne, hold⟩ := hread j d hd
    · exact (hnew d hv).1
    · exact (h.below j d hold).trans_le hnext
  · intro i j d d' hi hj hid
    obtain ⟨rfl, hv⟩ | ⟨hne, hold⟩ := hread i d hi <;> obtain ⟨rfl, hv'⟩ | ⟨hne', hold'⟩ := hread j d' hj
    · rfl
    · exact absurd hid.symm ((hnew d hv).2 j hne' d' hold')
    · exact absurd hid ((hnew d' hv').2 i hne d hold)
    · exact h.separate i j d d' hold hold' hid
  · by_cases hjk : j = k
    · subst hjk
      show InPlace db uploads (Function.update s.base.requests j pc j) (Function.update s.locals j v j)
      rwa [Function.update_self, Function.update_self]
    · show InPlace db uploads (Function.update s.base.requests k pc j) (Function.update s.locals k v j)
      rw [Function.update_of_ne hjk, Function.update_of_ne hjk]
      refine (h.places j).spares fun d hd => hspares d.id ?_ (h.below j d hd)
      exact fun d' hd' heq => hjk (h.separate k j d' d hd' hd heq).symm

section Steps

variable {uploadDir : String} {p : PlanTables} {T : PyText} {s t : Storage κ}

/-- The ways a step of the system can go. -/
theorem storageStep_cases {e : StorageEvent κ} (h : storageStep uploadDir p T s e = some t) :
    (∃ k req content, e = .receive k req content ∧
      t = ⟨⟨s.base.db, Function.update s.base.requests k (.received req)⟩, s.uploads,
        Function.update s.locals k ⟨content, none, none⟩⟩) ∨
    (∃ k hex req quota document, e = .mkdir k hex ∧ s.base.requests k = .flushed req quota document ∧
      (s.locals k).uploadDirectory = none ∧
      t = ⟨s.base, s.uploads.set ⟨req.tenantId, document.id, hex⟩ [], Function.update s.locals k
        { s.locals k with uploadDirectory := some ⟨req.tenantId, document.id, hex⟩ }⟩) ∨
    (∃ k count directory files, e = .write k count ∧ t = ⟨s.base, s.uploads.set directory files, s.locals⟩) ∨
    (∃ k input pc db, e = .proceed k input ∧ s.permits uploadDir k input = true ∧
      RowMove T s.base.db (s.base.requests k) input pc db ∧
      t = ⟨⟨db, Function.update s.base.requests k pc⟩, s.uploads,
        Function.update s.locals k ((s.locals k).after pc)⟩) ∨
    ∃ e' db uploads, e = .elsewhere e' ∧ elsewhere s.base.db s.uploads e' = some (db, uploads) ∧
      t = ⟨⟨db, s.base.requests⟩, uploads, s.locals⟩ := by
  unfold storageStep at h
  cases e with
  | receive k req content =>
    obtain ⟨base, hbase, rfl⟩ := Option.map_eq_some_iff.mp h
    obtain ⟨_, _, heq, rfl⟩ | ⟨_, _, _, _, heq, -⟩ := uploadStep_cases hbase
    · cases heq
      exact Or.inl ⟨k, req, content, rfl, rfl⟩
    · cases heq
  | mkdir k hex =>
    dsimp only at h
    split at h
    · rename_i req quota document hk
      split at h
      · cases h
      · rename_i hfree
        obtain rfl := Option.some.inj h
        rw [Bool.or_eq_true, not_or, Bool.not_eq_true, Option.isSome_eq_false_iff, Option.isNone_iff_eq_none] at hfree
        exact Or.inr (Or.inl ⟨k, hex, req, quota, document, rfl, hk, hfree.1, rfl⟩)
    · cases h
  | write k count =>
    dsimp only at h
    split at h
    · obtain rfl := Option.some.inj h
      exact Or.inr (Or.inr (Or.inl ⟨k, count, _, _, rfl, rfl⟩))
    · cases h
  | proceed k input =>
    dsimp only at h
    split at h
    · rename_i hpermits
      obtain ⟨base, hbase, rfl⟩ := Option.map_eq_some_iff.mp h
      obtain ⟨⟨pc, db⟩, hmove, rfl⟩ := Option.map_eq_some_iff.mp hbase
      refine Or.inr (Or.inr (Or.inr (Or.inl
        ⟨k, input, pc, db, rfl, hpermits, requestStep_rowMove hmove, ?_⟩)))
      dsimp only
      rw [Function.update_self]
    · cases h
  | elsewhere e' =>
    obtain ⟨m, hm, rfl⟩ := Option.map_eq_some_iff.mp h
    exact Or.inr (Or.inr (Or.inr (Or.inr ⟨e', m.1, m.2, rfl, hm, rfl⟩)))

omit [DecidableEq κ] in
theorem isSome_of_permits {k : κ} {input : UploadInput} (h : s.permits uploadDir k input = true) :
    ∀ filePath, input = .stores filePath → (s.locals k).uploadDirectory.isSome = true := by
  rintro filePath rfl
  unfold Storage.permits at h
  dsimp only at h
  split at h
  · rename_i hdirectory
    rw [hdirectory]
    rfl
  · cases h

theorem storageInv_step {e : StorageEvent κ} (h : StorageInv s) (hP : BeforeDirectory s e)
    (ht : storageStep uploadDir p T s e = some t) : StorageInv t := by
  obtain ⟨k, req, content, rfl, rfl⟩ | ⟨k, hex, req, quota, document, rfl, hk, hnone, rfl⟩ |
    ⟨k, count, directory, files, rfl, rfl⟩ | ⟨k, input, pc, db, rfl, hpermits, hmove, rfl⟩ |
    ⟨e', db, uploads, rfl, he, rfl⟩ := storageStep_cases ht
  · exact h.update h.keyed (le_refl _) (.early rfl rfl rfl) (fun d hd => by cases hd)
      fun id _ _ => (SameRows.refl _).spares id
  · have hplace := h.places k
    rw [hk] at hplace
    cases hplace with
    | early hpc => cases hpc
    | flushed hdocument hpending htask hdirectory =>
      have hplace : InPlace s.base.db (s.uploads.set ⟨req.tenantId, document.id, hex⟩ [])
          (.flushed req quota document)
          { s.locals k with uploadDirectory := some ⟨req.tenantId, document.id, hex⟩ } := by
        refine .flushed hdocument hpending htask fun directory hd => ?_
        obtain rfl := Option.some.inj hd
        exact ⟨rfl, by simp⟩
      have hupdate := h.update h.keyed (le_refl _) hplace (fun d hd => Or.inl hd) fun id _ _ => spares_set _ _ id
      rwa [← hk, Function.update_eq_self] at hupdate
  · exact ⟨h.keyed, h.below, h.separate, fun j => (h.places j).spares fun d _ => spares_set _ _ d.id⟩
  · obtain ⟨hkeyed, hnext⟩ := hmove.keyed (h.places k) h.keyed
    refine h.update hkeyed hnext ((h.places k).move hmove h.keyed (hP k input rfl) (isSome_of_permits hpermits))
      (fun d hd => hmove.document_after hd) fun id hother hid => hmove.spares (h.places k) hother hid
  · have hall := elsewhere_spares h.keyed he
    refine ⟨hall.keyed, fun k d hd => ?_, h.separate, fun j => (h.places j).spares fun d _ => hall.spares d.id⟩
    show d.id < db.nextId
    rw [hall.nextId]
    exact h.below k d hd

omit [DecidableEq κ] in
theorem StorageInv.allOrNothing (h : StorageInv s) : AllOrNothing s := by
  intro k hfailed
  have hplace := h.places k
  cases hpc : s.base.requests k with
  | done r =>
    rw [hpc] at hplace hfailed
    cases hplace with
    | early hpc => cases hpc
    | done hleft => exact (hleft hfailed).1
  | _ =>
    rw [hpc] at hfailed
    cases hfailed

/-- A failure behind the directory breaks the promise at once. -/
theorem not_allOrNothing {e : StorageEvent κ} (h : StorageInv s) (hP : ¬ BeforeDirectory s e)
    (ht : storageStep uploadDir p T s e = some t) : ¬ AllOrNothing t := by
  unfold BeforeDirectory at hP
  push Not at hP
  obtain ⟨k, input, rfl, hfails, hmade⟩ := hP
  obtain ⟨_, _, _, heq, -⟩ | ⟨_, _, _, _, _, heq, -⟩ | ⟨_, _, _, _, heq, -⟩ | ⟨_, _, pc, db, heq, -, hmove, rfl⟩ |
    ⟨_, _, _, heq, -⟩ := storageStep_cases ht
  · cases heq
  · cases heq
  · cases heq
  · cases heq
    obtain ⟨hfailed, hleft⟩ := (h.places k).not_nothingLeft hmove hfails hmade
    intro hall
    have hnothing := hall k
    change (Function.update s.base.requests k pc k).failed = true →
      NothingLeft db s.uploads (Function.update s.locals k ((s.locals k).after pc) k) at hnothing
    rw [Function.update_self, Function.update_self] at hnothing
    exact hleft (hnothing hfailed)
  · cases heq

end Steps

/-! ## Rows and tasks -/

/-- The row of a request is that of its tenant and its content. -/
def OwnRow : UploadPc → Prop
  | .flushed req _ document => document.tenantId = req.tenantId ∧ document.contentSha256 = some req.contentSha256
  | .stored req _ document _ => document.tenantId = req.tenantId ∧ document.contentSha256 = some req.contentSha256
  | _ => True

structure TaskInv (s : Storage κ) : Prop where
  tasks : EveryRowHasTask s.base.db
  rows : ∀ k, OwnRow (s.base.requests k)

theorem EveryRowHasTask.of_eq {db db' : Database} (h : EveryRowHasTask db) (hdocuments : db'.documents = db.documents)
    (htasks : db'.tasks = db.tasks) : EveryRowHasTask db' := by
  unfold EveryRowHasTask
  rw [hdocuments, htasks]
  exact h

/-- **A row is committed with its task.** -/
theorem RowMove.everyRowHasTask {T : PyText} {db db' : Database} {pc pc' : UploadPc} {input : UploadInput}
    (hmove : RowMove T db pc input pc' db') (h : EveryRowHasTask db) (hrow : OwnRow pc) :
    EveryRowHasTask db' ∧ OwnRow pc' := by
  cases hmove with
  | looks hpc hpc' hrows =>
    refine ⟨h.of_eq hrows.documents hrows.tasks, ?_⟩
    obtain hpc' | ⟨r, rfl⟩ := hpc'
    · cases pc' <;> trivial
    · trivial
  | flushes => exact ⟨h.of_eq rfl rfl, rfl, rfl⟩
  | stores => exact ⟨h, hrow⟩
  | @commits req quota document filePath publicId now =>
    refine ⟨fun d hd => ?_, trivial⟩
    obtain hd | hd := List.mem_append.mp hd
    · obtain ⟨t, ht, htask⟩ := h d hd
      exact ⟨t, List.mem_append_left _ ht, htask⟩
    · obtain rfl := List.mem_singleton.mp hd
      exact ⟨_, List.mem_append_right _ List.mem_cons_self, rfl, hrow.1.symm, rfl, hrow.2.symm⟩
  | rollsBack hpc hfails hfailed => exact ⟨h.of_eq rfl rfl, trivial⟩
  | responds hfails hfailed hrows => exact ⟨h.of_eq hrows.documents hrows.tasks, trivial⟩
  | loses hfails hfailed => exact ⟨h, trivial⟩

/-- The rest of the system keeps what identifies a row and its task. -/
theorem elsewhere_everyRowHasTask {db db' : Database} {uploads uploads' : Uploads} {e : Elsewhere}
    (h : EveryRowHasTask db) (he : elsewhere db uploads e = some (db', uploads')) : EveryRowHasTask db' := by
  cases e with
  | task publicId op =>
    obtain ⟨rfl, rfl⟩ := Prod.mk.inj (Option.some.inj he)
    intro d hd
    obtain ⟨t, ht, htask⟩ := h d hd
    have hexists := (mem_tasks_task db.tasks publicId op fun type tenant payload =>
      type = TaskType.processDocument.value ∧ tenant = d.tenantId ∧ payload.documentId = some d.id ∧
        payload.contentSha256 = d.contentSha256).mpr
      ⟨t, ht, htask.taskType, htask.tenantId, htask.documentId, htask.contentSha256⟩
    obtain ⟨t', ht', htype, htenant, hid, hsha⟩ := hexists
    exact ⟨t', ht', htype, htenant, hid, hsha⟩
  | mark documentId u =>
    obtain ⟨rfl, rfl⟩ := Prod.mk.inj (Option.some.inj he)
    intro d hd
    obtain ⟨row, hrow, rfl⟩ := List.mem_map.mp hd
    obtain ⟨t, ht, htask⟩ := h row hrow
    refine ⟨t, ht, ?_⟩
    split
    · exact ⟨htask.taskType, htask.tenantId, htask.documentId, htask.contentSha256⟩
    · exact htask
  | enqueue publicId question threadId tenantId userId now =>
    obtain ⟨rfl, rfl⟩ := Prod.mk.inj (Option.some.inj he)
    intro d hd
    obtain ⟨t, ht, htask⟩ := h d hd
    exact ⟨t, List.mem_append_left _ ht, htask⟩
  | delete documentId =>
    obtain ⟨document, hfind, hm⟩ := Option.map_eq_some_iff.mp he
    obtain ⟨rfl, rfl⟩ := Prod.mk.inj hm
    exact fun d hd => h d (List.mem_filter.mp hd).1

section Runs

variable {uploadDir : String} {p : PlanTables} {T : PyText}

theorem taskInv_step {s t : Storage κ} {e : StorageEvent κ} (h : TaskInv s)
    (ht : storageStep uploadDir p T s e = some t) : TaskInv t := by
  obtain ⟨k, req, content, rfl, rfl⟩ | ⟨k, hex, req, quota, document, rfl, hk, hnone, rfl⟩ |
    ⟨k, count, directory, files, rfl, rfl⟩ | ⟨k, input, pc, db, rfl, hpermits, hmove, rfl⟩ |
    ⟨e', db, uploads, rfl, he, rfl⟩ := storageStep_cases ht
  · exact ⟨h.tasks, (Function.forall_update_iff s.base.requests fun _ pc => OwnRow pc).mpr
      ⟨trivial, fun j _ => h.rows j⟩⟩
  · exact ⟨h.tasks, h.rows⟩
  · exact ⟨h.tasks, h.rows⟩
  · obtain ⟨htasks, hrow⟩ := hmove.everyRowHasTask h.tasks (h.rows k)
    exact ⟨htasks, (Function.forall_update_iff s.base.requests fun _ pc => OwnRow pc).mpr
      ⟨hrow, fun j _ => h.rows j⟩⟩
  · exact ⟨elsewhere_everyRowHasTask h.tasks he, h.rows⟩

omit [DecidableEq κ] in
theorem storageInv_init {db : Database} (hkeyed : Keyed db) (uploads : Uploads) :
    StorageInv (Storage.init db uploads : Storage κ) where
  keyed := hkeyed
  below := fun k d hd => by cases hd
  separate := fun j k d d' hd => by cases hd
  places := fun k => .early rfl rfl rfl

omit [DecidableEq κ] in
theorem taskInv_init {db : Database} (htasks : EveryRowHasTask db) (uploads : Uploads) :
    TaskInv (Storage.init db uploads : Storage κ) := ⟨htasks, fun _ => trivial⟩

/-- **What uploads leave behind.**  A schedule passes through all-or-nothing states only, if and only if every failure
in it comes before the directory of its request; and whatever fails, every row has its task. -/
theorem upload_all_or_nothing_iff (uploadDir : String) (p : PlanTables) (T : PyText) {db : Database}
    {uploads : Uploads} {es : List (StorageEvent κ)} {s : Storage κ} (hkeyed : Keyed db)
    (htasks : EveryRowHasTask db)
    (hexec : exec (storageStep uploadDir p T) (Storage.init db uploads) es = some s) :
    ((∀ pre suf u, es = pre ++ suf → exec (storageStep uploadDir p T) (Storage.init db uploads) pre = some u →
        AllOrNothing u ∧ EveryRowHasTask u.base.db) ↔
      Run (storageStep uploadDir p T) BeforeDirectory (Storage.init db uploads) es s) ∧
    ∀ pre suf u, es = pre ++ suf → exec (storageStep uploadDir p T) (Storage.init db uploads) pre = some u →
      EveryRowHasTask u.base.db := by
  constructor
  · refine good_prefixes_iff_run (I := fun s => StorageInv s ∧ TaskInv s) ?_ ?_ ?_
      ⟨storageInv_init hkeyed uploads, taskInv_init htasks uploads⟩ hexec
    · exact fun _ h => ⟨h.1.allOrNothing, h.2.tasks⟩
    · exact fun _ _ _ h hP ht => ⟨storageInv_step h.1 hP ht, taskInv_step h.2 ht⟩
    · exact fun _ _ _ h hP ht hgood => not_allOrNothing h.1 hP ht hgood.1
  · intro pre suf u _ hu
    have hinv := (run_iff_exec.mpr hu).invariant (I := TaskInv) (fun _ _ _ h _ ht => taskInv_step h ht)
      (taskInv_init htasks uploads)
    exact hinv.tasks

end Runs

/-! ## A file that cannot be written -/

abbrev sampleStorageStep := storageStep (κ := Unit) "/uploads" onePlace .ascii

/-- The bytes of a PDF, as far as they matter here. -/
def sampleContent : List UInt8 := [37, 80, 68, 70, 45]

/-- The directory cannot be made. -/
def directoryFails : List (StorageEvent Unit) :=
  [.receive () (sampleUpload "ab") sampleContent, .proceed () .go, .proceed () .go, .proceed () .go,
    .proceed () .cannotPersist]

/-- The disk is full after two bytes. -/
def diskFull : List (StorageEvent Unit) :=
  [.receive () (sampleUpload "ab") sampleContent, .proceed () .go, .proceed () .go, .proceed () .go,
    .mkdir () "0f8f", .write () 2, .proceed () .cannotPersist]

/-- The commit raises what is no `OSError`. -/
def commitFails : List (StorageEvent Unit) :=
  [.receive () (sampleUpload "ab") sampleContent, .proceed () .go, .proceed () .go, .proceed () .go,
    .mkdir () "0f8f", .write () 5, .proceed () (.stores "/uploads/7/1-0f8f/tesla Q3.pdf"),
    .proceed () (.raises "OperationalError")]

theorem keyed_empty : Keyed emptyDatabase where
  distinct := List.nodup_nil
  rows := fun row hrow => absurd hrow List.not_mem_nil
  tasks := by
    rintro id ⟨t, ht, -⟩
    exact absurd ht List.not_mem_nil

/-- A test that only failures before the directory pass. -/
def beforeDirectoryTest (s : Storage Unit) : StorageEvent Unit → Bool
  | .proceed k input => !input.fails || (s.locals k).uploadDirectory.isNone
  | _ => true

theorem beforeDirectory_of_test (s : Storage Unit) (e : StorageEvent Unit) (h : beforeDirectoryTest s e = true) :
    BeforeDirectory s e := by
  rintro k input rfl hfails
  simpa [beforeDirectoryTest, hfails] using h

/-- The request ends with an error, and nothing is left. -/
theorem directoryFails_all_or_nothing :
    ∃ s, exec sampleStorageStep (Storage.init emptyDatabase .empty) directoryFails = some s ∧
      s.base.requests () = .done (.error 500 "Unable to persist uploaded file") ∧
      ∀ pre suf u, directoryFails = pre ++ suf →
        exec sampleStorageStep (Storage.init emptyDatabase .empty) pre = some u →
        AllOrNothing u ∧ EveryRowHasTask u.base.db := by
  have hexec : ∃ s, execIf beforeDirectoryTest sampleStorageStep (Storage.init emptyDatabase .empty) directoryFails =
        some s ∧
      exec sampleStorageStep (Storage.init emptyDatabase .empty) directoryFails = some s ∧
      s.base.requests () = .done (.error 500 "Unable to persist uploaded file") :=
    ⟨_, rfl, rfl, rfl⟩
  obtain ⟨s, hif, hs, herror⟩ := hexec
  exact ⟨s, hs, herror, (upload_all_or_nothing_iff "/uploads" onePlace .ascii keyed_empty
    (fun d hd => absurd hd List.not_mem_nil) hs).1.mpr (run_of_execIf beforeDirectory_of_test hif)⟩

/-- A directory with two bytes of the file is left, or one with the whole file. -/
theorem upload_leaves_directory :
    (∃ s, exec sampleStorageStep (Storage.init emptyDatabase .empty) diskFull = some s ∧
      s.base.requests () = .done (.error 500 "Unable to persist uploaded file") ∧
      s.uploads.get ⟨7, 1, "0f8f"⟩ = some [("tesla Q3.pdf", [37, 80])] ∧ ¬ AllOrNothing s) ∧
    ∃ s, exec sampleStorageStep (Storage.init emptyDatabase .empty) commitFails = some s ∧
      s.base.requests () = .done (.raised "OperationalError") ∧
      s.uploads.get ⟨7, 1, "0f8f"⟩ = some [("tesla Q3.pdf", [37, 80, 68, 70, 45])] ∧ ¬ AllOrNothing s := by
  constructor
  · refine ⟨_, rfl, rfl, rfl, fun hall => ?_⟩
    have hleft := (hall () rfl).directory ⟨7, 1, "0f8f"⟩ rfl
    cases hleft
  · refine ⟨_, rfl, rfl, rfl, fun hall => ?_⟩
    have hleft := (hall () rfl).directory ⟨7, 1, "0f8f"⟩ rfl
    cases hleft

end FinancialRag.Api.Upload
