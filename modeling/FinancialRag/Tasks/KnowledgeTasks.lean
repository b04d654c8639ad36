/-
  The PROCESS_DOCUMENT handler (`tasks/knowledge_tasks.py`) with the stores it writes: the document
  row, the vector store and the usage records.

  `processDocumentTask` is the function cut at its external operations, as the agent handler is: each
  control point of `DocPc` is the place right BEFORE one commit, file access, model call or vector
  store call, and the input says how that operation ends.  What PDF extraction and the embedding model
  answer comes with the input (`loads`, `embeds`); every check the handler makes on the answers is here.

  The order that matters: `delete_document`, `add_documents`, the SUCCESS commit, and only then the
  document's own 'indexed' commit; on the failing side FAILED first and the document's 'failed' after
  it.  An exception before `task.payload` is read leaves `document_id` unknown to the `except` block,
  which then commits FAILED and nothing about the document (`failing _ false`).
-/
import FinancialRag.Lib.PyText
import FinancialRag.Storage.ChromaStore
import FinancialRag.Tasks.AgentTasks

set_option linter.unusedVariables false

namespace FinancialRag.Tasks

open FinancialRag.Storage

/-! ## The document row -/

inductive DocumentStatus where
  | processing | indexed | failed
  deriving DecidableEq, Repr

structure Document where
  id : Int
  tenantId : Int
  filename : String
  company : String
  period : String
  status : DocumentStatus
  contentSha256 : Option String
  byteSize : Option Int
  uploadedByUserId : Option Int
  indexedChunkCount : Option Int
  deriving DecidableEq, Repr

/-- The keyword arguments of `_set_document_status`; `none` keeps the column. -/
structure DocumentUpdate where
  status : DocumentStatus
  company : Option String := none
  period : Option String := none
  indexedChunkCount : Option Int := none
  deriving DecidableEq, Repr

/-- The assignments of `_set_document_status`. -/
def Document.update (d : Document) (u : DocumentUpdate) : Document :=
  { d with
    status := u.status
    company := u.company.getD d.company
    period := u.period.getD d.period
    indexedChunkCount := u.indexedChunkCount.or d.indexedChunkCount }

/-- `db.get(Document, document_id)` on the table's row of this document. -/
def getDocument (document : Option Document) (documentId : Int) : Option Document :=
  document.filter (·.id == documentId)

/-- `_set_document_status`: its result, and the row after it. -/
def setDocumentStatus (document : Option Document) (documentId : Option Int) (tenantId : Int)
    (u : DocumentUpdate) : Bool × Option Document :=
  match documentId with
  | none => (true, document)
  | some id =>
    match getDocument document id with
    | none => (false, document)
    | some d => if d.tenantId ≠ tenantId then (false, document) else (true, some (d.update u))

/-! ## Names and chunks -/

/-- `get_company`. -/
def getCompany (T : PyText) (filename : String) : String :=
  if PyText.isIn "apple" (T.casefold filename) then "Apple"
  else if PyText.isIn "nvidia" (T.casefold filename) then "NVIDIA"
  else if PyText.isIn "tesla" (T.casefold filename) then "Tesla"
  else "Unknown"

/-- The longest text without a line break that is followed by `.pdf`, in any case. -/
def upToPdf : List Char → Option (List Char)
  | [] => none
  | c :: cs =>
    let later := if c == '\n' then none else (upToPdf cs).map (c :: ·)
    later <|> if ((c :: cs).take 4).map Char.toLower == ".pdf".toList then some [] else none

/-- `(Q\d.*)\.pdf`, matched at the head. -/
def quarterAt (T : PyText) : List Char → Option (List Char)
  | q :: d :: rest =>
    if (q == 'q' || q == 'Q') && T.isDecimal d then (upToPdf rest).map (q :: d :: ·) else none
  | _ => none

/-- `get_quarter`: the leftmost match. -/
def getQuarter (T : PyText) (filename : String) : String :=
  match filename.toList.tails.findSome? (quarterAt T) with
  | some q => String.ofList q
  | none => "Unknown"

structure DocumentChunk where
  text : String
  page : Int
  section_ : String
  ocrUsed : Bool
  chunkIndex : Nat
  parserVersion : String
  chunkerVersion : String
  deriving DecidableEq, Repr

/-- `EMBEDDING_MODEL` and `EMBEDDING_MODEL_REVISION`. -/
structure EmbeddingConfig where
  model : String
  revision : String
  deriving DecidableEq, Repr

/-- `content_sha256`, when it is a nonempty string. -/
def contentHash (task : Task) : Option String := task.payload.contentSha256.filter (· ≠ "")

/-- The vector store's id of a tenant's document. -/
def vectorDocumentId (tenantId documentId : Int) : String :=
  s!"tenant_{tenantId}_document_{documentId}"

def docFilename (task : Task) : String := PyText.basename (task.payload.filePath.getD "")

/-- `doc_id`. -/
def docId (T : PyText) (task : Task) : String :=
  match task.payload.documentId with
  | some id => vectorDocumentId task.tenantId id
  | none =>
    PyText.replace (PyText.replace (PyText.replace (T.lower (docFilename task)) ".pdf" "") " " "_")
      "-" "_"

section Building

variable {F : Type}

/-- The metadata of one chunk. -/
def chunkMetadata (T : PyText) (cfg : EmbeddingConfig) (task : Task) (c : DocumentChunk) :
    Metadata F :=
  Dict.ofList <|
    [("source", .str (docFilename task)), ("quarter", .str (getQuarter T (docFilename task))),
      ("collection", .str "financial_reports"), ("tenant_id", .int task.tenantId),
      ("page", .int c.page), ("section", .str c.section_), ("ocr_used", .bool c.ocrUsed),
      ("parser_version", .str c.parserVersion), ("chunker_version", .str c.chunkerVersion),
      ("embedding_model", .str cfg.model),
      ("embedding_revision", .str (if cfg.revision = "" then "unversioned" else cfg.revision))] ++
    match contentHash task with
    | some sha => [("content_sha256", .str sha)]
    | none => []

def chunkDocument (T : PyText) (cfg : EmbeddingConfig) (task : Task) (c : DocumentChunk)
    (embedding : List F) : VectorDocument F where
  documentId := docId T task
  chunkId := s!"tenant_{task.tenantId}_{(contentHash task).getD (docId T task)}_{c.chunkIndex}"
  company := getCompany T (docFilename task)
  content := c.text
  embedding := embedding
  metadata := chunkMetadata T cfg task c

/-- `docs`: chunk and embedding by position. -/
def chunkDocuments (T : PyText) (cfg : EmbeddingConfig) (task : Task) (chunks : List DocumentChunk)
    (rows : List (List F)) : List (VectorDocument F) :=
  List.zipWith (chunkDocument T cfg task) chunks rows

end Building

/-! ## The handler, cut at its external operations -/

inductive DocPc (F : Type) where
  /-- before `get_task` -/
  | loading
  /-- before the 'processing' commit -/
  | checking
  /-- the document is not the tenant's, before the FAILED commit -/
  | missingDocument
  /-- before `os.path.exists` -/
  | locating
  /-- no file, before the FAILED commit -/
  | missingFile
  /-- no file, before the 'failed' commit -/
  | missingFileDocument
  /-- before `os.path.getsize` -/
  | sizing
  /-- before the commit of `progress=10` -/
  | starting
  /-- before `load_pdf_chunks` -/
  | chunking
  /-- before the commit of `progress=30` -/
  | chunked (chunks : List DocumentChunk)
  /-- before `embed_passages` -/
  | embedding (chunks : List DocumentChunk)
  /-- before the commit of `progress=50` -/
  | embedded (docs : List (VectorDocument F))
  /-- before the store and its collection are opened -/
  | opening (docs : List (VectorDocument F))
  /-- before the commit of `progress=80` -/
  | building (docs : List (VectorDocument F))
  /-- before `delete_document` -/
  | deleting (docs : List (VectorDocument F))
  /-- before `add_documents` -/
  | adding (docs : List (VectorDocument F))
  /-- before the SUCCESS commit -/
  | succeeding (chunks : Nat)
  /-- SUCCESS is committed, before the 'indexed' commit -/
  | marking (chunks : Nat)
  /-- 'indexed' is committed, before the three usage records -/
  | recordingDocument (chunks : Nat)
  | recordingEmbedding (chunks : Nat)
  | recordingVector (chunks : Nat)
  /-- in the `except` block, before its FAILED commit; is `document_id` known? -/
  | failing (error : String) (known : Bool)
  /-- FAILED is committed, before the 'failed' commit -/
  | failedDocument
  /-- the end of the `try` block was reached -/
  | completed
  /-- returned after a FAILED commit -/
  | handled
  /-- the `except` block itself has raised -/
  | escaped (error : String)

inductive DocInput (F : Type) where
  | go (now : Int)
  | loads (chunks : List DocumentChunk)
  | embeds (rows : List (List F))
  | usageLost
  | raises (error : String)

/-- The stores besides the task row. -/
structure DocStores (F : Type) where
  document : Option Document
  client : Client F
  /-- the size of the uploaded file; `none` when it is not at `file_path` -/
  file : Option Nat
  usage : List UsageRecord

/-- A usage record of the document handler. -/
def documentUsage (task : Task) (event : UsageEvent) (resource : ResourceType) (quantity : Int) :
    UsageRecord where
  tenantId := task.tenantId
  userId := none
  eventType := event
  resourceType := resource
  quantity := quantity
  taskId := task.publicId

section Handler

variable {F : Type} [PyFloat F]

/-- Commit a document status. -/
def DocStores.mark (x : DocStores F) (task : Task) (u : DocumentUpdate) : DocStores F :=
  { x with document := (setDocumentStatus x.document task.payload.documentId task.tenantId u).2 }

def DocStores.record (x : DocStores F) (r : UsageRecord) (stored : Bool) : DocStores F :=
  { x with usage := recordUsage x.usage r stored }

/-- The 'indexed' update. -/
def indexedUpdate (T : PyText) (task : Task) (chunks : Nat) : DocumentUpdate where
  status := .indexed
  company := some (getCompany T (docFilename task))
  period := some (getQuarter T (docFilename task))
  indexedChunkCount := some chunks

/-- `file_path` as an f-string shows it. -/
def filePathText (task : Task) : String := task.payload.filePath.getD "None"

/-- `not file_path or not os.path.exists(file_path)`. -/
def fileMissing (task : Task) (x : DocStores F) : Bool :=
  task.payload.filePath.getD "" == "" || x.file.isNone

def docStep (T : PyText) (cfg : EmbeddingConfig) (pc : DocPc F) (input : DocInput F) (task : Task)
    (x : DocStores F) : Option (HandlerMove (DocPc F) (DocStores F)) :=
  match pc, input with
  | .loading, .go _ =>
    some ⟨if task.payload.documentId.isSome then .checking else .locating, none, x⟩
  | .checking, .go _ =>
    if (setDocumentStatus x.document task.payload.documentId task.tenantId
        { status := .processing }).1 then
      some ⟨.locating, none, x.mark task { status := .processing }⟩
    else some ⟨.missingDocument, none, x⟩
  | .missingDocument, .go now =>
    some ⟨.handled, some (.fail "Document does not belong to this tenant", now), x⟩
  | .locating, .go _ => some ⟨if fileMissing task x then .missingFile else .sizing, none, x⟩
  | .missingFile, .go now =>
    some ⟨.missingFileDocument,
      some (.fail s!"File not found: {filePathText task}", now), x⟩
  | .missingFileDocument, .go _ => some ⟨.handled, none, x.mark task { status := .failed }⟩
  | .sizing, .go _ =>
    match x.file with
    | none => none
    | some size => some ⟨if size = 0 then .failing "PDF file is empty" true else .starting, none, x⟩
  | .starting, .go now => some ⟨.chunking, some (.progress 10, now), x⟩
  | .chunking, .loads chunks =>
    if x.file.isNone then none
    else
      some ⟨if chunks.isEmpty then .failing "PDF produced no indexable chunks" true
        else .chunked chunks, none, x⟩
  | .chunked chunks, .go now => some ⟨.embedding chunks, some (.progress 30, now), x⟩
  | .embedding chunks, .embeds rows =>
    some ⟨if rows.length ≠ chunks.length then
        .failing "Embedding model returned an unexpected vector count" true
      else .embedded (chunkDocuments T cfg task chunks rows), none, x⟩
  | .embedded docs, .go now => some ⟨.opening docs, some (.progress 50, now), x⟩
  | .opening docs, .go _ =>
    some ⟨.building docs, none, { x with client := createCollection x.client "financial_reports" }⟩
  | .building docs, .go now => some ⟨.deleting docs, some (.progress 80, now), x⟩
  | .deleting docs, .go _ =>
    some ⟨.adding docs, none,
      { x with client := deleteDocument x.client (docId T task) task.tenantId }⟩
  | .adding docs, .go _ =>
    some ⟨.succeeding docs.length, none, { x with client := addDocuments x.client docs }⟩
  | .succeeding n, .go now =>
    some ⟨.marking n, some (.succeed (.document n (getCompany T (docFilename task))
      task.payload.documentId), now), x⟩
  | .marking n, .go _ => some ⟨.recordingDocument n, none, x.mark task (indexedUpdate T task n)⟩
  | .recordingDocument n, .go _ =>
    some ⟨.recordingEmbedding n, none, x.record (documentUsage task .documentProcess .document 1) true⟩
  | .recordingDocument n, .usageLost =>
    some ⟨.recordingEmbedding n, none, x.record (documentUsage task .documentProcess .document 1) false⟩
  | .recordingEmbedding n, .go _ =>
    some ⟨.recordingVector n, none,
      x.record (documentUsage task .embeddingGeneration .embedding n) true⟩
  | .recordingEmbedding n, .usageLost =>
    some ⟨.recordingVector n, none,
      x.record (documentUsage task .embeddingGeneration .embedding n) false⟩
  | .recordingVector n, .go _ =>
    some ⟨.completed, none, x.record (documentUsage task .vectorInsert .vector n) true⟩
  | .recordingVector n, .usageLost =>
    some ⟨.completed, none, x.record (documentUsage task .vectorInsert .vector n) false⟩
  | .failing error known, .go now =>
    some ⟨if known then .failedDocument else .handled, some (.fail error, now), x⟩
  | .failing _ _, .raises error => some ⟨.escaped error, none, x⟩
  | .failedDocument, .go _ => some ⟨.handled, none, x.mark task { status := .failed }⟩
  | .failedDocument, .raises error => some ⟨.escaped error, none, x⟩
  | .completed, _ => none
  | .handled, _ => none
  | .escaped _, _ => none
  -- the first line of the `try` block: the payload is not read yet
  | .loading, .raises error => some ⟨.failing error false, none, x⟩
  | _, .raises error => some ⟨.failing error true, none, x⟩
  | _, _ => none

def docExit : DocPc F → Option Exit
  | .completed => some .returned
  | .handled => some .returned
  | .escaped error => some (.raised error)
  | _ => none

/-- `process_document_task`. -/
def processDocumentTask (T : PyText) (cfg : EmbeddingConfig) :
    Handler (DocPc F) (DocStores F) (DocInput F) where
  entry := .loading
  step := docStep T cfg
  exit := docExit

/-! ## Inversion -/

/-- Inside the `try` block, with the payload read. -/
def DocPc.inTry : DocPc F → Bool
  | .loading | .failing _ _ | .failedDocument | .completed | .handled | .escaped _ => false
  | _ => true

/-- After the SUCCESS commit. -/
def DocPc.committed : DocPc F → Bool
  | .marking _ | .recordingDocument _ | .recordingEmbedding _ | .recordingVector _ | .completed => true
  | _ => false

def DocInput.isRaise : DocInput F → Bool
  | .raises _ => true
  | _ => false

/-- Every way a step of the handler can go. -/
inductive DocMove (T : PyText) (cfg : EmbeddingConfig) (task : Task) (x : DocStores F) :
    DocPc F → DocInput F → HandlerMove (DocPc F) (DocStores F) → Prop
  | load {now} : DocMove T cfg task x .loading (.go now)
      ⟨if task.payload.documentId.isSome then .checking else .locating, none, x⟩
  | check {now} (h : (setDocumentStatus x.document task.payload.documentId task.tenantId
        { status := .processing }).1 = true) :
      DocMove T cfg task x .checking (.go now)
        ⟨.locating, none, x.mark task { status := .processing }⟩
  | checkFails {now} (h : (setDocumentStatus x.document task.payload.documentId task.tenantId
        { status := .processing }).1 = false) :
      DocMove T cfg task x .checking (.go now) ⟨.missingDocument, none, x⟩
  | reject {now} : DocMove T cfg task x .missingDocument (.go now)
      ⟨.handled, some (.fail "Document does not belong to this tenant", now), x⟩
  | locate {now} : DocMove T cfg task x .locating (.go now)
      ⟨if fileMissing task x then .missingFile else .sizing, none, x⟩
  | noFile {now} : DocMove T cfg task x .missingFile (.go now)
      ⟨.missingFileDocument, some (.fail s!"File not found: {filePathText task}", now), x⟩
  | noFileMark {now} : DocMove T cfg task x .missingFileDocument (.go now)
      ⟨.handled, none, x.mark task { status := .failed }⟩
  | size {now} (n : Nat) (h : x.file = some n) : DocMove T cfg task x .sizing (.go now)
      ⟨if n = 0 then .failing "PDF file is empty" true else .starting, none, x⟩
  | begin {now} : DocMove T cfg task x .starting (.go now) ⟨.chunking, some (.progress 10, now), x⟩
  | chunk {cs} (h : x.file ≠ none) : DocMove T cfg task x .chunking (.loads cs)
      ⟨if cs.isEmpty then .failing "PDF produced no indexable chunks" true else .chunked cs, none, x⟩
  | chunkDone {cs now} : DocMove T cfg task x (.chunked cs) (.go now)
      ⟨.embedding cs, some (.progress 30, now), x⟩
  | embed {cs rows} : DocMove T cfg task x (.embedding cs) (.embeds rows)
      ⟨if rows.length ≠ cs.length then
          .failing "Embedding model returned an unexpected vector count" true
        else .embedded (chunkDocuments T cfg task cs rows), none, x⟩
  | embedDone {docs now} : DocMove T cfg task x (.embedded docs) (.go now)
      ⟨.opening docs, some (.progress 50, now), x⟩
  | openStore {docs now} : DocMove T cfg task x (.opening docs) (.go now)
      ⟨.building docs, none, { x with client := createCollection x.client "financial_reports" }⟩
  | buildDone {docs now} : DocMove T cfg task x (.building docs) (.go now)
      ⟨.deleting docs, some (.progress 80, now), x⟩
  | delete {docs now} : DocMove T cfg task x (.deleting docs) (.go now)
      ⟨.adding docs, none, { x with client := deleteDocument x.client (docId T task) task.tenantId }⟩
  | add {docs now} : DocMove T cfg task x (.adding docs) (.go now)
      ⟨.succeeding docs.length, none, { x with client := addDocuments x.client docs }⟩
  | succeed {n now} : DocMove T cfg task x (.succeeding n) (.go now)
      ⟨.marking n, some (.succeed (.document n (getCompany T (docFilename task))
        task.payload.documentId), now), x⟩
  | mark {n now} : DocMove T cfg task x (.marking n) (.go now)
      ⟨.recordingDocument n, none, x.mark task (indexedUpdate T task n)⟩
  | recordDocument {n a} (stored : Bool) : DocMove T cfg task x (.recordingDocument n) a
      ⟨.recordingEmbedding n, none,
        x.record (documentUsage task .documentProcess .document 1) stored⟩
  | recordEmbedding {n a} (stored : Bool) : DocMove T cfg task x (.recordingEmbedding n) a
      ⟨.recordingVector n, none,
        x.record (documentUsage task .embeddingGeneration .embedding n) stored⟩
  | recordVector {n a} (stored : Bool) : DocMove T cfg task x (.recordingVector n) a
      ⟨.completed, none, x.record (documentUsage task .vectorInsert .vector n) stored⟩
  | fail {error known now} : DocMove T cfg task x (.failing error known) (.go now)
      ⟨if known then .failedDocument else .handled, some (.fail error, now), x⟩
  | escape {error known error'} : DocMove T cfg task x (.failing error known) (.raises error')
      ⟨.escaped error', none, x⟩
  | failMark {now} : DocMove T cfg task x .failedDocument (.go now)
      ⟨.handled, none, x.mark task { status := .failed }⟩
  | failMarkEscape {error} : DocMove T cfg task x .failedDocument (.raises error)
      ⟨.escaped error, none, x⟩
  | raiseUnread {error} : DocMove T cfg task x .loading (.raises error)
      ⟨.failing error false, none, x⟩
  | raise {pc error} (hin : pc.inTry = true) : DocMove T cfg task x pc (.raises error)
      ⟨.failing error true, none, x⟩

theorem docStep_move {T : PyText} {cfg : EmbeddingConfig} {pc : DocPc F} {a : DocInput F}
    {task : Task} {x : DocStores F} {m : HandlerMove (DocPc F) (DocStores F)}
    (h : docStep T cfg pc a task x = some m) : DocMove T cfg task x pc a m := by
  unfold docStep at h
  split at h
  · injection h with h; subst h; exact .load
  · split at h <;> rename_i hok <;> injection h with h <;> subst h
    · exact .check hok
    · exact .checkFails (by simpa using hok)
  · injection h with h; subst h; exact .reject
  · injection h with h; subst h; exact .locate
  · injection h with h; subst h; exact .noFile
  · injection h with h; subst h; exact .noFileMark
  · split at h
    · exact absurd h (by simp)
    · rename_i n hn
      injection h with h; subst h
      exact .size n hn
  · injection h with h; subst h; exact .begin
  · split at h
    · exact absurd h (by simp)
    · rename_i hfile
      injection h with h; subst h
      exact .chunk (by simpa using hfile)
  · injection h with h; subst h; exact .chunkDone
  · injection h with h; subst h; exact .embed
  · injection h with h; subst h; exact .embedDone
  · injection h with h; subst h; exact .openStore
  · injection h with h; subst h; exact .buildDone
  · injection h with h; subst h; exact .delete
  · injection h with h; subst h; exact .add
  · injection h with h; subst h; exact .succeed
  · injection h with h; subst h; exact .mark
  · injection h with h; subst h; exact .recordDocument true
  · injection h with h; subst h; exact .recordDocument false
  · injection h with h; subst h; exact .recordEmbedding true
  · injection h with h; subst h; exact .recordEmbedding false
  · injection h with h; subst h; exact .recordVector true
  · injection h with h; subst h; exact .recordVector false
  · injection h with h; subst h; exact .fail
  · injection h with h; subst h; exact .escape
  · injection h with h; subst h; exact .failMark
  · injection h with h; subst h; exact .failMarkEscape
  · exact absurd h (by simp)
  · exact absurd h (by simp)
  · exact absurd h (by simp)
  · injection h with h; subst h; exact .raiseUnread
  · rename_i hnotFailing hnotFailed hnotCompleted hnotHandled hnotEscaped hnotLoading
    injection h with h; subst h
    refine .raise ?_
    cases pc with
    | loading => exact absurd rfl hnotLoading
    | failing e k => exact absurd rfl (hnotFailing e k)
    | failedDocument => exact absurd rfl hnotFailed
    | completed => exact absurd rfl hnotCompleted
    | handled => exact absurd rfl hnotHandled
    | escaped e => exact absurd rfl (hnotEscaped e)
    | _ => rfl
  · exact absurd h (by simp)

end Handler

end FinancialRag.Tasks
