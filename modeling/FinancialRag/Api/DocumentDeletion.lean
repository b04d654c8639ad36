/-
  `delete_knowledge_document` (`api/routers/knowledge.py`) as a transaction over three stores: the
  documents table, the tenant's upload directories, the vector store.

  The endpoint STAGES the upload directories by renaming them, deletes the vectors, deletes the row, and
  only then removes what it has staged.  `Faults` says which external operation of a request fails; the
  `except` blocks are as the source has them.  Here a request runs alone; next to the document's task it
  is in `Api.Knowledge`, with the one file that the task reads for the directories.

  - The row and the directories are put back whatever fails: the log of renames is undone from its end
    (`Directory.Moves`).
  - The vectors are NOT: a delete that has gone through some collections stays where a later collection,
    or the commit after it, fails.  `Spared` is the exact condition: the collections that the delete went
    through held no entry of the document.
-/
import FinancialRag.Api.Knowledge
import FinancialRag.Lib.Directory

set_option linter.unusedVariables false

namespace FinancialRag.Api.Deletion

open FinancialRag.Storage FinancialRag.Tasks

/-! ## The stores -/

/-- What stands under a name in a tenant's upload root. -/
inductive UploadEntry (α : Type) where
  | directory (contents : α)
  /-- a file or a link -/
  | other
  deriving DecidableEq, Repr

def UploadEntry.isDirectory {α : Type} : UploadEntry α → Bool
  | .directory _ => true
  | .other => false

structure Stores (F α : Type) where
  documents : List Document
  tasks : List Task
  /-- `UPLOAD_DIR / str(tenant_id)` -/
  uploads : Int → Directory (UploadEntry α)
  client : Client F

/-- How the external operations of a request end. -/
structure Faults where
  /-- the `uuid4` under which the i-th directory is staged; `none`: that rename raises -/
  stage : Nat → Option String
  /-- the vector delete raises after so many collections -/
  vectors : Option Nat
  /-- the commit raises -/
  commit : Option String
  /-- the removal raises at this staged directory -/
  cleanup : Option Nat

/-! ## The endpoint -/

section Endpoint

variable {F α : Type}

/-- `_document_tasks`. -/
def documentTasks (tasks : List Task) (tenantId documentId : Int) : List Task :=
  tasks.filter fun t => t.tenantId == tenantId && t.taskType == TaskType.processDocument.value &&
    t.payload.documentId == some documentId

/-- `_upload_directories`. -/
def uploadDirectories (root : Directory (UploadEntry α)) (documentId : Int) : List String :=
  PyList.sorted (fun a b => decide (a < b))
    ((root.entries.filter fun e =>
      e.2.isDirectory && (s!"{documentId}-").toList.isPrefixOf e.1.toList).map Prod.fst)

/-- `_restore_upload_directories`. -/
def restoreUploadDirectories (staged : List (String × String)) (root : Directory (UploadEntry α)) :
    Directory (UploadEntry α) :=
  staged.foldr (fun move root =>
    if move.2 ∈ root.names ∧ move.1 ∉ root.names then (root.rename move.2 move.1).getD root else root)
    root

/-- The loop of `_stage_upload_directories`; on an error the renames made so far are undone. -/
def stageLoop (faults : Nat → Option String) (documentId : Int) :
    List String → List (String × String) → Directory (UploadEntry α) →
      Except (Directory (UploadEntry α)) (List (String × String) × Directory (UploadEntry α))
  | [], staged, root => .ok (staged, root)
  | original :: rest, staged, root =>
    match faults staged.length with
    | none => .error (restoreUploadDirectories staged root)
    | some hex =>
      match root.rename original s!".deleting-{documentId}-{hex}" with
      | none => .error (restoreUploadDirectories staged root)
      | some root' =>
        stageLoop faults documentId rest (staged ++ [(original, s!".deleting-{documentId}-{hex}")]) root'

/-- `_stage_upload_directories`. -/
def stageUploadDirectories (faults : Nat → Option String) (documentId : Int)
    (root : Directory (UploadEntry α)) :
    Except (Directory (UploadEntry α)) (List (String × String) × Directory (UploadEntry α)) :=
  stageLoop faults documentId (uploadDirectories root documentId) [] root

/-- `_remove_staged_upload_directories`. -/
def removeStagedUploadDirectories (staged : List (String × String)) (root : Directory (UploadEntry α)) :
    Directory (UploadEntry α) :=
  staged.foldl (fun root move =>
    if (root.get move.2).any UploadEntry.isDirectory then root.remove move.2 else root) root

def Stores.withRoot (x : Stores F α) (tenantId : Int) (root : Directory (UploadEntry α)) : Stores F α :=
  { x with uploads := Function.update x.uploads tenantId root }

/-- `document.status == "processing" or has_active_task`. -/
def stillProcessing (x : Stores F α) (req : DeleteRequest) (document : Document) : Bool :=
  document.status == .processing ||
    (documentTasks x.tasks req.tenantId document.id).any fun t =>
      t.status == .pending || t.status == .running

/-- The query by id and tenant. -/
def findDocument (x : Stores F α) (req : DeleteRequest) : Option Document :=
  x.documents.find? fun d => d.id == req.documentId && d.tenantId == req.tenantId

def cleanupPending : DeleteResponse :=
  .error 500 "Document was deleted but storage cleanup is pending."

/-- From the vector delete on. -/
def deleteStaged (faults : Faults) (req : DeleteRequest) (document : Document)
    (staged : List (String × String)) (root : Directory (UploadEntry α)) (x : Stores F α) :
    DeleteResponse × Stores F α :=
  let vectorId := vectorDocumentId req.tenantId document.id
  match faults.vectors with
  | some n =>
    (.error 503 "Unable to delete document vectors.",
      { x with client := deletePartly x.client n vectorId req.tenantId }.withRoot req.tenantId
        (restoreUploadDirectories staged root))
  | none =>
    let x := { x with client := deleteDocument x.client vectorId req.tenantId }
    match faults.commit with
    | some error => (.raised error, x.withRoot req.tenantId (restoreUploadDirectories staged root))
    | none =>
      let x := { x with documents := x.documents.filter (·.id != document.id) }
      match faults.cleanup.filter (· < staged.length) with
      | some n =>
        (cleanupPending, x.withRoot req.tenantId (removeStagedUploadDirectories (staged.take n) root))
      | none =>
        (.deleted req.documentId,
          x.withRoot req.tenantId (removeStagedUploadDirectories staged root))

/-- `delete_knowledge_document`. -/
def deleteKnowledgeDocument (faults : Faults) (req : DeleteRequest) (x : Stores F α) :
    DeleteResponse × Stores F α :=
  match findDocument x req with
  | none => (.error 404 "Document not found", x)
  | some document =>
    if document.uploadedByUserId ≠ some req.userId then
      (.error 403 "You do not have permission to delete this document.", x)
    else if stillProcessing x req document then
      (.error 409 "Document is still processing and cannot be deleted.", x)
    else
      match stageUploadDirectories faults.stage document.id (x.uploads req.tenantId) with
      | .error root =>
        (.error 500 "Unable to prepare document storage for deletion.", x.withRoot req.tenantId root)
      | .ok (staged, root) => deleteStaged faults req document staged root x

/-! ## Directories are put back -/

theorem restoreUploadDirectories_eq_undo (staged : List (String × String))
    (root : Directory (UploadEntry α)) :
    restoreUploadDirectories staged root = Directory.undo staged root := by
  unfold restoreUploadDirectories Directory.undo
  congr 1
  funext move root
  split
  · rfl
  · rename_i hblocked
    unfold Directory.rename
    rw [dif_neg hblocked]
    rfl

/-- What staging promises: a failure has changed nothing, a success has a log of what it renamed. -/
def Staged (start : Directory (UploadEntry α)) :
    Except (Directory (UploadEntry α)) (List (String × String) × Directory (UploadEntry α)) → Prop
  | .error root => root = start
  | .ok (staged, root) => Directory.Moves start staged root

theorem staged_stageLoop {faults : Nat → Option String} {documentId : Int} {originals : List String}
    {staged : List (String × String)} {start root : Directory (UploadEntry α)}
    (h : Directory.Moves start staged root) :
    Staged start (stageLoop faults documentId originals staged root) := by
  induction originals generalizing staged root with
  | nil => exact h
  | cons original rest ih =>
    have hundo : restoreUploadDirectories staged root = start := by
      rw [restoreUploadDirectories_eq_undo]
      exact h.undo_eq
    rw [stageLoop]
    cases faults staged.length with
    | none => exact hundo
    | some hex =>
      cases hrename : root.rename original s!".deleting-{documentId}-{hex}" with
      | none =>
        simp only [hrename]
        exact hundo
      | some root' =>
        simp only [hrename]
        exact ih (h.snoc hrename)

/-- **Staging keeps its promise**, whichever rename fails. -/
theorem staged_stageUploadDirectories (faults : Nat → Option String) (documentId : Int)
    (root : Directory (UploadEntry α)) :
    Staged root (stageUploadDirectories faults documentId root) :=
  staged_stageLoop (.nil root)

theorem withRoot_self (x : Stores F α) (tenantId : Int) : x.withRoot tenantId (x.uploads tenantId) = x := by
  unfold Stores.withRoot
  rw [Function.update_eq_self]

/-! ## What a request does -/

/-- The request gets as far as the vector delete. -/
def reachesVectors (faults : Faults) (req : DeleteRequest) (x : Stores F α) : Bool :=
  match findDocument x req with
  | none => false
  | some document =>
    document.uploadedByUserId == some req.userId && !stillProcessing x req document &&
      (stageUploadDirectories faults.stage document.id (x.uploads req.tenantId)).isOk

/-- In how many collections the vector delete deletes. -/
def deletedCollections (faults : Faults) (x : Stores F α) : Nat :=
  faults.vectors.getD x.client.collections.length

theorem stores_deleteStaged {faults : Faults} {req : DeleteRequest} {document : Document}
    {staged : List (String × String)} {root : Directory (UploadEntry α)} {x : Stores F α}
    (hmoves : Directory.Moves (x.uploads req.tenantId) staged root)
    (hdeleted : ∀ id, (deleteStaged faults req document staged root x).1 ≠ .deleted id)
    (hpending : (deleteStaged faults req document staged root x).1 ≠ cleanupPending) :
    (deleteStaged faults req document staged root x).2 =
      { x with
        client := deletePartly x.client (deletedCollections faults x)
          (vectorDocumentId req.tenantId document.id) req.tenantId } := by
  have hundo : restoreUploadDirectories staged root = x.uploads req.tenantId := by
    rw [restoreUploadDirectories_eq_undo]
    exact hmoves.undo_eq
  unfold deletedCollections
  unfold deleteStaged at hdeleted hpending ⊢
  cases hvectors : faults.vectors with
  | some n =>
    dsimp only
    rw [hundo]
    exact withRoot_self _ _
  | none =>
    cases hcommit : faults.commit with
    | some error =>
      dsimp only
      rw [hundo, Option.getD_none, deletePartly_all]
      exact withRoot_self _ _
    | none =>
      -- the row is deleted: neither of the two responses is left
      rw [hvectors, hcommit] at hdeleted hpending
      cases hcleanup : faults.cleanup.filter (· < staged.length) with
      | some n =>
        rw [hcleanup] at hpending
        exact absurd rfl hpending
      | none =>
        rw [hcleanup] at hdeleted
        exact absurd rfl (hdeleted req.documentId)

/-- **A request either stops before the vector delete, with everything as it was, or goes on with its
    directories staged.** -/
theorem deleteKnowledgeDocument_cases (faults : Faults) (req : DeleteRequest) (x : Stores F α) :
    (reachesVectors faults req x = false ∧ (deleteKnowledgeDocument faults req x).2 = x) ∨
    (reachesVectors faults req x = true ∧ ∃ document staged root, document.id = req.documentId ∧
      Directory.Moves (x.uploads req.tenantId) staged root ∧
      deleteKnowledgeDocument faults req x = deleteStaged faults req document staged root x) := by
  unfold reachesVectors deleteKnowledgeDocument
  cases hfind : findDocument x req with
  | none => exact Or.inl ⟨rfl, rfl⟩
  | some document =>
    dsimp only
    by_cases howner : document.uploadedByUserId = some req.userId
    · by_cases hbusy : stillProcessing x req document = true
      · left
        rw [hbusy, if_neg (not_not.mpr howner), if_pos rfl]
        simp
      · rw [Bool.not_eq_true] at hbusy
        rw [hbusy, howner, if_neg (not_not.mpr rfl), if_neg Bool.false_ne_true]
        have hstaged := staged_stageUploadDirectories faults.stage document.id (x.uploads req.tenantId)
        cases hstage : stageUploadDirectories faults.stage document.id (x.uploads req.tenantId) with
        | error root =>
          left
          rw [hstage] at hstaged
          obtain rfl : root = x.uploads req.tenantId := hstaged
          exact ⟨by simp [Except.isOk, Except.toBool], withRoot_self x req.tenantId⟩
        | ok result =>
          right
          obtain ⟨staged, root⟩ := result
          rw [hstage] at hstaged
          have hid : document.id = req.documentId := by
            have hmatch := List.find?_some hfind
            simp only [Bool.and_eq_true, beq_iff_eq] at hmatch
            exact hmatch.1
          exact ⟨by simp [Except.isOk, Except.toBool], document, staged, root, hid, hstaged, rfl⟩
    · left
      rw [if_pos howner]
      simp [howner]

/-- **What a request that fails leaves**: everything as it was, or the vectors in some collections are
    gone. -/
theorem stores_of_failed {faults : Faults} {req : DeleteRequest} {x : Stores F α}
    (hdeleted : ∀ id, (deleteKnowledgeDocument faults req x).1 ≠ .deleted id)
    (hpending : (deleteKnowledgeDocument faults req x).1 ≠ cleanupPending) :
    (reachesVectors faults req x = false ∧ (deleteKnowledgeDocument faults req x).2 = x) ∨
    (reachesVectors faults req x = true ∧ (deleteKnowledgeDocument faults req x).2 =
      { x with
        client := deletePartly x.client (deletedCollections faults x)
          (vectorDocumentId req.tenantId req.documentId) req.tenantId }) := by
  rcases deleteKnowledgeDocument_cases faults req x with
    hstopped | ⟨hreaches, document, staged, root, hid, hmoves, heq⟩
  · exact Or.inl hstopped
  · rw [heq] at hdeleted hpending ⊢
    rw [← hid]
    exact Or.inr ⟨hreaches, stores_deleteStaged hmoves hdeleted hpending⟩

/-! ## All or nothing -/

/-- The document's row, its upload directories and its vector entries are as they were. -/
structure AsBefore (req : DeleteRequest) (x x' : Stores F α) : Prop where
  documents : x'.documents = x.documents
  uploads : x'.uploads = x.uploads
  vectors : x'.client.entries (Record.isOf req.tenantId (vectorDocumentId req.tenantId req.documentId)) =
    x.client.entries (Record.isOf req.tenantId (vectorDocumentId req.tenantId req.documentId))

/-- Where the request goes as far as the vector delete, the collections that one goes through before the
    request fails hold no entry of the document. -/
def Spared (faults : Faults) (req : DeleteRequest) (x : Stores F α) : Prop :=
  reachesVectors faults req x = true →
    ∀ c ∈ x.client.collections.take (deletedCollections faults x),
      ∀ r ∈ c.records, r.isOf req.tenantId (vectorDocumentId req.tenantId req.documentId) = false

/-- **A request that fails is undone if and only if its vector delete had nothing to delete.** -/
theorem all_or_nothing_iff (faults : Faults) (req : DeleteRequest) (x : Stores F α)
    (hdeleted : ∀ id, (deleteKnowledgeDocument faults req x).1 ≠ .deleted id)
    (hpending : (deleteKnowledgeDocument faults req x).1 ≠ cleanupPending) :
    AsBefore req x (deleteKnowledgeDocument faults req x).2 ↔ Spared faults req x := by
  rcases stores_of_failed hdeleted hpending with ⟨hreaches, heq⟩ | ⟨hreaches, heq⟩
  · rw [heq]
    refine iff_of_true ⟨rfl, rfl, rfl⟩ fun hyes => ?_
    rw [hreaches] at hyes
    cases hyes
  · rw [heq]
    have hsplit : ∀ n, x.client.entries
          (Record.isOf req.tenantId (vectorDocumentId req.tenantId req.documentId)) =
        (⟨x.client.collections.take n⟩ : Client F).entries
            (Record.isOf req.tenantId (vectorDocumentId req.tenantId req.documentId)) ++
          (⟨x.client.collections.drop n⟩ : Client F).entries
            (Record.isOf req.tenantId (vectorDocumentId req.tenantId req.documentId)) := by
      intro n
      unfold Client.entries
      rw [← List.flatMap_append, List.take_append_drop]
    constructor
    · intro hbefore _
      have hnil := hbefore.vectors
      rw [entries_deletePartly, hsplit (deletedCollections faults x), List.self_eq_append_left] at hnil
      exact entries_eq_nil_iff.mp hnil
    · intro hspared
      refine ⟨rfl, rfl, ?_⟩
      rw [entries_deletePartly, hsplit (deletedCollections faults x),
        entries_eq_nil_iff.mpr (hspared hreaches)]
      rfl

end Endpoint

/-! ## Two failures -/

/-- An entry of the sample document. -/
def sampleVector : Record ℚ where
  id := "tenant_7_ab_0"
  document := "Total revenues were 25.2 billion"
  embedding := [1, 0]
  metadata := Dict.ofList [("document_id", .str (vectorDocumentId 7 3)), ("tenant_id", .int 7)]

/-- The sample document is indexed: a row, one upload directory, one entry. -/
def sampleIndexed : Stores ℚ String where
  documents := [{ sampleDocument with status := .indexed }]
  tasks := []
  uploads := fun _ => ⟨[("3-x", .directory "tesla Q3.pdf")], List.nodup_singleton _⟩
  client := ⟨[⟨"financial_reports", [sampleVector], List.nodup_singleton _⟩]⟩

/-- The vector store is down. -/
def storeDown : Faults := ⟨fun _ => some "00", some 0, none, none⟩

/-- The vectors are deleted, and the commit of the row delete raises. -/
def commitFails : Faults := ⟨fun _ => some "00", none, some "database is locked", none⟩

theorem storeDown_undone :
    (deleteKnowledgeDocument storeDown sampleRequest sampleIndexed).1 =
      .error 503 "Unable to delete document vectors." ∧
    AsBefore sampleRequest sampleIndexed
      (deleteKnowledgeDocument storeDown sampleRequest sampleIndexed).2 := by
  have hresponse : (deleteKnowledgeDocument storeDown sampleRequest sampleIndexed).1 =
      .error 503 "Unable to delete document vectors." := by decide +kernel
  refine ⟨hresponse, (all_or_nothing_iff storeDown sampleRequest sampleIndexed ?_ ?_).mpr ?_⟩
  · intro id
    rw [hresponse]
    simp
  · rw [hresponse]
    decide
  · -- the delete fails before its first collection
    intro _ c hc
    exact absurd hc List.not_mem_nil

/-- Row and directory are back, the entry is lost. -/
theorem commit_failure_loses_vectors :
    (deleteKnowledgeDocument commitFails sampleRequest sampleIndexed).1 = .raised "database is locked" ∧
    ¬ AsBefore sampleRequest sampleIndexed
      (deleteKnowledgeDocument commitFails sampleRequest sampleIndexed).2 := by
  refine ⟨by decide +kernel, ?_⟩
  intro hbefore
  have hlength := congrArg List.length hbefore.vectors
  revert hlength
  decide +kernel

end FinancialRag.Api.Deletion
