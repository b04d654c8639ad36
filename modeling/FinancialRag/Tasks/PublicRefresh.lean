/-
  The public knowledge base: `load_documents` of `document_loader.py` and `refresh_knowledge_base` of
  `core/core_engine.py`, over the vector store that the workers index private documents in.

  A refresh deletes by TENANT (the public one, 0) and inserts by CHUNK ID (content hash, position).  Any
  number of refreshes run next to each other and next to the attempts of the workers, and every one of them
  may stop anywhere, half-way through a write of the store too.

  **Private documents are not touched** (`refresh_leaves_private`): leave the refreshes out of a run, and what
  is left is a run that ends with the same private records in the same places.  What carries it is that the
  names of the two kinds of chunk differ, and that this is kept (`Sound`).
-/
import FinancialRag.Storage.Writes
import FinancialRag.Tasks.Reindex

set_option linter.unusedVariables false
set_option linter.unusedSectionVars false

namespace FinancialRag.Tasks

open Machine
open FinancialRag.Storage
open FinancialRag.Api

/-! ## The folder -/

/-- `path.suffix`: from the last dot, if something stands before it and after it. -/
def pathSuffix (name : String) : String :=
  let ext := name.toList.rtakeWhile (· != '.')
  if ext = [] || name.length ≤ ext.length + 1 then "" else String.ofList ('.' :: ext)

/-- `path.stem`. -/
def pathStem (name : String) : String :=
  String.ofList (name.toList.take (name.length - (pathSuffix name).length))

/-- An entry of the folder: its digest, and what `load_pdf_chunks` makes of it. -/
structure PublicFile where
  name : String
  isFile : Bool
  contentSha256 : String
  chunks : Except String (List DocumentChunk)

/-- A passage as `load_documents` describes it. -/
structure PublicChunk where
  source : String
  chunkId : Nat
  company : String
  quarter : String
  documentId : String
  text : String
  page : Int
  section_ : String
  ocrUsed : Bool
  parserVersion : String
  chunkerVersion : String
  contentSha256 : String
  deriving DecidableEq, Repr

/-- The passages of one file. -/
def publicChunks (T : PyText) (file : PublicFile) : Except String (List PublicChunk) := do
  let chunks ← file.chunks
  return chunks.map fun chunk =>
    { source := file.name, chunkId := chunk.chunkIndex, company := getCompany T file.name,
      quarter := getQuarter T file.name,
      documentId := PyText.replace (PyText.replace (T.casefold (pathStem file.name)) " " "_") "-" "_",
      text := chunk.text, page := chunk.page, section_ := chunk.section_, ocrUsed := chunk.ocrUsed,
      parserVersion := chunk.parserVersion, chunkerVersion := chunk.chunkerVersion,
      contentSha256 := file.contentSha256 }

/-- `pdf_files`, in the order of their names. -/
def pdfFiles (T : PyText) (folder : List PublicFile) : List PublicFile :=
  PyList.sorted (fun a b => decide (a.name < b.name))
    (folder.filter fun file => file.isFile && T.casefold (pathSuffix file.name) == ".pdf")

/-- `load_documents`. -/
def loadDocuments (T : PyText) (folder : List PublicFile) : Except String (List PublicChunk) := do
  let documents ← (pdfFiles T folder).mapM (publicChunks T)
  return documents.flatten

/-! ## The refresh, cut at its external operations -/

/-- `PUBLIC_TENANT_ID`. -/
def publicTenantId : Int := 0

/-- The id of a public passage in the vector store. -/
def publicChunkId (contentSha256 : String) (index : Nat) : String := s!"public_{contentSha256}_{index}"

section Refresh

variable {F : Type}

/-- The metadata of a public passage. -/
def publicMetadata (cfg : EmbeddingConfig) (chunk : PublicChunk) : Metadata F :=
  Dict.ofList
    [("source", .str chunk.source), ("quarter", .str chunk.quarter),
      ("collection", .str "financial_reports"), ("tenant_id", .int publicTenantId),
      ("page", .int chunk.page), ("section", .str chunk.section_), ("ocr_used", .bool chunk.ocrUsed),
      ("parser_version", .str chunk.parserVersion), ("chunker_version", .str chunk.chunkerVersion),
      ("embedding_model", .str cfg.model),
      ("embedding_revision", .str (if cfg.revision = "" then "unversioned" else cfg.revision)),
      ("content_sha256", .str chunk.contentSha256)]

def publicDocument (cfg : EmbeddingConfig) (chunk : PublicChunk) (embedding : List F) : VectorDocument F where
  documentId := chunk.documentId
  chunkId := publicChunkId chunk.contentSha256 chunk.chunkId
  company := chunk.company
  content := chunk.text
  embedding := embedding
  metadata := publicMetadata cfg chunk

/-- `docs`. -/
def publicDocuments (cfg : EmbeddingConfig) (chunks : List PublicChunk) (rows : List (List F)) :
    List (VectorDocument F) :=
  List.zipWith (publicDocument cfg) chunks rows

inductive RefreshPc (F : Type) where
  /-- before `load_documents` -/
  | loading
  /-- before `embed_passages` -/
  | embedding (chunks : List PublicChunk)
  /-- before `create_collection` -/
  | opening (docs : List (VectorDocument F))
  /-- before `delete_by_tenant` -/
  | deleting (docs : List (VectorDocument F))
  /-- before `add_documents` -/
  | adding (docs : List (VectorDocument F))
  | refreshed (docs : List (VectorDocument F))
  | failed (error : String)

/-- What an external operation answers. -/
inductive RefreshInput (F : Type) where
  | go
  | lists (folder : List PublicFile)
  | embeds (rows : List (List F))
  | raises (error : String)
  /-- `delete_by_tenant` has been through the first `n` collections -/
  | deletesPartly (n : Nat) (error : String)
  /-- `add_documents` has written the first `n` documents -/
  | addsPartly (n : Nat) (error : String)

/-- `refresh_knowledge_base`. -/
def refreshStep [PyFloat F] (T : PyText) (cfg : EmbeddingConfig) (client : Client F) :
    RefreshPc F → RefreshInput F → Option (RefreshPc F × Client F)
  | .loading, .lists folder =>
    match loadDocuments T folder with
    | .ok chunks => some (.embedding chunks, client)
    | .error error => some (.failed error, client)
  | .embedding chunks, .embeds rows =>
    if rows.length = chunks.length then some (.opening (publicDocuments cfg chunks rows), client)
    else some (.failed "Embedding model returned an unexpected vector count", client)
  | .opening docs, .go => some (.deleting docs, createCollection client "financial_reports")
  | .deleting docs, .go => some (.adding docs, deleteByTenant client publicTenantId)
  | .deleting _, .deletesPartly n error =>
    some (.failed error, deleteByTenantPartly client n publicTenantId)
  | .adding docs, .go => some (.refreshed docs, addDocuments client docs)
  | .adding docs, .addsPartly n error => some (.failed error, addDocuments client (docs.take n))
  | .refreshed _, _ => none
  | .failed _, _ => none
  | _, .raises error => some (.failed error, client)
  | _, _ => none

end Refresh

/-! ## Names -/

theorem toList_publicChunkId (sha : String) (i : Nat) :
    ∃ rest, (publicChunkId sha i).toList = 'p' :: rest := by
  refine ⟨"ublic_".toList ++ (sha.toList ++ '_' :: i.repr.toList), ?_⟩
  show (toString "public_" ++ toString sha ++ toString "_" ++ toString i).toList = _
  simp only [String.toList_append, List.append_assoc]
  rfl

theorem toList_chunkIdOf (t : Int) (identity : String) (i : Nat) :
    ∃ rest, (chunkIdOf t identity i).toList = 't' :: rest := by
  refine ⟨"enant_".toList ++ ((toString t).toList ++ '_' :: (identity.toList ++ '_' :: i.repr.toList)), ?_⟩
  show (toString "tenant_" ++ toString t ++ toString "_" ++ toString identity ++ toString "_" ++
    toString i).toList = _
  simp only [String.toList_append, List.append_assoc]
  rfl

/-- **No private chunk has the name of a public one.** -/
theorem chunkIdOf_ne_publicChunkId {t : Int} {identity sha : String} {i j : Nat} :
    chunkIdOf t identity i ≠ publicChunkId sha j := by
  intro heq
  obtain ⟨rest, hprivate⟩ := toList_chunkIdOf t identity i
  obtain ⟨rest', hpublic⟩ := toList_publicChunkId sha j
  rw [heq, hpublic] at hprivate
  exact absurd (List.cons.inj hprivate).1 (by decide)

/-- A public name says which passage it is, by the hash of its file and its position. -/
theorem publicChunkId_inj {sha sha' : String} {i i' : Nat}
    (heq : publicChunkId sha i = publicChunkId sha' i') : sha = sha' ∧ i = i' := by
  have hchars : ∀ (sha : String) (i : Nat), (publicChunkId sha i).toList =
      "public_".toList ++ (sha.toList ++ '_' :: i.repr.toList) := by
    intro sha i
    show (toString "public_" ++ toString sha ++ toString "_" ++ toString i).toList = _
    simp only [String.toList_append, List.append_assoc]
    rfl
  have hdigits : ∀ n : Nat, '_' ∉ n.repr.toList :=
    fun n hmem => absurd (PyText.isDigit_of_mem_repr hmem) (by decide)
  have hlists := congrArg String.toList heq
  rw [hchars, hchars] at hlists
  obtain ⟨hsha, hindex⟩ := PyText.append_cons_inj_right (hdigits i) (hdigits i')
    (List.append_cancel_left hlists)
  exact ⟨String.toList_injective hsha, PyText.repr_injective (String.toList_injective hindex)⟩

/-! ## The two kinds of document -/

section Kinds

variable {F : Type} [PyFloat F]

/-- The record has the name of a public passage. -/
def Record.publicName (r : Record F) : Prop := ∃ sha i, r.id = publicChunkId sha i

/-- A document as a refresh adds it. -/
structure PublicKind (v : VectorDocument F) : Prop where
  collection : v.collectionName = "financial_reports"
  tenant : v.record.ofTenant publicTenantId = true
  name : ∃ sha i, v.chunkId = publicChunkId sha i

/-- A document as an attempt for a tenant other than the public one adds it. -/
structure PrivateKind (v : VectorDocument F) : Prop where
  collection : v.collectionName = "financial_reports"
  tenant : v.record.ofTenant publicTenantId = false
  name : ¬ ∃ sha i, v.chunkId = publicChunkId sha i

theorem publicKind_publicDocument (cfg : EmbeddingConfig) (chunk : PublicChunk) (row : List F) :
    PublicKind (publicDocument cfg chunk row) := by
  have hget : ∀ key v, (publicMetadata (F := F) cfg chunk).get key = some v →
      (publicDocument cfg chunk row).metadata.get key = some v := fun _ _ h => h
  have hcollection : (publicMetadata (F := F) cfg chunk).get "collection" =
      some (.str "financial_reports") := Dict.get_update_of_mem (by simp) (by simp) _
  have htenant : (publicMetadata (F := F) cfg chunk).get "tenant_id" = some (.int publicTenantId) :=
    Dict.get_update_of_mem (by simp) (by simp) _
  refine ⟨?_, ?_, _, _, rfl⟩
  · unfold VectorDocument.collectionName
    rw [hget _ _ hcollection]
    rfl
  · have hstored : (publicDocument cfg chunk row).record.metadata.get "tenant_id" =
        some (.int publicTenantId) := by
      show (storedMetadata (publicDocument cfg chunk row)).get "tenant_id" = _
      unfold storedMetadata
      rw [Dict.get_update, hget _ _ htenant]
      rfl
    unfold Record.ofTenant
    rw [hstored]
    exact beq_self_eq_true _

end Kinds

/-! ## Workers and refreshes on one store -/

/-- The store, the refreshes by the request that started them, and the attempts by their worker.  The
    stores of an attempt are kept without the vector store, which is the shared one. -/
structure Shared (ι κ F : Type) where
  client : Client F
  refreshes : κ → RefreshPc F
  attempts : ι → Option (Task × DocPc F × DocStores F)

inductive SharedEvent (ι κ F : Type) where
  /-- a worker begins an attempt, whatever has become of its last one -/
  | begin (w : ι) (task : Task) (stores : DocStores F)
  | attempt (w : ι) (input : AttemptInput F)
  | refresh (k : κ) (input : RefreshInput F)

/-- An event of the workers. -/
def SharedEvent.isWork {ι κ F : Type} : SharedEvent ι κ F → Bool
  | .refresh _ _ => false
  | _ => true

section Sharing

variable {ι κ F : Type} [DecidableEq ι] [DecidableEq κ] [PyFloat F] {T : PyText} {cfg : EmbeddingConfig}

def Shared.init (client : Client F) : Shared ι κ F where
  client := client
  refreshes := fun _ => .loading
  attempts := fun _ => none

/-- The stores of an attempt without the shared one. -/
def DocStores.apart (x : DocStores F) : DocStores F := { x with client := ⟨[]⟩ }

def sharedStep (T : PyText) (cfg : EmbeddingConfig) (s : Shared ι κ F) :
    SharedEvent ι κ F → Option (Shared ι κ F)
  | .begin w task x =>
    some { s with attempts := Function.update s.attempts w (some (task, .loading, x.apart)) }
  | .attempt w input =>
    match s.attempts w with
    | none => none
    | some (task, pc, x) =>
      (attemptStep T cfg task (pc, { x with client := s.client }) input).map fun next =>
        { s with client := next.2.client,
                 attempts := Function.update s.attempts w (some (task, next.1, next.2.apart)) }
  | .refresh k input =>
    (refreshStep T cfg s.client (s.refreshes k) input).map fun next =>
      { s with client := next.2, refreshes := Function.update s.refreshes k next.1 }

/-- No attempt is for the public tenant. -/
def PrivateWork (s : Shared ι κ F) : SharedEvent ι κ F → Prop
  | .begin _ task _ => task.tenantId ≠ publicTenantId
  | _ => True

theorem publicKind_of_mem {chunks : List PublicChunk} {rows : List (List F)} {v : VectorDocument F}
    (hv : v ∈ publicDocuments cfg chunks rows) : PublicKind v := by
  unfold publicDocuments at hv
  rw [← List.map_uncurry_zip_eq_zipWith] at hv
  obtain ⟨⟨chunk, row⟩, _, rfl⟩ := List.mem_map.mp hv
  exact publicKind_publicDocument cfg chunk row

theorem privateKind_chunkDocument {task : Task} (htask : task.tenantId ≠ publicTenantId)
    (c : DocumentChunk) (row : List F) : PrivateKind (chunkDocument T cfg task c row) := by
  obtain ⟨hcollection, htenant, hdocument⟩ := get_chunkMetadata (F := F) T cfg task c
  rw [← metadata_chunkDocument T cfg task c row] at hcollection htenant hdocument
  refine ⟨?_, ?_, ?_⟩
  · unfold VectorDocument.collectionName
    rw [hcollection]
    rfl
  · have hstored : (chunkDocument T cfg task c row).record.metadata.get "tenant_id" =
        some (.int task.tenantId) := by
      show (storedMetadata (chunkDocument T cfg task c row)).get "tenant_id" = _
      unfold storedMetadata
      rw [Dict.get_update, htenant]
      rfl
    unfold Record.ofTenant
    rw [hstored]
    exact beq_eq_false_iff_ne.mpr htask
  · rintro ⟨sha, i, hid⟩
    have hprivate : (chunkDocument T cfg task c row).chunkId =
      chunkIdOf task.tenantId ((contentHash task).getD (docId T task)) c.chunkIndex := rfl
    exact chunkIdOf_ne_publicChunkId (hprivate.symm.trans hid)

theorem privateKind_of_mem {task : Task} (htask : task.tenantId ≠ publicTenantId)
    {chunks : List DocumentChunk} {rows : List (List F)} {v : VectorDocument F}
    (hv : v ∈ chunkDocuments T cfg task chunks rows) : PrivateKind v := by
  unfold chunkDocuments at hv
  rw [← List.map_uncurry_zip_eq_zipWith] at hv
  obtain ⟨⟨c, row⟩, _, rfl⟩ := List.mem_map.mp hv
  exact privateKind_chunkDocument htask c row

/-! ## What a step does to the store -/

/-- One change of the store; a delete goes through all collections, or through the first few. -/
inductive StoreChange (F : Type) where
  | keep
  | open
  | clearDocument (first : Option Nat) (documentId : String) (tenantId : Int)
  /-- `delete_by_tenant` for the public tenant -/
  | clearPublic (first : Option Nat)
  | add (docs : List (VectorDocument F))

def StoreChange.apply (client : Client F) : StoreChange F → Client F
  | .keep => client
  | .open => createCollection client "financial_reports"
  | .clearDocument none documentId tenantId => deleteDocument client documentId tenantId
  | .clearDocument (some n) documentId tenantId => deletePartly client n documentId tenantId
  | .clearPublic none => deleteByTenant client publicTenantId
  | .clearPublic (some n) => deleteByTenantPartly client n publicTenantId
  | .add docs => addDocuments client docs

/-- What a step of an attempt changes. -/
def attemptChange (T : PyText) (task : Task) : DocPc F → AttemptInput F → StoreChange F
  | .opening _, .handler (.go _) => .open
  | .deleting _, .handler (.go _) => .clearDocument none (docId T task) task.tenantId
  | .deleting _, .deletesPartly n _ => .clearDocument (some n) (docId T task) task.tenantId
  | .adding docs, .handler (.go _) => .add docs
  | .adding docs, .addsPartly n _ => .add (docs.take n)
  | _, _ => .keep

/-- **An attempt does not read the store**: it goes on in the same way whatever it holds, and the change it
    makes does not depend on it. -/
theorem attemptStep_withClient (task : Task) (pc : DocPc F) (x : DocStores F) (a : AttemptInput F)
    (client : Client F) : attemptStep T cfg task (pc, { x with client := client }) a =
      (attemptStep T cfg task (pc, x) a).map fun next =>
        (next.1, { next.2 with client := (attemptChange T task pc a).apply client }) := by
  rcases a with b | ⟨n, error⟩ | ⟨n, error⟩
  · cases b with
    | go now =>
      cases pc with
      | checking =>
        simp only [attemptStep, docStep]
        split <;> rfl
      | sizing =>
        simp only [attemptStep, docStep]
        split <;> rfl
      | _ => rfl
    | loads chunks =>
      cases pc with
      | chunking =>
        simp only [attemptStep, docStep]
        split <;> rfl
      | _ => rfl
    | _ => cases pc <;> rfl
  · cases pc <;> rfl
  · cases pc <;> rfl

/-- What a step of a refresh changes. -/
def refreshChange : RefreshPc F → RefreshInput F → StoreChange F
  | .opening _, .go => .open
  | .deleting _, .go => .clearPublic none
  | .deleting _, .deletesPartly n _ => .clearPublic (some n)
  | .adding docs, .go => .add docs
  | .adding docs, .addsPartly n _ => .add (docs.take n)
  | _, _ => .keep

theorem client_refreshStep {client : Client F} {pc : RefreshPc F} {a : RefreshInput F}
    {next : RefreshPc F × Client F} (h : refreshStep T cfg client pc a = some next) :
    next.2 = (refreshChange pc a).apply client := by
  cases pc <;> cases a <;> simp only [refreshStep, Option.some.injEq, reduceCtorEq] at h
  all_goals first
    | (subst h; rfl)
    | (split at h <;> (obtain rfl := Option.some.inj h; rfl))

/-! ## The private side of the store -/

/-- A record of a tenant. -/
def isPrivate (r : Record F) : Bool := !r.ofTenant publicTenantId

/-- The private records, collection by collection, once the one collection is open. -/
def privateView (client : Client F) : List (String × List (Record F)) :=
  (createCollection client "financial_reports").collections.map fun c => (c.name, c.records.filter isPrivate)

theorem privateView_open (client : Client F) :
    privateView (createCollection client "financial_reports") = privateView client := by
  have hcollections : (createCollection (client.withCollection "financial_reports" id)
      "financial_reports").collections = _ := collections_open_withCollection fun _ => rfl
  unfold privateView
  refine (congrArg _ hcollections).trans ?_
  rw [List.map_map]
  refine List.map_congr_left fun c _ => ?_
  show ((if c.name == "financial_reports" then id c else c).name,
    (if c.name == "financial_reports" then id c else c).records.filter isPrivate) = _
  split <;> rfl

/-- The private view after a delete. -/
theorem privateView_clear (first : Option Nat) (p : Record F → Bool) (client : Client F) :
    privateView ⟨mapFirst first (·.delete p) client.collections⟩ =
      mapFirst first (fun e => (e.1, e.2.filter fun r => !p r)) (privateView client) := by
  unfold privateView
  rw [collections_open_mapFirst]
  refine map_mapFirst first ?_ _
  intro c
  show (c.name, (c.records.filter fun r => !p r).filter isPrivate) =
    (c.name, (c.records.filter isPrivate).filter fun r => !p r)
  rw [List.filter_filter, List.filter_filter]
  simp only [Bool.and_comm]

/-- Deleting the public records leaves the private view. -/
theorem privateView_clearPublic (first : Option Nat) (client : Client F) :
    privateView ⟨mapFirst first (·.delete fun r => r.ofTenant publicTenantId) client.collections⟩ =
      privateView client := by
  unfold privateView
  rw [collections_open_mapFirst]
  refine (map_mapFirst first (g := id) ?_ _).trans (mapFirst_id first (fun _ => rfl) _)
  intro c
  show (c.name, (c.records.filter isPrivate).filter isPrivate) = (c.name, c.records.filter isPrivate)
  rw [List.filter_filter]
  simp only [Bool.and_self]

/-- The two kinds of records have different names. -/
def Apart (client : Client F) : Prop :=
  client.AllIn "financial_reports" fun r => isPrivate r = false ↔ Record.publicName r

/-- Adding private documents, seen in the private view. -/
theorem privateView_add {client : Client F} (hapart : Apart client) {docs : List (VectorDocument F)}
    (hdocs : ∀ v ∈ docs, PrivateKind v) :
    privateView (addDocuments client docs) = (privateView client).map fun e =>
      if e.1 == "financial_reports" then
        (e.1, (docs.map VectorDocument.record).foldl (fun rs x => upsertRecord x rs) e.2)
      else e := by
  have hopened : Apart (createCollection client "financial_reports") :=
    allIn_withCollection hapart fun _ h => h
  rw [addDocuments_eq fun v hv => (hdocs v hv).collection]
  split
  · rename_i hnil
    subst hnil
    refine ((List.map_congr_left fun e _ => ?_).trans (List.map_id _)).symm
    split <;> rfl
  · unfold privateView
    rw [collections_open_withCollection fun c => name_upsertAll c _, List.map_map, List.map_map]
    refine List.map_congr_left fun c hc => ?_
    show ((if c.name == "financial_reports" then c.upsertAll _ else c).name,
      (if c.name == "financial_reports" then c.upsertAll _ else c).records.filter isPrivate) =
        if c.name == "financial_reports" then (c.name, _) else (c.name, c.records.filter isPrivate)
    split
    · rename_i hname
      rw [name_upsertAll, filter_upsertAll_of_pos]
      · intro x hx
        obtain ⟨v, hv, rfl⟩ := List.mem_map.mp hx
        unfold isPrivate
        rw [(hdocs v hv).tenant]
        rfl
      · intro r hr x hx hid
        obtain ⟨v, hv, rfl⟩ := List.mem_map.mp hx
        by_contra hpublic
        have hname : Record.publicName r :=
          (hopened c hc (beq_iff_eq.mp hname) r hr).mp (Bool.eq_false_iff.mpr hpublic)
        obtain ⟨sha, i, hr⟩ := hname
        exact (hdocs v hv).name ⟨sha, i, hid.symm.trans hr⟩
    · rfl

/-- Adding public documents leaves the private view. -/
theorem privateView_addPublic {client : Client F} (hapart : Apart client) {docs : List (VectorDocument F)}
    (hdocs : ∀ v ∈ docs, PublicKind v) : privateView (addDocuments client docs) = privateView client := by
  have hopened : Apart (createCollection client "financial_reports") :=
    allIn_withCollection hapart fun _ h => h
  rw [addDocuments_eq fun v hv => (hdocs v hv).collection]
  split
  · rfl
  · unfold privateView
    rw [collections_open_withCollection fun c => name_upsertAll c _, List.map_map]
    refine List.map_congr_left fun c hc => ?_
    show ((if c.name == "financial_reports" then c.upsertAll _ else c).name,
      (if c.name == "financial_reports" then c.upsertAll _ else c).records.filter isPrivate) = _
    split
    · rename_i hname
      have hkeep : (c.upsertAll (docs.map VectorDocument.record)).entries isPrivate =
          c.entries isPrivate := by
        refine entries_upsertAll ?_ ?_
        · intro x hx
          obtain ⟨v, hv, rfl⟩ := List.mem_map.mp hx
          unfold isPrivate
          rw [(hdocs v hv).tenant]
          rfl
        · intro r hr x hx hid
          obtain ⟨v, hv, rfl⟩ := List.mem_map.mp hx
          obtain ⟨sha, i, hv⟩ := (hdocs v hv).name
          exact (hopened c hc (beq_iff_eq.mp hname) r hr).mpr ⟨sha, i, hid.trans hv⟩
      have hrecords := congrArg (List.map Prod.snd) hkeep
      unfold Collection.entries at hrecords
      rw [List.map_map, List.map_map] at hrecords
      have hid : ∀ (name : String) (l : List (Record F)),
          l.map (Prod.snd ∘ fun r => (name, r)) = l := fun name l => List.map_id l
      rw [hid, hid] at hrecords
      rw [name_upsertAll, hrecords]
    · rfl

/-! ## What is kept -/

/-- The documents that an attempt still has to add. -/
def DocPc.holds : DocPc F → List (VectorDocument F)
  | .embedded docs | .opening docs | .building docs | .deleting docs | .adding docs => docs
  | _ => []

/-- The documents that a refresh still has to add, or has added. -/
def RefreshPc.holds : RefreshPc F → List (VectorDocument F)
  | .opening docs | .deleting docs | .adding docs | .refreshed docs => docs
  | _ => []

/-- What an attempt for a private tenant holds is private. -/
theorem holds_attemptStep {task : Task} {s t : DocPc F × DocStores F} {a : AttemptInput F}
    (htask : task.tenantId ≠ publicTenantId) (hholds : ∀ v ∈ s.1.holds, PrivateKind v)
    (h : attemptStep T cfg task s a = some t) : ∀ v ∈ t.1.holds, PrivateKind v := by
  have hnone : ∀ {pc : DocPc F}, pc.holds = [] → ∀ v ∈ pc.holds, PrivateKind v := by
    intro pc hpc v hv
    rw [hpc] at hv
    cases hv
  obtain ⟨pc, x⟩ := s
  rcases attemptStep_cases h with ⟨b, m, rfl, hmove, rfl⟩ | ⟨docs, n, error, _, rfl⟩ |
    ⟨docs, n, error, _, rfl⟩
  · cases hmove with
    | embed =>
      dsimp only
      split
      · exact hnone rfl
      · exact fun v hv => privateKind_of_mem htask hv
    | embedDone | openStore | buildDone | delete => exact hholds
    | load | locate | size | fail | chunk =>
      dsimp only
      split <;> exact hnone rfl
    | _ => exact hnone rfl
  · exact hnone rfl
  · exact hnone rfl

theorem holds_refreshStep {client : Client F} {pc : RefreshPc F} {a : RefreshInput F}
    {next : RefreshPc F × Client F} (hholds : ∀ v ∈ pc.holds, PublicKind v)
    (h : refreshStep T cfg client pc a = some next) : ∀ v ∈ next.1.holds, PublicKind v := by
  have hnone : ∀ v ∈ ([] : List (VectorDocument F)), PublicKind v := fun v hv => absurd hv List.not_mem_nil
  cases pc <;> cases a <;> simp only [refreshStep, Option.some.injEq, reduceCtorEq] at h
  case embedding.embeds chunks rows =>
    split at h
    · obtain rfl := Option.some.inj h
      exact fun v hv => publicKind_of_mem hv
    · obtain rfl := Option.some.inj h
      exact hnone
  case loading.lists folder =>
    split at h
    all_goals
      obtain rfl := Option.some.inj h
      exact hnone
  all_goals
    subst h
    first
      | exact hholds
      | exact hnone

/-- A change that an attempt for a private tenant may make. -/
def StoreChange.IsPrivate : StoreChange F → Prop
  | .keep | .open | .clearDocument _ _ _ => True
  | .clearPublic _ => False
  | .add docs => ∀ v ∈ docs, PrivateKind v

/-- A change that a refresh may make. -/
def StoreChange.IsPublic : StoreChange F → Prop
  | .keep | .open | .clearPublic _ => True
  | .clearDocument _ _ _ => False
  | .add docs => ∀ v ∈ docs, PublicKind v

theorem isPrivate_attemptChange {task : Task} {pc : DocPc F} (a : AttemptInput F)
    (hholds : ∀ v ∈ pc.holds, PrivateKind v) : (attemptChange T task pc a).IsPrivate := by
  unfold attemptChange
  split
  · trivial
  · trivial
  · trivial
  · exact hholds
  · exact fun v hv => hholds v (List.mem_of_mem_take hv)
  · trivial

theorem isPublic_refreshChange {pc : RefreshPc F} (a : RefreshInput F)
    (hholds : ∀ v ∈ pc.holds, PublicKind v) : (refreshChange pc a).IsPublic := by
  unfold refreshChange
  split
  · trivial
  · trivial
  · trivial
  · exact hholds
  · exact fun v hv => hholds v (List.mem_of_mem_take hv)
  · trivial

theorem apply_clearDocument (client : Client F) (first : Option Nat) (documentId : String) (tenantId : Int) :
    (StoreChange.clearDocument first documentId tenantId).apply client =
      ⟨mapFirst first (·.delete (Record.isOf tenantId documentId)) client.collections⟩ := by
  cases first <;> rfl

theorem apply_clearPublic (client : Client F) (first : Option Nat) :
    (StoreChange.clearPublic first).apply client =
      ⟨mapFirst first (·.delete fun r => r.ofTenant publicTenantId) client.collections⟩ := by
  cases first <;> rfl

/-- **The names stay apart.** -/
theorem apart_apply {client : Client F} {change : StoreChange F} (hapart : Apart client)
    (hchange : change.IsPrivate ∨ change.IsPublic) : Apart (change.apply client) := by
  cases change with
  | keep => exact hapart
  | «open» => exact allIn_withCollection hapart fun _ h => h
  | clearDocument first documentId tenantId =>
    rw [apply_clearDocument]
    exact allIn_mapFirst first _ hapart
  | clearPublic first =>
    rw [apply_clearPublic]
    exact allIn_mapFirst first _ hapart
  | add docs =>
    rcases hchange with hprivate | hpublic
    · refine allIn_addDocuments (fun v hv => (hprivate v hv).collection) hapart ?_
      intro v hv
      unfold isPrivate
      rw [(hprivate v hv).tenant]
      exact ⟨fun h => absurd h (by decide), fun h => absurd h (hprivate v hv).name⟩
    · refine allIn_addDocuments (fun v hv => (hpublic v hv).collection) hapart ?_
      intro v hv
      unfold isPrivate
      rw [(hpublic v hv).tenant]
      exact ⟨fun _ => (hpublic v hv).name, fun _ => rfl⟩

/-- **A refresh does not change the private view.** -/
theorem privateView_apply_public {client : Client F} {change : StoreChange F} (hapart : Apart client)
    (hchange : change.IsPublic) : privateView (change.apply client) = privateView client := by
  cases change with
  | keep => rfl
  | «open» => exact privateView_open client
  | clearDocument => exact hchange.elim
  | clearPublic first =>
    rw [apply_clearPublic]
    exact privateView_clearPublic first client
  | add docs => exact privateView_addPublic hapart hchange

/-- **An attempt changes the private view in a way that depends on nothing else.** -/
theorem privateView_apply_private {client client' : Client F} {change : StoreChange F}
    (hapart : Apart client) (hapart' : Apart client') (hview : privateView client = privateView client')
    (hchange : change.IsPrivate) :
    privateView (change.apply client) = privateView (change.apply client') := by
  cases change with
  | keep => exact hview
  | «open» => exact (privateView_open client).trans (hview.trans (privateView_open client').symm)
  | clearDocument first documentId tenantId =>
    rw [apply_clearDocument, apply_clearDocument, privateView_clear, privateView_clear, hview]
  | clearPublic => exact hchange.elim
  | add docs =>
    exact (privateView_add hapart hchange).trans
      ((congrArg _ hview).trans (privateView_add hapart' hchange).symm)

/-- Every way a step can go. -/
theorem sharedStep_cases {s t : Shared ι κ F} {e : SharedEvent ι κ F} (h : sharedStep T cfg s e = some t) :
    (∃ w task x, e = .begin w task x ∧
      t = { s with attempts := Function.update s.attempts w (some (task, .loading, x.apart)) }) ∨
    (∃ w a task pc x next, e = .attempt w a ∧ s.attempts w = some (task, pc, x) ∧
      attemptStep T cfg task (pc, x) a = some next ∧
      t = { s with client := (attemptChange T task pc a).apply s.client,
                   attempts := Function.update s.attempts w (some (task, next.1, next.2.apart)) }) ∨
    (∃ k a next, e = .refresh k a ∧ refreshStep T cfg s.client (s.refreshes k) a = some next ∧
      t = { s with client := (refreshChange (s.refreshes k) a).apply s.client,
                   refreshes := Function.update s.refreshes k next.1 }) := by
  cases e with
  | begin w task x => exact Or.inl ⟨w, task, x, rfl, (Option.some.inj h).symm⟩
  | attempt w a =>
    simp only [sharedStep] at h
    split at h
    · cases h
    · rename_i task pc x hw
      rw [attemptStep_withClient, Option.map_map] at h
      obtain ⟨next, hnext, rfl⟩ := Option.map_eq_some_iff.mp h
      exact Or.inr (Or.inl ⟨w, a, task, pc, x, next, rfl, hw, hnext, rfl⟩)
  | refresh k a =>
    obtain ⟨next, hnext, rfl⟩ := Option.map_eq_some_iff.mp h
    refine Or.inr (Or.inr ⟨k, a, next, rfl, hnext, ?_⟩)
    rw [← client_refreshStep hnext]

/-- What holds all along: the names are apart, and everybody holds documents of its own kind. -/
structure Sound (s : Shared ι κ F) : Prop where
  apart : Apart s.client
  attempts : ∀ w task pc x, s.attempts w = some (task, pc, x) →
    task.tenantId ≠ publicTenantId ∧ ∀ v ∈ pc.holds, PrivateKind v
  refreshes : ∀ k, ∀ v ∈ (s.refreshes k).holds, PublicKind v

theorem sound_init {client : Client F} (hapart : Apart client) : Sound (.init client : Shared ι κ F) :=
  ⟨hapart, fun _ _ _ _ h => absurd h (Option.some_ne_none _).symm, fun _ _ h => absurd h List.not_mem_nil⟩

theorem sound_step {s t : Shared ι κ F} {e : SharedEvent ι κ F} (hs : Sound s) (hP : PrivateWork s e)
    (h : sharedStep T cfg s e = some t) : Sound t := by
  rcases sharedStep_cases h with ⟨w, task, x, rfl, rfl⟩ | ⟨w, a, task, pc, x, next, rfl, hw, hnext, rfl⟩ |
    ⟨k, a, next, rfl, hnext, rfl⟩
  · refine ⟨hs.apart, ?_, hs.refreshes⟩
    intro v task' pc' x' hv
    rcases update_cases hv with ⟨rfl, heq⟩ | ⟨_, hv⟩
    · cases heq
      exact ⟨hP, fun v hv => absurd hv List.not_mem_nil⟩
    · exact hs.attempts v task' pc' x' hv
  · obtain ⟨htask, hholds⟩ := hs.attempts w task pc x hw
    refine ⟨apart_apply hs.apart (Or.inl (isPrivate_attemptChange a hholds)), ?_, hs.refreshes⟩
    intro v task' pc' x' hv
    rcases update_cases hv with ⟨rfl, heq⟩ | ⟨_, hv⟩
    · cases heq
      exact ⟨htask, holds_attemptStep htask hholds hnext⟩
    · exact hs.attempts v task' pc' x' hv
  · refine ⟨apart_apply hs.apart (Or.inr (isPublic_refreshChange a (hs.refreshes k))), hs.attempts, ?_⟩
    intro j
    exact update_of (p := fun pc : RefreshPc F => ∀ v ∈ pc.holds, PublicKind v)
      (fun _ => holds_refreshStep (hs.refreshes k) hnext) (hs.refreshes j)

/-- Two systems that differ in their refreshes only, as far as private documents go. -/
structure SamePrivate (s t : Shared ι κ F) : Prop where
  left : Sound s
  right : Sound t
  attempts : s.attempts = t.attempts
  view : privateView s.client = privateView t.client

/-- The private records of a store, each with the collection it is in. -/
theorem entries_eq_of_privateView {client client' : Client F} (h : privateView client = privateView client')
    {p : Record F → Bool} (hp : ∀ r, p r = true → isPrivate r = true) :
    client.entries p = client'.entries p := by
  have hview : ∀ client : Client F, client.entries p =
      (privateView client).flatMap fun e => (e.2.filter p).map fun r => (e.1, r) := by
    intro client
    rw [← entries_createCollection client "financial_reports" p]
    unfold privateView Client.entries
    rw [List.flatMap_map]
    refine List.flatMap_congr fun c _ => ?_
    show (c.records.filter p).map _ = ((c.records.filter isPrivate).filter p).map _
    rw [List.filter_filter]
    congr 1
    refine List.filter_congr fun r _ => ?_
    cases hr : p r with
    | false => rfl
    | true => rw [hp r hr]; rfl
  rw [hview, hview, h]

/-- **A refresh leaves private documents alone.**  In every run of workers on private documents and of
    refreshes of the public base, each stopped anywhere and interleaved in any way: without the events of the
    refreshes it is a run too, in which every attempt stands where it stood, and which ends with the same
    private records, in the same collections and in the same order. -/
theorem refresh_leaves_private {client : Client F} (hapart : Apart client)
    {es : List (SharedEvent ι κ F)} {t : Shared ι κ F}
    (hrun : Run (sharedStep T cfg) PrivateWork (.init client) es t) :
    ∃ t', Run (sharedStep T cfg) PrivateWork (.init client) (es.filter SharedEvent.isWork) t' ∧
      t'.attempts = t.attempts ∧
      ∀ tenant ≠ publicTenantId, t.client.entries (fun r => r.ofTenant tenant) =
        t'.client.entries fun r => r.ofTenant tenant := by
  have hinit := sound_init (ι := ι) (κ := κ) hapart
  have hkeep : ∀ (s u : Shared ι κ F) (e : SharedEvent ι κ F) (s' : Shared ι κ F), SamePrivate s u →
      PrivateWork s e → e.isWork = true → sharedStep T cfg s e = some s' →
      ∃ u', PrivateWork u e ∧ sharedStep T cfg u e = some u' ∧ SamePrivate s' u' := by
    intro s u e s' hR hP hkept hstep
    have hs' := sound_step hR.left hP hstep
    rcases sharedStep_cases hstep with ⟨w, task, x, rfl, rfl⟩ |
      ⟨w, a, task, pc, x, next, rfl, hw, hnext, rfl⟩ | ⟨k, a, next, rfl, hnext, rfl⟩
    · have hstep' : sharedStep T cfg u (.begin w task x) = some
          { u with attempts := Function.update u.attempts w (some (task, .loading, x.apart)) } := rfl
      have hP' : PrivateWork u (.begin w task x : SharedEvent ι κ F) := hP
      exact ⟨_, hP', hstep', hs', sound_step hR.right hP' hstep', by rw [hR.attempts], hR.view⟩
    · have hw' : u.attempts w = some (task, pc, x) := by rw [← hR.attempts, hw]
      have hstep' : sharedStep T cfg u (.attempt w a) = some
          { u with client := (attemptChange T task pc a).apply u.client,
                   attempts := Function.update u.attempts w (some (task, next.1, next.2.apart)) } := by
        simp only [sharedStep, hw', attemptStep_withClient, hnext, Option.map_some]
        rfl
      have hP' : PrivateWork u (.attempt w a : SharedEvent ι κ F) := trivial
      refine ⟨_, hP', hstep', hs', sound_step hR.right hP' hstep', by rw [hR.attempts], ?_⟩
      obtain ⟨_, hholds⟩ := hR.left.attempts w task pc x hw
      exact privateView_apply_private hR.left.apart hR.right.apart hR.view
        (isPrivate_attemptChange a hholds)
    · cases hkept
  have hdrop : ∀ (s u : Shared ι κ F) (e : SharedEvent ι κ F) (s' : Shared ι κ F), SamePrivate s u →
      PrivateWork s e → e.isWork = false → sharedStep T cfg s e = some s' → SamePrivate s' u := by
    intro s u e s' hR hP hdropped hstep
    have hs' := sound_step hR.left hP hstep
    rcases sharedStep_cases hstep with ⟨w, task, x, rfl, rfl⟩ |
      ⟨w, a, task, pc, x, next, rfl, hw, hnext, rfl⟩ | ⟨k, a, next, rfl, hnext, rfl⟩
    · cases hdropped
    · cases hdropped
    · refine ⟨hs', hR.right, hR.attempts, ?_⟩
      exact (privateView_apply_public hR.left.apart
        (isPublic_refreshChange a (hR.left.refreshes k))).trans hR.view
  obtain ⟨t', hrun', hsame⟩ := hrun.erase SharedEvent.isWork hkeep hdrop ⟨hinit, hinit, rfl, rfl⟩
  refine ⟨t', hrun', hsame.attempts.symm, ?_⟩
  intro tenant htenant
  refine entries_eq_of_privateView hsame.view ?_
  intro r hr
  rw [isPrivate, Bool.not_eq_true', Bool.eq_false_iff]
  exact fun hpublic => htenant (ofTenant_unique hr hpublic)

end Sharing

/-! ## A schedule -/

/-- A file of two passages. -/
def sampleFile : PublicFile :=
  ⟨"Tesla Q2.pdf", true, "cafe", .ok [sampleChunk, { sampleChunk with chunkIndex := 1 }]⟩

/-- A folder with a file that is not a PDF. -/
def sampleFolder : List PublicFile := [⟨"notes.txt", true, "beef", .ok [sampleChunk]⟩, sampleFile]

def sampleRows : List (List ℚ) := [[1, 0], [0, 1]]

abbrev sampleSharing := sharedStep (ι := Nat) (κ := Nat) (F := ℚ) .ascii ⟨"m", ""⟩

/-- A refresh up to its upsert. -/
def upToAdding (k : Nat) : List (SharedEvent Nat Nat ℚ) :=
  [.refresh k (.lists sampleFolder), .refresh k (.embeds sampleRows), .refresh k .go, .refresh k .go]

/-- An attempt up to its upsert. -/
def attemptUpToUpsert : List (SharedEvent Nat Nat ℚ) :=
  .begin 5 sampleDocumentTask sampleStores :: upToUpsert.map (.attempt 5)

theorem apart_foundClient : Apart foundClient := by
  have hleft : ∀ d ∈ [sampleDocument, otherDocument], ∀ text,
      isPrivate (leftRecord d text) = false ↔ Record.publicName (leftRecord d text) := by
    intro d hd text
    have htenant : isPrivate (leftRecord d text) = true := by
      rcases List.mem_pair.mp hd with rfl | rfl <;> rfl
    rw [htenant]
    refine ⟨fun h => absurd h.symm Bool.false_ne_true, ?_⟩
    rintro ⟨sha, i, hid⟩
    exact absurd hid chunkIdOf_ne_publicChunkId
  intro c hc _ r hr
  obtain rfl := List.mem_singleton.mp hc
  rcases List.mem_pair.mp hr with rfl | rfl
  · exact hleft sampleDocument (by simp) "outdated"
  · exact hleft otherDocument (by simp) "other"

/-- A refresh and an attempt, step by step next to each other; both upserts stop after one document. -/
def interleaved : List (SharedEvent Nat Nat ℚ) :=
  attemptUpToUpsert ++ upToAdding 0 ++
    [.attempt 5 (.addsPartly 1 "lost"), .refresh 0 (.addsPartly 1 "lost")]

theorem interleaved_leaves_private :
    ∃ t t', exec sampleSharing (.init foundClient) interleaved = some t ∧
      Run sampleSharing PrivateWork (.init foundClient) (interleaved.filter SharedEvent.isWork) t' ∧
      t'.attempts = t.attempts ∧
      t.client.entries (fun r => r.ofTenant 7) = t'.client.entries fun r => r.ofTenant 7 := by
  obtain ⟨t, ht⟩ : ∃ t, exec sampleSharing (.init foundClient) interleaved = some t := ⟨_, rfl⟩
  have hprivate : ∀ e ∈ interleaved, ∀ s, PrivateWork s e := by
    intro e he s
    rcases List.mem_append.mp he with he | he
    · rcases List.mem_append.mp he with he | he
      · rcases List.mem_cons.mp he with rfl | he
        · exact show sampleDocumentTask.tenantId ≠ publicTenantId by decide
        · obtain ⟨a, _, rfl⟩ := List.mem_map.mp he
          trivial
      · simp only [upToAdding, List.mem_cons, List.not_mem_nil, or_false] at he
        rcases he with rfl | rfl | rfl | rfl <;> trivial
    · rcases List.mem_pair.mp he with rfl | rfl <;> trivial
  obtain ⟨t', hrun, hattempts, hentries⟩ := refresh_leaves_private apart_foundClient (run_of_exec ht hprivate)
  exact ⟨t, t', ht, hrun, hattempts, hentries 7 (by decide)⟩

end FinancialRag.Tasks
