/-
  Re-indexing a document: any number of attempts at its task, each stopped anywhere, then one that
  completes.

  The handler deletes by METADATA (tenant and document id) and inserts by CHUNK ID (tenant, content hash,
  position).  What makes the two speak of the same entries is that a content hash is one document's only,
  per tenant: `InStep` says so of the records that are in the store, `Documents.Table` of the rows.

  1. **Names.**  A chunk id is read back in one way (`chunkIdOf_inj`), and two rows never share one.
  2. **What an attempt does to the store.**  Four kinds of change (`Wrote`), a delete and an upsert stopped
     half-way among them.  None touches an entry of another document, none brings identities out of step.
  3. **The attempt that completes** leaves one entry for each chunk, whatever it found.
-/
import FinancialRag.Api.Knowledge

set_option linter.unusedVariables false

namespace FinancialRag.Tasks

open Machine
open FinancialRag.Storage
open FinancialRag.Api

/-! ## Names -/

/-- The id of a chunk in the vector store. -/
def chunkIdOf (tenantId : Int) (identity : String) (index : Nat) : String :=
  s!"tenant_{tenantId}_{identity}_{index}"

/-- What the chunk ids of a document are built from: the content hash, where there is one. -/
def Document.chunkIdentity (d : Document) : String :=
  (d.contentSha256.filter (· ≠ "")).getD (vectorDocumentId d.tenantId d.id)

/-- The document id its entries carry. -/
def Document.vectorId (d : Document) : String := vectorDocumentId d.tenantId d.id

/-- A task of the document, as an upload creates it. -/
structure TaskOf (d : Document) (task : Task) : Prop where
  tenant : task.tenantId = d.tenantId
  document : task.payload.documentId = some d.id
  hash : task.payload.contentSha256 = d.contentSha256

/-- The documents table: `id` is the primary key, `(tenant_id, content_sha256)` is unique, and a hash is a
    hexadecimal text. -/
structure Table (documents : List Document) : Prop where
  key : ∀ d ∈ documents, ∀ d' ∈ documents, d.id = d'.id → d = d'
  hash : ∀ d ∈ documents, ∀ d' ∈ documents, d.tenantId = d'.tenantId →
    d.contentSha256 = d'.contentSha256 → d.contentSha256 ≠ none → d = d'
  hex : ∀ d ∈ documents, ∀ sha, d.contentSha256 = some sha → '_' ∉ sha.toList

theorem chunkIdOf_inj {t t' : Int} {h h' : String} {i i' : Nat}
    (heq : chunkIdOf t h i = chunkIdOf t' h' i') : t = t' ∧ h = h' ∧ i = i' := by
  have hchars : ∀ (t : Int) (h : String) (i : Nat), (chunkIdOf t h i).toList =
      "tenant_".toList ++ ((toString t).toList ++ '_' :: (h.toList ++ '_' :: i.repr.toList)) := by
    intro t h i
    show (toString "tenant_" ++ toString t ++ toString "_" ++ toString h ++ toString "_" ++
      toString i).toList = _
    simp only [String.toList_append, List.append_assoc]
    rfl
  have hdigits : ∀ n : Nat, '_' ∉ n.repr.toList :=
    fun n hmem => absurd (PyText.isDigit_of_mem_repr hmem) (by decide)
  have hlists := congrArg String.toList heq
  rw [hchars, hchars] at hlists
  obtain ⟨htenant, hrest⟩ := PyText.append_cons_inj (PyText.underscore_notMem_toString t)
    (PyText.underscore_notMem_toString t') (List.append_cancel_left hlists)
  obtain ⟨hidentity, hindex⟩ := PyText.append_cons_inj_right (hdigits i) (hdigits i') hrest
  exact ⟨PyText.int_toString_injective (String.toList_injective htenant),
    String.toList_injective hidentity, PyText.repr_injective (String.toList_injective hindex)⟩

theorem toList_vectorDocumentId (tenantId id : Int) : (vectorDocumentId tenantId id).toList =
    ("tenant_".toList ++ (toString tenantId).toList ++ "_document".toList) ++
      '_' :: (toString id).toList := by
  show (toString "tenant_" ++ toString tenantId ++ toString "_document_" ++ toString id).toList = _
  simp only [String.toList_append, List.append_assoc]
  rfl

theorem vectorDocumentId_inj {t t' id id' : Int}
    (heq : vectorDocumentId t id = vectorDocumentId t' id') : id = id' := by
  have hlists := congrArg String.toList heq
  rw [toList_vectorDocumentId, toList_vectorDocumentId] at hlists
  obtain ⟨_, hid⟩ := PyText.append_cons_inj_right (PyText.underscore_notMem_toString id)
    (PyText.underscore_notMem_toString id') hlists
  exact PyText.int_toString_injective (String.toList_injective hid)

/-- **A chunk identity is one row's only**, per tenant. -/
theorem Table.eq_of_chunkIdentity {documents : List Document} (h : Table documents) {d d' : Document}
    (hd : d ∈ documents) (hd' : d' ∈ documents) (htenant : d.tenantId = d'.tenantId)
    (hidentity : d.chunkIdentity = d'.chunkIdentity) : d = d' := by
  have hunderscore : '_' ∈ (vectorDocumentId d.tenantId d.id).toList ∧
      '_' ∈ (vectorDocumentId d'.tenantId d'.id).toList := by
    rw [toList_vectorDocumentId, toList_vectorDocumentId]
    exact ⟨List.mem_append_right _ List.mem_cons_self, List.mem_append_right _ List.mem_cons_self⟩
  unfold Document.chunkIdentity at hidentity
  cases hsha : d.contentSha256.filter (· ≠ "") with
  | none =>
    cases hsha' : d'.contentSha256.filter (· ≠ "") with
    | none =>
      rw [hsha, hsha'] at hidentity
      exact h.key d hd d' hd' (vectorDocumentId_inj hidentity)
    | some sha' =>
      rw [hsha, hsha'] at hidentity
      obtain rfl : vectorDocumentId d.tenantId d.id = sha' := hidentity
      exact absurd hunderscore.1 (h.hex d' hd' _ (Option.filter_eq_some_iff.mp hsha').1)
  | some sha =>
    have hcol := (Option.filter_eq_some_iff.mp hsha).1
    cases hsha' : d'.contentSha256.filter (· ≠ "") with
    | none =>
      rw [hsha, hsha'] at hidentity
      obtain rfl : sha = vectorDocumentId d'.tenantId d'.id := hidentity
      exact absurd hunderscore.2 (h.hex d hd _ hcol)
    | some sha' =>
      rw [hsha, hsha'] at hidentity
      obtain rfl : sha = sha' := hidentity
      have hcol' := (Option.filter_eq_some_iff.mp hsha').1
      exact h.hash d hd d' hd' htenant (hcol.trans hcol'.symm) (by rw [hcol]; exact Option.some_ne_none _)

/-! ## The documents of a batch -/

section Batch

variable {F : Type} {T : PyText} {cfg : EmbeddingConfig} {task : Task} {d : Document}

theorem docId_of_taskOf (h : TaskOf d task) : docId T task = d.vectorId := by
  unfold docId Document.vectorId
  rw [h.document, h.tenant]

theorem contentHash_getD_of_taskOf (h : TaskOf d task) :
    (contentHash task).getD (docId T task) = d.chunkIdentity := by
  rw [docId_of_taskOf h]
  unfold contentHash Document.chunkIdentity
  rw [h.hash]
  rfl

theorem chunkId_chunkDocument (h : TaskOf d task) (c : DocumentChunk) (row : List F) :
    (chunkDocument T cfg task c row).chunkId = chunkIdOf d.tenantId d.chunkIdentity c.chunkIndex := by
  show s!"tenant_{task.tenantId}_{(contentHash task).getD (docId T task)}_{c.chunkIndex}" = _
  rw [contentHash_getD_of_taskOf h, h.tenant]
  rfl

theorem documentId_chunkDocument (T : PyText) (cfg : EmbeddingConfig) (task : Task) (c : DocumentChunk)
    (row : List F) : (chunkDocument T cfg task c row).documentId = docId T task := by
  unfold chunkDocument
  rfl

theorem metadata_chunkDocument (T : PyText) (cfg : EmbeddingConfig) (task : Task) (c : DocumentChunk)
    (row : List F) : (chunkDocument T cfg task c row).metadata = chunkMetadata T cfg task c := by
  rw [chunkDocument]

/-- The metadata of a chunk name its collection and its tenant, and leave the document id to the store. -/
theorem get_chunkMetadata (T : PyText) (cfg : EmbeddingConfig) (task : Task) (c : DocumentChunk) :
    (chunkMetadata (F := F) T cfg task c).get "collection" = some (.str "financial_reports") ∧
    (chunkMetadata (F := F) T cfg task c).get "tenant_id" = some (.int task.tenantId) ∧
    (chunkMetadata (F := F) T cfg task c).get "document_id" = none := by
  unfold chunkMetadata Dict.ofList
  cases contentHash task with
  | none =>
    refine ⟨Dict.get_update_of_mem ?_ ?_ _, Dict.get_update_of_mem ?_ ?_ _,
      (Dict.get_update_of_not_mem _ _ _ ?_).trans rfl⟩
    all_goals simp
  | some sha =>
    refine ⟨Dict.get_update_of_mem ?_ ?_ _, Dict.get_update_of_mem ?_ ?_ _,
      (Dict.get_update_of_not_mem _ _ _ ?_).trans rfl⟩
    all_goals simp

/-- **The ids of a batch are as different as the positions of its chunks.** -/
theorem nodup_chunkIds (h : TaskOf d task) {chunks : List DocumentChunk} {rows : List (List F)}
    (hlength : rows.length = chunks.length) (hnodup : (chunks.map DocumentChunk.chunkIndex).Nodup) :
    ((chunkDocuments T cfg task chunks rows).map VectorDocument.chunkId).Nodup := by
  have hids : (chunkDocuments T cfg task chunks rows).map VectorDocument.chunkId =
      (chunks.map DocumentChunk.chunkIndex).map (chunkIdOf d.tenantId d.chunkIdentity) := by
    unfold chunkDocuments
    rw [List.map_zipWith, List.map_map]
    induction chunks generalizing rows with
    | nil => rfl
    | cons c chunks ih =>
      cases rows with
      | nil => cases hlength
      | cons row rows =>
        rw [List.zipWith_cons_cons, List.map_cons, chunkId_chunkDocument h]
        rw [ih (Nat.succ.inj hlength) (List.nodup_cons.mp hnodup).2]
        rfl
  rw [hids]
  exact hnodup.map fun i j hij => (chunkIdOf_inj hij).2.2

variable [PyFloat F]

/-- A vector document under the names of this row. -/
structure OfDocument (d : Document) (v : VectorDocument F) : Prop where
  collection : v.collectionName = "financial_reports"
  isOf : v.record.isOf d.tenantId d.vectorId = true
  chunkId : ∃ i, v.chunkId = chunkIdOf d.tenantId d.chunkIdentity i

theorem ofDocument_chunkDocument (h : TaskOf d task) (c : DocumentChunk) (row : List F) :
    OfDocument d (chunkDocument T cfg task c row) := by
  obtain ⟨hcollection, htenant, hdocument⟩ := get_chunkMetadata (F := F) T cfg task c
  rw [← metadata_chunkDocument T cfg task c row] at hcollection htenant hdocument
  refine ⟨?_, ?_, c.chunkIndex, chunkId_chunkDocument h c row⟩
  · unfold VectorDocument.collectionName
    rw [hcollection]
    rfl
  · have hisOf := isOf_record htenant hdocument
    rwa [documentId_chunkDocument, docId_of_taskOf h, h.tenant] at hisOf

theorem ofDocument_of_mem {chunks : List DocumentChunk} {rows : List (List F)} {v : VectorDocument F}
    (h : TaskOf d task) (hv : v ∈ chunkDocuments T cfg task chunks rows) : OfDocument d v := by
  unfold chunkDocuments at hv
  rw [← List.map_uncurry_zip_eq_zipWith] at hv
  obtain ⟨⟨c, row⟩, _, rfl⟩ := List.mem_map.mp hv
  exact ofDocument_chunkDocument h c row

end Batch

/-! ## Attempts -/

/-- What an external operation of an attempt answers; a write of the vector store may also stop half-way,
    and raise. -/
inductive AttemptInput (F : Type) where
  | handler (a : DocInput F)
  /-- `delete_document` has been through the first `n` collections -/
  | deletesPartly (n : Nat) (error : String)
  /-- `add_documents` has written the first `n` documents -/
  | addsPartly (n : Nat) (error : String)

section Attempts

variable {F : Type}

/-- The handler, with writes of the vector store that may stop half-way. -/
def attemptStep [PyFloat F] (T : PyText) (cfg : EmbeddingConfig) (task : Task) (s : DocPc F × DocStores F)
    (input : AttemptInput F) : Option (DocPc F × DocStores F) :=
  match s.1, input with
  | pc, .handler a => (docStep T cfg pc a task s.2).map fun m => (m.next, m.stores)
  | .deleting _, .deletesPartly n error =>
    some (.failing error true,
      { s.2 with client := deletePartly s.2.client n (docId T task) task.tenantId })
  | .adding docs, .addsPartly n error =>
    some (.failing error true, { s.2 with client := addDocuments s.2.client (docs.take n) })
  | _, _ => none

/-- Any number of attempts at tasks of the document, one after the other, each from its beginning to
    wherever it stops.  Only the vector store is handed on: row, file and usage may have changed. -/
inductive Attempts [PyFloat F] (d : Document) : Client F → Client F → Prop
  | none (client : Client F) : Attempts d client client
  | more {client : Client F} {T : PyText} {cfg : EmbeddingConfig} {task : Task} {x y : DocStores F}
      {inputs : List (AttemptInput F)} {pc : DocPc F} :
      Attempts d client x.client → TaskOf d task →
      Run (attemptStep T cfg task) Always (.loading, x) inputs (pc, y) → Attempts d client y.client

/-! ## What an attempt has made of its inputs -/

/-- The batch was built of chunks that were loaded and rows that were computed. -/
def Built (T : PyText) (cfg : EmbeddingConfig) (task : Task) (inputs : List (AttemptInput F))
    (docs : List (VectorDocument F)) : Prop :=
  ∃ chunks rows, .handler (.loads chunks) ∈ inputs ∧ .handler (.embeds rows) ∈ inputs ∧
    rows.length = chunks.length ∧ docs = chunkDocuments T cfg task chunks rows

/-- What a control point holds was made of the inputs so far. -/
def Linked (T : PyText) (cfg : EmbeddingConfig) (task : Task) (inputs : List (AttemptInput F)) :
    DocPc F → Prop
  | .chunked chunks | .embedding chunks => .handler (.loads chunks) ∈ inputs
  | .embedded docs | .opening docs | .building docs | .deleting docs | .adding docs =>
    Built T cfg task inputs docs
  | _ => True

theorem Built.snoc {T : PyText} {cfg : EmbeddingConfig} {task : Task}
    {inputs : List (AttemptInput F)} {docs : List (VectorDocument F)} 
    (h : Built T cfg task inputs docs) (a : AttemptInput F) :
    Built T cfg task (inputs ++ [a]) docs := by
  obtain ⟨chunks, rows, hloads, hembeds, hlength, hdocs⟩ := h
  exact ⟨chunks, rows, List.mem_append_left _ hloads, List.mem_append_left _ hembeds, hlength, hdocs⟩

/-- Right before the upsert. -/
def DocPc.cleared : DocPc F → Bool
  | .adding _ => true
  | _ => false

/-- Past the upsert. -/
def DocPc.stored : DocPc F → Bool
  | .succeeding _ => true
  | pc => pc.committed

/-- How far the attempt is with the document's entries: none is left right before the upsert, and past it
    they are the batch. -/
structure Progress (T : PyText) (cfg : EmbeddingConfig) (task : Task) (d : Document)
    (inputs : List (AttemptInput F)) (s : DocPc F × DocStores F) : Prop where
  cleared : s.1.cleared = true → s.2.client.entries (Record.isOf d.tenantId d.vectorId) = []
  stored : s.1.stored = true → ∃ docs, Built T cfg task inputs docs ∧
    ((docs.map VectorDocument.chunkId).Nodup →
      (s.2.client.entries (Record.isOf d.tenantId d.vectorId)).Perm
        (docs.map fun v => ("financial_reports", v.record)))

theorem Progress.of_not {T : PyText} {cfg : EmbeddingConfig} {task : Task} {d : Document}
    {inputs : List (AttemptInput F)} {t : DocPc F × DocStores F} (hcleared : t.1.cleared = false)
    (hstored : t.1.stored = false) : Progress T cfg task d inputs t :=
  ⟨fun hc => absurd hc (by rw [hcleared]; exact Bool.false_ne_true),
    fun hs => absurd hs (by rw [hstored]; exact Bool.false_ne_true)⟩

theorem Progress.keep {T : PyText} {cfg : EmbeddingConfig} {task : Task} {d : Document}
    {inputs : List (AttemptInput F)} {s t : DocPc F × DocStores F}
    (h : Progress T cfg task d inputs s) (a : AttemptInput F) (hs : s.1.stored = true)
    (hcleared : t.1.cleared = false) (hclient : t.2.client = s.2.client) :
    Progress T cfg task d (inputs ++ [a]) t := by
  refine ⟨fun hc => absurd hc (by rw [hcleared]; exact Bool.false_ne_true), fun _ => ?_⟩
  obtain ⟨docs, hbuilt, hperm⟩ := h.stored hs
  rw [hclient]
  exact ⟨docs, hbuilt.snoc a, hperm⟩

/-! ## What an attempt does to the store -/

variable [PyFloat F]

/-- One change of the store by an attempt at the document. -/
inductive Wrote (d : Document) : Client F → Client F → Prop
  | kept (client : Client F) : Wrote d client client
  | opened (client : Client F) : Wrote d client (createCollection client "financial_reports")
  | deleted (client : Client F) (n : Nat) : Wrote d client (deletePartly client n d.vectorId d.tenantId)
  | added (client : Client F) (docs : List (VectorDocument F)) (h : ∀ v ∈ docs, OfDocument d v) :
      Wrote d client (addDocuments client docs)

/-- The ids in the store are in step with its metadata: a record under a chunk id of a row is of that
    row. -/
def InStep (documents : List Document) (client : Client F) : Prop :=
  ∀ d ∈ documents, client.AllIn "financial_reports" fun r =>
    (∃ i, r.id = chunkIdOf d.tenantId d.chunkIdentity i) → r.isOf d.tenantId d.vectorId = true

variable {documents : List Document} {d : Document} {before after : Client F}

theorem Wrote.nodup_names (h : Wrote d before after) (hnames : before.names.Nodup) :
    after.names.Nodup := by
  cases h with
  | kept => exact hnames
  | opened => exact nodup_names_withCollection (fun _ => rfl) hnames
  | deleted n =>
    rw [names_deletePartly]
    exact hnames
  | added docs hdocs => exact nodup_names_addDocuments (fun v hv => (hdocs v hv).collection) hnames

/-- **A change keeps the identities in step.** -/
theorem Wrote.inStep (h : Wrote d before after) (htable : Table documents) (hd : d ∈ documents)
    (hstep : InStep documents before) : InStep documents after := by
  intro d' hd'
  have hall := hstep d' hd'
  cases h with
  | kept => exact hall
  | opened => exact allIn_withCollection hall fun _ hc => hc
  | deleted n => exact allIn_deletePartly hall
  | added docs hdocs =>
    refine allIn_addDocuments (fun v hv => (hdocs v hv).collection) hall ?_
    rintro v hv ⟨i, hid⟩
    -- the id is of the row that is indexed, so this is the row
    obtain ⟨j, hj⟩ := (hdocs v hv).chunkId
    obtain ⟨htenant, hidentity, _⟩ := chunkIdOf_inj (hj.symm.trans hid)
    obtain rfl := htable.eq_of_chunkIdentity hd hd' htenant hidentity
    exact (hdocs v hv).isOf

/-- **A change leaves the entries of every other document.** -/
theorem Wrote.entries_of_ne (h : Wrote d before after) (hd : d ∈ documents)
    (hstep : InStep documents before) {tenant : Int} {doc : String}
    (hne : (tenant, doc) ≠ (d.tenantId, d.vectorId)) :
    after.entries (Record.isOf tenant doc) = before.entries (Record.isOf tenant doc) := by
  have hother : ∀ r : Record F, r.isOf d.tenantId d.vectorId = true → r.isOf tenant doc = false := by
    intro r hr
    rw [Bool.eq_false_iff]
    intro hr'
    obtain ⟨rfl, rfl⟩ := isOf_unique hr' hr
    exact hne rfl
  cases h with
  | kept => rfl
  | opened => exact entries_createCollection before _ _
  | deleted n =>
    refine entries_deletePartly_of_disjoint ?_
    intro r hr
    rw [Bool.eq_false_iff]
    intro hr'
    rw [hother r hr'] at hr
    cases hr
  | added docs hdocs =>
    refine entries_addDocuments (fun v hv => (hdocs v hv).collection)
      (fun v hv => hother _ (hdocs v hv).isOf) ?_
    intro c hc hname r hr v hv hid
    obtain ⟨i, hi⟩ := (hdocs v hv).chunkId
    exact hother r (hstep d hd c hc hname r hr ⟨i, hid.trans hi⟩)

/-! ## The steps of an attempt -/

variable {T : PyText} {cfg : EmbeddingConfig} {task : Task} {inputs : List (AttemptInput F)}
  {s t : DocPc F × DocStores F} {a : AttemptInput F}

theorem Built.ofDocument {docs : List (VectorDocument F)} (h : Built T cfg task inputs docs)
    (htask : TaskOf d task) : ∀ v ∈ docs, OfDocument d v := by
  obtain ⟨chunks, rows, _, _, _, rfl⟩ := h
  exact fun v hv => ofDocument_of_mem htask hv

/-- The ways a step of an attempt can go. -/
theorem attemptStep_cases (h : attemptStep T cfg task s a = some t) :
    (∃ b m, a = .handler b ∧ DocMove T cfg task s.2 s.1 b m ∧ t = (m.next, m.stores)) ∨
    (∃ docs n error, s.1 = .deleting docs ∧ t = (.failing error true,
      { s.2 with client := deletePartly s.2.client n (docId T task) task.tenantId })) ∨
    (∃ docs n error, s.1 = .adding docs ∧ t = (.failing error true,
      { s.2 with client := addDocuments s.2.client (docs.take n) })) := by
  obtain ⟨pc, x⟩ := s
  unfold attemptStep at h
  dsimp only at h
  split at h
  · rename_i b
    obtain ⟨m, hm, rfl⟩ := Option.map_eq_some_iff.mp h
    exact Or.inl ⟨b, m, rfl, docStep_move hm, rfl⟩
  · rename_i docs n error
    injection h with h
    exact Or.inr (Or.inl ⟨docs, n, error, rfl, h.symm⟩)
  · rename_i docs n error
    injection h with h
    exact Or.inr (Or.inr ⟨docs, n, error, rfl, h.symm⟩)
  · cases h

theorem linked_step (hlinked : Linked T cfg task inputs s.1) (h : attemptStep T cfg task s a = some t) :
    Linked T cfg task (inputs ++ [a]) t.1 := by
  obtain ⟨pc, x⟩ := s
  rcases attemptStep_cases h with ⟨b, m, rfl, hmove, rfl⟩ | ⟨docs, n, error, _, rfl⟩ |
    ⟨docs, n, error, _, rfl⟩
  · cases hmove with
    | chunk hfile =>
      dsimp only
      split
      · trivial
      · exact List.mem_append_right _ (List.mem_singleton.mpr rfl)
    | chunkDone => exact List.mem_append_left _ hlinked
    | embed =>
      dsimp only
      split
      · trivial
      · rename_i chunks rows hlength
        exact ⟨chunks, rows, List.mem_append_left _ hlinked,
          List.mem_append_right _ (List.mem_singleton.mpr rfl), not_not.mp hlength, rfl⟩
    | embedDone | openStore | buildDone | delete => exact Built.snoc hlinked _
    | load | locate | size | fail =>
      dsimp only
      split <;> trivial
    | _ => trivial
  · trivial
  · trivial

/-- **A step changes the store in one of the four ways.** -/
theorem wrote_of_step (htask : TaskOf d task) (hlinked : Linked T cfg task inputs s.1)
    (h : attemptStep T cfg task s a = some t) : Wrote d s.2.client t.2.client := by
  obtain ⟨pc, x⟩ := s
  rcases attemptStep_cases h with ⟨b, m, rfl, hmove, rfl⟩ | ⟨docs, n, error, _, rfl⟩ |
    ⟨docs, n, error, hpc, rfl⟩
  · cases hmove with
    | openStore => exact .opened _
    | delete =>
      have hdelete := Wrote.deleted (d := d) x.client x.client.collections.length
      rwa [deletePartly_all, ← htask.tenant, ← docId_of_taskOf (T := T) htask] at hdelete
    | add => exact .added _ _ (Built.ofDocument hlinked htask)
    | _ => exact .kept _
  · have hdelete := Wrote.deleted (d := d) x.client n
    rwa [← htask.tenant, ← docId_of_taskOf (T := T) htask] at hdelete
  · obtain rfl : pc = .adding docs := hpc
    exact .added _ _ fun v hv => Built.ofDocument hlinked htask v (List.mem_of_mem_take hv)

/-! ## The attempt that completes -/

theorem progress_step (htask : TaskOf d task) (hnames : s.2.client.names.Nodup)
    (hlinked : Linked T cfg task inputs s.1) (hprogress : Progress T cfg task d inputs s)
    (h : attemptStep T cfg task s a = some t) : Progress T cfg task d (inputs ++ [a]) t := by
  obtain ⟨pc, x⟩ := s
  rcases attemptStep_cases h with ⟨b, m, rfl, hmove, rfl⟩ | ⟨docs, n, error, _, rfl⟩ |
    ⟨docs, n, error, _, rfl⟩
  · cases hmove with
    | delete =>
      refine ⟨fun _ => ?_, fun hs => absurd hs Bool.false_ne_true⟩
      show (deleteDocument x.client (docId T task) task.tenantId).entries _ = []
      rw [docId_of_taskOf htask, htask.tenant]
      exact entries_deleteDocument _ _ _
    | add =>
      rename_i docs now
      refine ⟨fun hc => absurd hc Bool.false_ne_true, fun _ => ⟨docs, Built.snoc hlinked _, ?_⟩⟩
      intro hnodup
      have hof := Built.ofDocument hlinked htask
      exact perm_entries_addDocuments hnames (hprogress.cleared rfl) (fun v hv => (hof v hv).collection)
        hnodup fun v hv => (hof v hv).isOf
    | succeed | mark | recordDocument | recordEmbedding | recordVector =>
      exact hprogress.keep _ rfl rfl rfl
    | load | locate | size | fail | chunk | embed =>
      refine .of_not ?_ ?_
      all_goals
        dsimp only
        split <;> rfl
    | _ => exact .of_not rfl rfl
  · exact .of_not rfl rfl
  · exact .of_not rfl rfl

/-- What holds all through an attempt. -/
structure AttemptInv (T : PyText) (cfg : EmbeddingConfig) (task : Task) (d : Document)
    (inputs : List (AttemptInput F)) (s : DocPc F × DocStores F) : Prop where
  linked : Linked T cfg task inputs s.1
  names : s.2.client.names.Nodup
  progress : Progress T cfg task d inputs s

theorem attemptInv_run {x : DocStores F} (htask : TaskOf d task) (hnames : x.client.names.Nodup)
    (hrun : Run (attemptStep T cfg task) Always (.loading, x) inputs t) :
    AttemptInv T cfg task d inputs t := by
  refine hrun.history (I := AttemptInv T cfg task d) ?_ ⟨trivial, hnames, .of_not rfl rfl⟩
  intro past s a t h _ hstep
  exact ⟨linked_step h.linked hstep, (wrote_of_step htask h.linked hstep).nodup_names h.names,
    progress_step htask h.names h.linked h.progress hstep⟩

/-- The store is as it was for everybody but this document. -/
structure Framed (documents : List Document) (d : Document) (start client : Client F) : Prop where
  inStep : InStep documents client
  others : ∀ tenant doc, (tenant, doc) ≠ (d.tenantId, d.vectorId) →
    client.entries (Record.isOf tenant doc) = start.entries (Record.isOf tenant doc)

theorem Framed.wrote {start : Client F} (h : Framed documents d start before)
    (htable : Table documents) (hd : d ∈ documents) (hwrote : Wrote d before after) :
    Framed documents d start after :=
  ⟨hwrote.inStep htable hd h.inStep,
    fun tenant doc hne => (hwrote.entries_of_ne hd h.inStep hne).trans (h.others tenant doc hne)⟩

theorem framed_run {start : Client F} {x : DocStores F} (htable : Table documents) (hd : d ∈ documents)
    (htask : TaskOf d task) (hframed : Framed documents d start x.client)
    (hrun : Run (attemptStep T cfg task) Always (.loading, x) inputs t) :
    Framed documents d start t.2.client := by
  have hboth : Linked T cfg task inputs t.1 ∧ Framed documents d start t.2.client := by
    refine hrun.history (I := fun past (s : DocPc F × DocStores F) => Linked T cfg task past s.1 ∧
      Framed documents d start s.2.client) ?_ ⟨trivial, hframed⟩
    intro past s a t h _ hstep
    exact ⟨linked_step h.1 hstep, h.2.wrote htable hd (wrote_of_step htask h.1 hstep)⟩
  exact hboth.2

theorem Attempts.nodup_names {start client : Client F} (h : Attempts d start client)
    (hnames : start.names.Nodup) : client.names.Nodup := by
  induction h with
  | none => exact hnames
  | more _ htask hrun ih => exact (attemptInv_run htask ih hrun).names

theorem Attempts.framed {start client : Client F} (h : Attempts d start client) (htable : Table documents)
    (hd : d ∈ documents) (hstep : InStep documents start) : Framed documents d start client := by
  induction h with
  | none => exact ⟨hstep, fun _ _ _ => rfl⟩
  | more _ htask hrun ih => exact framed_run htable hd htask ih hrun

end Attempts

/-! ## A schedule -/

/-- Another document of the tenant. -/
def otherDocument : Document := { sampleDocument with id := 4, contentSha256 := some "cd" }

/-- A record that an attempt at a document has left. -/
def leftRecord (d : Document) (text : String) : Record ℚ where
  id := chunkIdOf d.tenantId d.chunkIdentity 0
  document := text
  embedding := [0, 1]
  metadata := Dict.ofList [("document_id", .str d.vectorId), ("tenant_id", .int d.tenantId)]

theorem isOf_leftRecord (d : Document) (text : String) :
    (leftRecord d text).isOf d.tenantId d.vectorId = true := by
  unfold Record.isOf
  rw [Bool.and_eq_true]
  exact ⟨beq_self_eq_true d.tenantId, beq_self_eq_true d.vectorId⟩

theorem table_sample : Table [sampleDocument, otherDocument] where
  key := by decide
  hash := by decide
  hex := by
    intro d hd sha hsha
    rcases List.mem_pair.mp hd with rfl | rfl
    · obtain rfl : "ab" = sha := Option.some.inj hsha
      decide
    · obtain rfl : "cd" = sha := Option.some.inj hsha
      decide

/-- What an attempt found: an entry of each document. -/
def foundClient : Client ℚ where
  collections := [⟨"financial_reports",
    [leftRecord sampleDocument "outdated", leftRecord otherDocument "other"], by decide +kernel⟩]

theorem inStep_foundClient : InStep [sampleDocument, otherDocument] foundClient := by
  have hleft : ∀ d ∈ [sampleDocument, otherDocument], ∀ d' ∈ [sampleDocument, otherDocument],
      ∀ text, (∃ i, (leftRecord d' text).id = chunkIdOf d.tenantId d.chunkIdentity i) →
        (leftRecord d' text).isOf d.tenantId d.vectorId = true := by
    rintro d hd d' hd' text ⟨i, hid⟩
    obtain ⟨htenant, hidentity, _⟩ := chunkIdOf_inj hid
    obtain rfl := table_sample.eq_of_chunkIdentity hd' hd htenant hidentity
    exact isOf_leftRecord d' text
  intro d hd c hc _ r hr
  obtain rfl := List.mem_singleton.mp hc
  rcases List.mem_pair.mp hr with rfl | rfl
  · exact hleft d hd sampleDocument (by simp) "outdated"
  · exact hleft d hd otherDocument (by simp) "other"

abbrev sampleAttempt := attemptStep (F := ℚ) .ascii ⟨"m", ""⟩ sampleDocumentTask

/-- An attempt up to its upsert, with two chunks. -/
def upToUpsert : List (AttemptInput ℚ) :=
  [.handler (.go 1), .handler (.go 2), .handler (.go 3), .handler (.go 4), .handler (.go 5),
    .handler (.loads [sampleChunk, { sampleChunk with chunkIndex := 1 }]), .handler (.go 6),
    .handler (.embeds [[1, 0], [0, 1]]), .handler (.go 7), .handler (.go 8), .handler (.go 9),
    .handler (.go 10)]

/-- An attempt with one chunk, to its end. -/
def toItsEnd : List (AttemptInput ℚ) :=
  [.handler (.go 11), .handler (.go 12), .handler (.go 13), .handler (.go 14), .handler (.go 15),
    .handler (.loads [sampleChunk]), .handler (.go 16), .handler (.embeds [[1, 0]]), .handler (.go 17),
    .handler (.go 18), .handler (.go 19), .handler (.go 20), .handler (.go 21), .handler (.go 22),
    .handler (.go 23), .handler (.go 24), .handler .usageLost, .handler (.go 25)]

end FinancialRag.Tasks
