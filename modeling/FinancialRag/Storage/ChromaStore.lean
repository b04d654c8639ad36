/-
  `storage/chroma_store.py`: the embedding store over a Chroma client.

  A client is a list of collections; a collection is a list of records whose ids are pairwise
  different, and that is part of the type.  What the repository relies on Chroma to do with its own
  data — `upsert` replaces by id, `delete(where)` removes the matching records — is modelled as the
  documented effect on that list.  HOW Chroma ranks a query and in which order it returns records is
  not the repository's: `ChromaEngine` leaves both arbitrary.

  Writing side: `addDocuments`, `deleteDocument`.  Reading side: `similaritySearch`, `lexicalCorpus`.
-/
import FinancialRag.Storage.VectorModels

set_option linter.unusedVariables false

namespace FinancialRag.Storage

variable {F : Type}

structure Record (F : Type) where
  id : String
  document : String
  embedding : List F
  metadata : Metadata F

structure Collection (F : Type) where
  name : String
  records : List (Record F)
  idsNodup : (records.map Record.id).Nodup

structure Client (F : Type) where
  collections : List (Collection F)

/-! ## Where clauses -/

/-- `{"tenant_id": tenant}`. -/
def Record.ofTenant (r : Record F) (tenant : Int) : Bool :=
  match r.metadata.get "tenant_id" with
  | some (.int n) => n == tenant
  | _ => false

/-- `{"document_id": {"$eq": documentId}}`. -/
def Record.ofDocument (r : Record F) (documentId : String) : Bool :=
  match r.metadata.get "document_id" with
  | some (.str s) => s == documentId
  | _ => false

/-! ## Writing -/

/-- One record of an `upsert`: replace the record of that id, or append. -/
def upsertRecord (new : Record F) : List (Record F) → List (Record F)
  | [] => [new]
  | r :: rest => if r.id = new.id then new :: rest else r :: upsertRecord new rest

theorem ids_upsertRecord (new : Record F) (rs : List (Record F)) :
    (upsertRecord new rs).map Record.id =
      if new.id ∈ rs.map Record.id then rs.map Record.id else rs.map Record.id ++ [new.id] := by
  induction rs with
  | nil => rfl
  | cons r rs ih =>
    by_cases h : r.id = new.id
    · simp [upsertRecord, h]
    · have h' : new.id ≠ r.id := fun hc => h hc.symm
      simp only [upsertRecord, if_neg h, List.map_cons, ih, List.mem_cons, h', false_or]
      split <;> rfl

/-- `collection.upsert`. -/
def Collection.upsert (c : Collection F) (new : Record F) : Collection F where
  name := c.name
  records := upsertRecord new c.records
  idsNodup := by
    rw [ids_upsertRecord]
    split
    · exact c.idsNodup
    · rename_i h
      refine List.nodup_append.mpr ⟨c.idsNodup, List.nodup_singleton _, ?_⟩
      intro a ha b hb
      obtain rfl : b = new.id := List.mem_singleton.mp hb
      rintro rfl
      exact h ha

def Collection.upsertAll (c : Collection F) (new : List (Record F)) : Collection F :=
  new.foldl Collection.upsert c

/-- `collection.delete(where)`. -/
def Collection.delete (c : Collection F) (p : Record F → Bool) : Collection F where
  name := c.name
  records := c.records.filter fun r => !p r
  idsNodup := c.idsNodup.sublist (List.filter_sublist.map Record.id)

/-- `client.get_or_create_collection`, followed by `f` on it. -/
def Client.withCollection (client : Client F) (name : String) (f : Collection F → Collection F) :
    Client F :=
  if client.collections.any (·.name == name) then
    ⟨client.collections.map fun c => if c.name == name then f c else c⟩
  else ⟨client.collections ++ [f ⟨name, [], List.nodup_nil⟩]⟩

/-- `create_collection`. -/
def createCollection (client : Client F) (name : String) : Client F := client.withCollection name id

/-- The metadata `add_documents` stores: the document's own keys win over the two it adds. -/
def storedMetadata (d : VectorDocument F) : Metadata F :=
  (Dict.ofList [("document_id", .str d.documentId), ("company", .str d.company)]).update
    d.metadata.entries

def VectorDocument.record (d : VectorDocument F) : Record F where
  id := d.chunkId
  document := d.content
  embedding := d.embedding
  metadata := storedMetadata d

/-- `str(document.metadata.get("collection", "default"))`. -/
def VectorDocument.collectionName [PyFloat F] (d : VectorDocument F) : String :=
  match d.metadata.get "collection" with
  | some v => v.text
  | none => "default"

/-- `documents_by_collection`. -/
def documentsByCollection [PyFloat F] (docs : List (VectorDocument F)) :
    Dict String (List (VectorDocument F)) :=
  docs.foldl (fun by_ d => by_.set d.collectionName (((by_.get d.collectionName).getD []) ++ [d]))
    Dict.empty

/-- `add_documents`: one upsert for each collection named. -/
def addDocuments [PyFloat F] (client : Client F) (docs : List (VectorDocument F)) : Client F :=
  (documentsByCollection docs).entries.foldl
    (fun client group =>
      client.withCollection group.1 (·.upsertAll (group.2.map VectorDocument.record)))
    client

/-- `delete_document`: in every collection, the records of this tenant AND this document. -/
def deleteDocument (client : Client F) (documentId : String) (tenantId : Int) : Client F :=
  ⟨client.collections.map (·.delete fun r => r.ofTenant tenantId && r.ofDocument documentId)⟩

/-- Some collection holds a vector of this tenant and document. -/
def Client.holds (client : Client F) (tenantId : Int) (documentId : String) : Bool :=
  client.collections.any fun c => c.records.any fun r => r.ofTenant tenantId && r.ofDocument documentId

/-- **After a delete nothing of the document is left.** -/
theorem holds_deleteDocument (client : Client F) (documentId : String) (tenantId : Int) :
    (deleteDocument client documentId tenantId).holds tenantId documentId = false := by
  simp only [Client.holds, deleteDocument, List.any_eq_false, List.mem_map]
  rintro c ⟨c₀, _, rfl⟩
  simp only [Collection.delete, Bool.not_eq_true, List.any_eq_false, List.mem_filter]
  rintro r ⟨_, hr⟩
  rw [Bool.not_eq_true'] at hr
  rw [hr]

/-- Deleting a document never brings back another one. -/
theorem holds_deleteDocument_of_not {client : Client F} {tenant tenant' : Int} {doc doc' : String}
    (h : client.holds tenant doc = false) :
    (deleteDocument client doc' tenant').holds tenant doc = false := by
  simp only [Client.holds, deleteDocument, List.any_eq_false, List.mem_map] at h ⊢
  rintro c ⟨c₀, hc₀, rfl⟩
  have hnone := h c₀ hc₀
  simp only [Bool.not_eq_true, List.any_eq_false] at hnone ⊢
  intro r hr
  exact hnone r (List.mem_of_mem_filter hr)

/-! ## Reading -/

/-- What Chroma decides: the ranked answer to a query and the order of a `get`, of one collection
    under a tenant clause (`none`: no clause). -/
structure ChromaEngine (F : Type) where
  query : Collection F → Option Int → List F → Int → List (Record F × F)
  get : Collection F → Option Int → List (Record F)

variable [PyFloat F]

/-- One hit of `similarity_search`; a record without `document_id` raises `KeyError`. -/
def toHit (hit : Record F × F) : Except String (SearchResult F) :=
  let metadata := hit.1.metadata.set "score_semantics" (.str "distance")
  match metadata.get "document_id" with
  | none => .error "Search failed: 'document_id'"
  | some documentId =>
    .ok { documentId := documentId.text, chunkId := hit.1.id, score := hit.2,
          content := hit.1.document, metadata := metadata }

/-- `similarity_search`. -/
def similaritySearch (E : ChromaEngine F) (client : Client F) (queryEmbedding : List F) (topK : Int)
    (tenantId : Option Int) : Except String (List (SearchResult F)) := do
  let results ← (client.collections.flatMap fun c => E.query c tenantId queryEmbedding topK).mapM toHit
  return PyList.slice (PyList.sorted (fun a b => PyFloat.lt a.score b.score) results) topK

/-- One record of `lexical_corpus`; without a document id or content it is skipped. -/
def toLexical (r : Record F) : Option (SearchResult F) :=
  let documentId := r.metadata.read "document_id"
  if documentId.truthy && r.document != "" then
    some { documentId := documentId.text, chunkId := r.id, score := ((0 : Int) : F),
           content := r.document, metadata := r.metadata }
  else none

/-- `lexical_corpus`. -/
def lexicalCorpus (E : ChromaEngine F) (client : Client F) (tenantId : Option Int) :
    List (SearchResult F) :=
  PyList.sorted SearchResult.idLt
    ((client.collections.flatMap fun c => E.get c tenantId).filterMap toLexical)

end FinancialRag.Storage
