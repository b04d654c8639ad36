/-
  The handler of a retrieval step: `_retrieve_handler` of `core/core_engine.py`, the executor of
  `core/retrieval_tool_adapter.py` and the request checks of `agent/tools/retrieval_contract.py`.

  The handler asks the retrieval tool, the tool the retriever, and what comes back is read from the
  tool's output.  The tenant is the caller's at every stage: the step has no say in it.  So evidence is
  an extract of a passage that the store returned for the caller's tenant or, where the caller may see
  it, the public one (`Grounded`, `retrieveHandler_grounded`).

  The world is what the service does between calls: the store may change, and every request that reaches
  the retriever is noted.
-/
import FinancialRag.Agent.ToolBoundary
import FinancialRag.Agent.ToolCalling

set_option linter.unusedVariables false
set_option linter.unusedSectionVars false

namespace FinancialRag.Agent

open FinancialRag.Storage FinancialRag.Retrieval FinancialMetricsTool

/-! ## Requests -/

/-- `RetrievalRequest`; its filters are empty, for no step of a plan has any. -/
structure RetrievalRequest where
  query : String
  tenantId : Int
  topK : Int
  company : Option String
  documentIds : List String
  includePublic : Bool

def maxQueryLength : Nat := 8000

def maxTopK : Int := 20

/-- `_normalise_document_ids`, of a list of strings. -/
def normaliseDocumentIds (T : PyText) (documentIds : List String) : Except String (List String) :=
  documentIds.mapM fun documentId =>
    if T.strip documentId = "" then .error "document_ids must contain non-empty strings"
    else .ok (T.strip documentId)

/-- The check of `top_k`. -/
def checkTopK : ParameterValue → Except String Int
  | .scalar (.int n) =>
    if 1 ≤ n ∧ n ≤ maxTopK then .ok n else .error "top_k must be an integer between 1 and 20"
  | _ => .error "top_k must be an integer between 1 and 20"

/-- The check of `company`. -/
def checkCompany (T : PyText) : Option String → Except String (Option String)
  | none => .ok none
  | some company =>
    if T.strip company = "" then .error "company must be a non-empty string when provided"
    else .ok (some (T.strip company))

/-- `RetrievalRequest.from_context`, of the context that the executor builds. -/
def fromContext (T : PyText) (scope : RequestScope) (args : StepArgs) : Except String RetrievalRequest :=
  let query := T.strip (args.query.getD "")
  if scope.tenantId < 0 then .error "a non-negative tenant_id is required on the trusted tool context"
  else if query = "" then .error "query is required"
  else if maxQueryLength < query.length then .error "query must not exceed 8000 characters"
  else do
    let topK ← checkTopK ((args.parameter "top_k").getD (.scalar (.int 4)))
    let company ← checkCompany T args.company
    let documentIds ← normaliseDocumentIds T args.documentIds
    return { query := query, tenantId := scope.tenantId, topK := topK, company := company,
             documentIds := documentIds, includePublic := scope.includePublic }

variable {F : Type}

/-- The context of `RuntimeRetrievalAdapter.retrieve`. -/
def RetrievalRequest.context (request : RetrievalRequest) : RetrievalContext F where
  question := request.query
  company := request.company
  documentIds := if request.documentIds.isEmpty then none else some request.documentIds
  topK := request.topK
  filters := .empty
  tenantId := request.tenantId
  includePublic := request.includePublic

/-! ## The tool and its executor -/

/-- A scalar of Python as a metadata value. -/
def scalarEntry : Option String × PyValue F → Option (String × Value F)
  | (some key, .none) => some (key, .none)
  | (some key, .bool b) => some (key, .bool b)
  | (some key, .int n) => some (key, .int n)
  | (some key, .float x) => some (key, .float x)
  | (some key, .str s) => some (key, .str s)
  | _ => none

/-- Evidence that was read back; the metadata of retrieved evidence are scalars. -/
def DecodedEvidence.evidence (d : DecodedEvidence F) : Evidence F where
  content := d.content
  source := .str d.source
  company := .str d.company
  confidence := d.confidence
  metadata := .ofList (d.metadata.filterMap scalarEntry)

/-- What the service is made of: the retriever, the store of the day, what `float` makes of an integer
    and `0.0`, and what a request leaves behind. -/
structure RetrievalService (F W : Type) [PyFloat F] where
  retriever : HybridRetriever F
  store : W → EmbeddingStore F
  toFloat : Int → Except String F
  zero : F
  after : W → RetrievalRequest → W

/-- The world and the requests that have reached the retriever. -/
structure ServiceWorld (W : Type) where
  world : W
  requests : List RetrievalRequest

namespace RetrievalService

variable {W : Type} [PyFloat F] (S : RetrievalService F W)

/-- `RetrievalTool.execute`, once the request is checked: its output, or its error. -/
def searchTool (world : W) (request : RetrievalRequest) : Except String (PyValue F) :=
  match retrieveEvidence S.retriever request.context (S.store world) with
  | .error _ => .error "trusted retrieval adapter failed"
  | .ok evidences => do
    let records ← normaliseEvidence S.retriever.text S.toFloat (evidences.map evidenceInput)
    return toolOutput request.query request.tenantId records

/-- `TenantRetrievalToolExecutor.execute`, once the request is checked. -/
def search (world : W) (request : RetrievalRequest) : Except String (List (Evidence F)) :=
  match S.searchTool world request with
  | .error e => .error ("tenant-scoped retrieval tool failed: " ++ e)
  | .ok output => do
    let decoded ← evidenceFromToolOutput S.toFloat S.zero output
    return decoded.map DecodedEvidence.evidence

/-- `_retrieve_handler`. -/
def retrieveHandler : StepHandler F (ServiceWorld W) :=
  fun step shared log =>
    match fromContext S.retriever.text shared.base step.args with
    | .error e => (⟨[], .error ("tenant-scoped retrieval tool failed: " ++ e)⟩, log)
    | .ok request =>
      let w := log.services
      let log' := { log with services := ⟨S.after w.world request, w.requests ++ [request]⟩ }
      match S.search w.world request with
      | .error e => (⟨[], .error e⟩, log')
      | .ok evidences => (⟨evidences, .ok (.evidences evidences)⟩, log')

end RetrievalService

/-! ## Where evidence comes from -/

/-- Metadata read back as metadata. -/
theorem filterMap_ofMetadata (m : Metadata F) : (ofMetadata m).filterMap scalarEntry = m.entries := by
  unfold ofMetadata
  rw [List.filterMap_map]
  conv_rhs => rw [← List.filterMap_some (l := m.entries)]
  apply List.filterMap_congr
  rintro ⟨key, value⟩ -
  cases value <;> rfl

theorem lookup_map_ofValue (entries : List (String × Value F)) (key : String) :
    List.lookup (some key) (entries.map fun entry => (some entry.1, ofValue entry.2)) =
      (List.lookup key entries).map ofValue := by
  induction entries with
  | nil => rfl
  | cons entry entries ih =>
    rw [List.map_cons, List.lookup_cons, List.lookup_cons]
    show (match some key == some entry.1 with | true => _ | false => _) = _
    rw [Option.some_beq_some]
    cases key == entry.1 with
    | true => rfl
    | false => exact ih

/-- An entry set to the value it has. -/
theorem set_ofMetadata {m : Metadata F} {key : String} {value : Value F} (h : m.get key = some value) :
    (ofMetadata m).set key (ofValue value) = ofMetadata m := by
  have hget : (ofMetadata m).get key = some (ofValue value) := by
    show List.lookup (some key) (ofMetadata m) = _
    rw [ofMetadata, lookup_map_ofValue]
    show (m.get key).map ofValue = _
    rw [h]
    rfl
  rw [Entries.set, hget, Option.isSome_some, if_pos rfl, ofMetadata, List.map_map]
  apply List.map_congr_left
  rintro ⟨k, v⟩ hentry
  show (if some k = some key then (some k, ofValue value) else (some k, ofValue v)) = (some k, ofValue v)
  by_cases hk : k = key
  · subst hk
    obtain rfl := Option.some.inj ((Dict.get_of_mem_entries hentry).symm.trans h)
    exact if_pos rfl
  · exact if_neg fun heq => hk (Option.some.inj heq)

/-- What is read from an evidence of the retriever: its content is stripped, its metadata are unchanged,
    and nothing was known of document, chunk and page beyond them. -/
theorem fields_of_fromValue {T : PyText} {toFloat : Int → Except String F} {e : Evidence F}
    {r : RetrievalEvidence F} (h : fromValue T toFloat (evidenceInput e) = .ok r) :
    r.content = T.strip e.content ∧ r.metadata = ofMetadata e.metadata ∧ r.documentId = none ∧
      r.chunkId = none ∧ r.page = none := by
  obtain ⟨hdocument, hchunk, hpage⟩ := EvidenceLike.absent_of_object h
  rw [evidenceInput, EvidenceLike.fromValue_object] at h
  obtain ⟨m, hm, hcontent, -, -, -, -, -, -, hjson⟩ := EvidenceLike.normalized_eq_ok.mp h
  obtain rfl := Except.ok.inj hm
  obtain ⟨text, htext, -, hstrip⟩ := requiredString_eq_ok.mp hcontent
  obtain rfl := PyValue.str.inj htext
  refine ⟨hstrip, ?_, hdocument rfl, hchunk rfl, hpage rfl⟩
  have hscalars : jsonMapping (ofMetadata e.metadata) = .ok (ofMetadata e.metadata) := jsonMapping_scalars _
  exact (Except.ok.inj (hscalars.symm.trans hjson)).symm

/-- **The metadata of an evidence come back from the tool**, where its rank is that of its record. -/
theorem get_metadata_decoded {T : PyText} {toFloat : Int → Except String F} {e : Evidence F}
    {r : RetrievalEvidence F} (h : fromValue T toFloat (evidenceInput e) = .ok r) {zero : F} {rank : Nat}
    (hrank : e.metadata.get "rank" = some (.int rank)) (key : String) :
    (decoded zero rank r).evidence.metadata.get key = e.metadata.get key := by
  obtain ⟨-, hmetadata, hdocument, hchunk, hpage⟩ := fields_of_fromValue h
  have hdecoded : (decoded zero rank r).metadata = ofMetadata e.metadata := by
    have hset : (ofMetadata e.metadata).set "rank" (.int rank) = ofMetadata e.metadata := set_ofMetadata hrank
    obtain ⟨content, filename, similarity, documentId, chunkId, page, company, metadata⟩ := r
    subst hmetadata hdocument hchunk hpage
    exact hset
  show (Dict.ofList ((decoded zero rank r).metadata.filterMap scalarEntry)).get key = _
  rw [hdecoded, filterMap_ofMetadata, Dict.ofList, Dict.get_update]
  show (e.metadata.get key).or none = _
  rw [Option.or_none]

variable [PyFloat F]

/-- **A result of a retrieval restates a record that was admitted.** -/
theorem admitted_of_mem_retrieve {R : HybridRetriever F} {ctx : RetrievalContext F}
    {store : EmbeddingStore F} {results : List (SearchResult F)} (h : retrieve R ctx store = .ok results)
    {r : SearchResult F} (hr : r ∈ results) :
    ∃ embedding d, Restates r d ∧ Admitted ctx store embedding (R.candidateK ctx) d := by
  rcases retrieve_eq_ok h with rfl | ⟨htopK, embedding, vector, -, hvector, hresults⟩
  · cases hr
  · rcases hresults with rfl | ⟨weight, hfusion⟩
    · have hmem := (PyList.slice_sublist vector ctx.topK).subset hr
      exact ⟨embedding, r, .refl r, admitted_of_mem_vectorResults hvector hmem⟩
    · obtain ⟨hrecords, -, -⟩ := reciprocalRankFusion_eq_ok (by omega) hfusion
      obtain ⟨d, hd, hrd⟩ := hrecords r hr
      rcases List.mem_append.mp hd with hd | hd
      · exact ⟨embedding, d, hrd, admitted_of_mem_vectorResults hvector hd⟩
      · obtain ⟨d', hdd', hadmitted⟩ := restates_of_mem_lexical hd
        exact ⟨embedding, d', hrd.trans hdd', hadmitted⟩

/-- The tenants a request may see. -/
def RetrievalRequest.tenants (request : RetrievalRequest) : List Int :=
  if request.includePublic && request.tenantId != 0 then [request.tenantId, 0] else [request.tenantId]

namespace RetrievalService

variable {W : Type} (S : RetrievalService F W)

/-- An evidence is an extract of a passage the store returned for a tenant the request may see: chunk
    and document are the passage's, and where a company was asked for it is the passage's too. -/
def Grounded (request : RetrievalRequest) (e : Evidence F) : Prop :=
  ∃ world embedding candidateK, ∃ t ∈ request.tenants, ∃ d,
    (S.store world).Returned embedding candidateK t d ∧ inScope t d = true ∧
    e.content = S.retriever.text.strip (extractLocalContext S.retriever.text d.content request.query 2) ∧
    e.metadata.get "chunk_id" = some (.str d.chunkId) ∧
    e.metadata.get "document_id" = some (.str d.documentId) ∧
    ∀ name, request.company = some name → (d.metadata.read "company").eq (.str name) = true

/-- Grounded evidence names its chunk. -/
theorem Grounded.chunkId {request : RetrievalRequest} {e : Evidence F} (h : S.Grounded request e) :
    ∃ chunkId, e.metadata.get "chunk_id" = some (.str chunkId) := by
  obtain ⟨world, embedding, candidateK, t, ht, d, hreturned, hscope, hcontent, hchunk, -⟩ := h
  exact ⟨d.chunkId, hchunk⟩

/-- What a search returns: the evidence of the retriever, read by the tool and read back. -/
theorem search_eq_ok {world : W} {request : RetrievalRequest} {evidences : List (Evidence F)}
    (h : S.search world request = .ok evidences) :
    ∃ results records, retrieve S.retriever request.context (S.store world) = .ok results ∧
      normaliseEvidence S.retriever.text S.toFloat
        ((results.zipIdx.map fun item => evidenceOf S.retriever.text request.context item.1 item.2).map
          evidenceInput) = .ok records ∧
      evidences = (records.zipIdx 1).map fun item => (decoded S.zero item.2 item.1).evidence := by
  unfold search searchTool at h
  cases hretrieve : retrieveEvidence S.retriever request.context (S.store world) with
  | error message =>
    rw [hretrieve] at h
    cases h
  | ok retrieved =>
    rw [hretrieve] at h
    cases hrecords : normaliseEvidence S.retriever.text S.toFloat (retrieved.map evidenceInput) with
    | error message =>
      simp only [hrecords] at h
      cases h
    | ok records =>
      simp only [hrecords, PyList.ok_bind] at h
      obtain ⟨ds, hds, h⟩ := PyList.bind_eq_ok.mp h
      rw [evidenceFromToolOutput_toolOutput] at hds
      obtain rfl := Except.ok.inj hds
      obtain rfl := Except.ok.inj h
      obtain ⟨results, hresults, hevidences⟩ := PyList.bind_eq_ok.mp hretrieve
      obtain rfl := Except.ok.inj hevidences
      exact ⟨results, records, hresults, hrecords, by rw [List.map_map]; rfl⟩

/-- **What a search returns is the retriever's evidence**, its content stripped, with its metadata. -/
theorem exists_of_mem_search {world : W} {request : RetrievalRequest} {evidences : List (Evidence F)}
    (h : S.search world request = .ok evidences) {e : Evidence F} (he : e ∈ evidences) :
    ∃ results r index, retrieve S.retriever request.context (S.store world) = .ok results ∧
      r ∈ results ∧
      e.content = S.retriever.text.strip (extractLocalContext S.retriever.text r.content request.query 2) ∧
      ∀ key, e.metadata.get key = (evidenceMetadata r index).get key := by
  obtain ⟨results, records, hresults, hrecords, rfl⟩ := S.search_eq_ok h
  obtain ⟨⟨record, rank⟩, hitem, rfl⟩ := List.mem_map.mp he
  -- the record at some place is read from the result at that place
  obtain ⟨i, hi, heq⟩ := List.getElem_of_mem hitem
  rw [List.getElem_zipIdx] at heq
  obtain ⟨hrecord, hrank⟩ := Prod.mk.inj heq
  rw [List.length_zipIdx] at hi
  have hall := List.forall₂_map_left_iff.mp (PyList.forall₂_of_mapM_eq_ok hrecords)
  have hlength := hall.length_eq
  rw [List.length_map, List.length_zipIdx] at hlength
  have hread := hall.get (i := i) (by rw [List.length_map, List.length_zipIdx]; omega) hi
  simp only [List.get_eq_getElem, List.getElem_map, List.getElem_zipIdx, hrecord] at hread
  have hi' : i < results.length := by omega
  have hplace : rank = 0 + i + 1 := by omega
  subst hplace
  exact ⟨results, results[i], 0 + i, hresults, List.getElem_mem hi', (fields_of_fromValue hread).1,
    fun key => get_metadata_decoded hread (evidenceMetadata_identity _ _).1 key⟩

/-- **Evidence of a search is grounded** in its request. -/
theorem grounded_of_search {world : W} {request : RetrievalRequest} {evidences : List (Evidence F)}
    (h : S.search world request = .ok evidences)
    (hcompany : ∀ name, request.company = some name → name ≠ "")
    {e : Evidence F} (he : e ∈ evidences) : S.Grounded request e := by
  obtain ⟨results, r, index, hresults, hr, hcontent, hmetadata⟩ := S.exists_of_mem_search h he
  obtain ⟨embedding, d, hrestates, hadmitted⟩ := admitted_of_mem_retrieve hresults hr
  obtain ⟨t, ht, hreturned, hscope⟩ := hadmitted.scope
  obtain ⟨-, hchunk, hdocument⟩ := evidenceMetadata_identity r index
  refine ⟨world, embedding, _, t, ht, d, hreturned, hscope, ?_, ?_, ?_, ?_⟩
  · rw [hcontent, hrestates.content]
  · rw [hmetadata, hchunk, hrestates.chunkId]
  · rw [hmetadata, hdocument, hrestates.documentId]
  · intro name hname
    have hallowed := hadmitted.company
    simp only [companyAllowed, RetrievalRequest.context, hname, Bool.or_eq_true, beq_iff_eq] at hallowed
    exact hallowed.resolve_left (hcompany name hname)

/-- The company of a request is not blank. -/
theorem company_ne_of_fromContext {T : PyText} {scope : RequestScope} {args : StepArgs}
    {request : RetrievalRequest} (h : fromContext T scope args = .ok request) :
    ∀ name, request.company = some name → name ≠ "" := by
  unfold fromContext at h
  dsimp only at h
  split at h
  · cases h
  split at h
  · cases h
  split at h
  · cases h
  obtain ⟨topK, -, h⟩ := PyList.bind_eq_ok.mp h
  obtain ⟨company, hcompany, h⟩ := PyList.bind_eq_ok.mp h
  obtain ⟨documentIds, -, h⟩ := PyList.bind_eq_ok.mp h
  obtain rfl := Except.ok.inj h
  show ∀ name, company = some name → name ≠ ""
  rintro name rfl
  cases hargs : args.company with
  | none =>
    rw [hargs] at hcompany
    cases hcompany
  | some given =>
    rw [hargs, checkCompany] at hcompany
    split at hcompany
    · cases hcompany
    · rename_i hne
      obtain rfl := Option.some.inj (Except.ok.inj hcompany)
      exact hne

/-- **The evidence of a retrieval step is grounded** in the request of the step. -/
theorem retrieveHandler_grounded (step : QueryStep)
    (shared : SharedContext RequestScope (StepOutput F) F) (log : ToolLog (ServiceWorld W)) :
    ∀ e ∈ (S.retrieveHandler step shared log).1.evidence,
      ∃ request, fromContext S.retriever.text shared.base step.args = .ok request ∧
        S.Grounded request e := by
  intro e he
  unfold retrieveHandler at he
  cases hrequest : fromContext S.retriever.text shared.base step.args with
  | error message =>
    rw [hrequest] at he
    cases he
  | ok request =>
    refine ⟨request, rfl, ?_⟩
    cases hsearch : S.search log.services.world request with
    | error message =>
      simp only [hrequest, hsearch] at he
      cases he
    | ok evidences =>
      simp only [hrequest, hsearch] at he
      exact S.grounded_of_search hsearch (company_ne_of_fromContext hrequest) he

end RetrievalService

end FinancialRag.Agent
