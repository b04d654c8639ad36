/-
  **Tenant and filter safety of retrieval**, over any store.

  Nothing is assumed of the store: it may answer a call for one tenant with records of another.  The
  argument follows the data.  What a channel keeps of an answer is ADMITTED: returned by the store for
  one of the scopes, in that scope, and accepted by every filter.  Everything after that — the merge by
  relevance, the deduplications, BM25, the fusion — only picks admitted records and rewrites score and
  ANNOTATIONS: a result restates its record, equal outside seven metadata keys.  Tenant, company and
  identity are outside those keys, so they are the record's.

  A filter on one of the seven keys is the exception: it has selected the record, and the fusion has
  overwritten the value it selected by (`annotation_filter_overwritten`).
-/
import FinancialRag.Retrieval.Evidence

set_option linter.unusedVariables false

namespace FinancialRag.Retrieval

open FinancialRag.Storage

variable {F : Type}

/-! ## Results restate records -/

/-- The metadata keys BM25 and the fusion write. -/
def annotationKeys : List String :=
  ["retrieval_strategy", "score_semantics", "rrf_score", "vector_rank", "bm25_rank", "bm25_score",
    "lexical_weight"]

/-- `r` is `d` but for its score and its annotations. -/
structure Restates (r d : SearchResult F) : Prop where
  documentId : r.documentId = d.documentId
  chunkId : r.chunkId = d.chunkId
  content : r.content = d.content
  metadata : ∀ key ∉ annotationKeys, r.metadata.get key = d.metadata.get key

theorem Restates.refl (d : SearchResult F) : Restates d d := ⟨rfl, rfl, rfl, fun _ _ => rfl⟩

theorem Restates.trans {r e d : SearchResult F} (h : Restates r e) (h' : Restates e d) :
    Restates r d where
  documentId := h.documentId.trans h'.documentId
  chunkId := h.chunkId.trans h'.chunkId
  content := h.content.trans h'.content
  metadata key hkey := (h.metadata key hkey).trans (h'.metadata key hkey)

theorem Restates.read {r d : SearchResult F} (h : Restates r d) {key : String}
    (hkey : key ∉ annotationKeys) : r.metadata.read key = d.metadata.read key := by
  unfold Metadata.read
  rw [h.metadata key hkey]

/-- A restated record has the record's key. -/
theorem Restates.resultKey_eq {r d : SearchResult F} (h : Restates r d) (T : PyText) :
    resultKey T r = resultKey T d := by
  unfold resultKey
  rw [h.documentId, h.chunkId, h.content]

theorem restates_bm25Result (d : SearchResult F) (score : F) :
    Restates (bm25Result (d, score)) d := by
  refine ⟨rfl, rfl, rfl, ?_⟩
  intro key hkey
  have hscore : key ≠ "bm25_score" := fun h => hkey (h ▸ by decide)
  have hsemantics : key ≠ "score_semantics" := fun h => hkey (h ▸ by decide)
  show ((d.metadata.set "bm25_score" _).set "score_semantics" _).get key = d.metadata.get key
  rw [Dict.get_set, if_neg hsemantics, Dict.get_set, if_neg hscore]

/-! ## The fusion -/

namespace Fusion

/-- Every record the fusion holds comes from `source` and stands under its own key. -/
def RecordsFrom (T : PyText) (source : List (SearchResult F)) (f : Fusion F) : Prop :=
  ∀ key d, f.records.get key = some d → d ∈ source ∧ resultKey T d = key

theorem recordsFrom_setDefault {T : PyText} {source : List (SearchResult F)} {f f' : Fusion F}
    {d : SearchResult F} (hf : RecordsFrom T source f) (hd : d ∈ source)
    (hf' : f'.records = f.records.setDefault (resultKey T d) d) : RecordsFrom T source f' := by
  intro key e he
  rw [hf', Dict.get_setDefault] at he
  split at he
  · rename_i hkey
    cases hold : f.records.get (resultKey T d) with
    | none =>
      rw [hold] at he
      cases he
      exact ⟨hd, hkey.symm⟩
    | some d' =>
      rw [hold] at he
      cases he
      rw [hkey]
      exact hf _ _ hold
  · exact hf key e he

theorem entry_eq_ok {f : Fusion F} {key : ResultKey} {e : Entry F} (h : f.entry key = .ok e) :
    e.key = key ∧ f.records.get key = some e.record := by
  unfold entry at h
  split at h
  · rename_i record score hrecord hscore
    cases h
    exact ⟨rfl, hrecord⟩
  · cases h

/-- One channel's loop, whichever of the two it is. -/
theorem recordsFrom_foldl {T : PyText} {source : List (SearchResult F)}
    {add : Fusion F → SearchResult F × Nat → Fusion F}
    (hadd : ∀ f item, (add f item).records = f.records.setDefault (resultKey T item.1) item.1)
    (items : List (SearchResult F × Nat)) (hitems : ∀ item ∈ items, item.1 ∈ source) {f : Fusion F}
    (hf : RecordsFrom T source f) : RecordsFrom T source (items.foldl add f) := by
  induction items generalizing f with
  | nil => exact hf
  | cons item items ih =>
    have hhead := recordsFrom_setDefault hf (hitems item List.mem_cons_self) (hadd f item)
    exact ih (fun i hi => hitems i (List.mem_cons_of_mem _ hi)) hhead

/-- **The records of the fusion are the two channels'.** -/
theorem recordsFrom_build [PyFloat F] (T : PyText) (vectorWeight lexicalWeight : F) (rrfK : Int)
    (vector lexical : List (SearchResult F)) :
    RecordsFrom T (vector ++ lexical)
      (build T vectorWeight lexicalWeight rrfK vector lexical) := by
  have hstart : RecordsFrom T (vector ++ lexical) (start : Fusion F) := by
    intro key d h
    cases h
  have hvector : ∀ item ∈ vector.zipIdx 1, item.1 ∈ vector ++ lexical := by
    intro item hitem
    exact List.mem_append_left _ (List.fst_mem_of_mem_zipIdx hitem)
  have hlexical : ∀ item ∈ lexical.zipIdx 1, item.1 ∈ vector ++ lexical := by
    intro item hitem
    exact List.mem_append_right _ (List.fst_mem_of_mem_zipIdx hitem)
  exact recordsFrom_foldl (fun _ _ => rfl) _ hlexical
    (recordsFrom_foldl (fun _ _ => rfl) _ hvector hstart)

/-- **The order is an order of the keys**, each once, with its own record. -/
theorem ordered_eq_ok [PyFloat F] {f : Fusion F} {es : List (Entry F)} (h : f.ordered = .ok es) :
    (es.map Entry.key).Nodup ∧ ∀ e ∈ es, f.records.get e.key = some e.record := by
  obtain ⟨entries, hentries, hes⟩ := PyList.bind_eq_ok.mp h
  cases hes
  have hkeys : entries.map Entry.key = f.records.keys := by
    rw [PyList.map_eq_of_mapM_eq_ok hentries (fun key _ e he => (entry_eq_ok he).1), List.map_id']
  refine ⟨?_, ?_⟩
  · have hperm := (PyList.sorted_perm (entryLt (f.records.keys.length + 1)) entries).map Entry.key
    rw [hkeys] at hperm
    exact hperm.nodup_iff.mpr f.records.nodup_keys
  · intro e he
    obtain ⟨key, _, hentry⟩ := PyList.exists_of_mem_mapM_eq_ok hentries (PyList.mem_sorted.mp he)
    obtain ⟨hkey, hrecord⟩ := entry_eq_ok hentry
    rw [hkey]
    exact hrecord

end Fusion

theorem deduplicate_subset (T : PyText) (results : List (SearchResult F)) :
    deduplicate T results ⊆ results := (PyList.keepFirst_sublist _ _ _).subset

variable [PyFloat F]

theorem restates_fusedResult {lexicalByKey : Dict ResultKey (SearchResult F)}
    {maximumScore lexicalWeight : F} {e : Fusion.Entry F} {r : SearchResult F}
    (h : fusedResult lexicalByKey maximumScore lexicalWeight e = .ok r) : Restates r e.record := by
  obtain ⟨normalized, _, hr⟩ := PyList.bind_eq_ok.mp h
  cases hr
  refine ⟨rfl, rfl, rfl, ?_⟩
  intro key hkey
  exact Dict.get_update_of_not_mem _ _ _ hkey

/-! ## Admitted records -/

/-- The store returned `d` when it was asked for tenant `t`, by the search for `embedding` or in the
    lexical corpus. -/
def EmbeddingStore.Returned (store : EmbeddingStore F) (embedding : List F) (candidateK t : Int)
    (d : SearchResult F) : Prop :=
  (∃ results, store.similaritySearch embedding candidateK t = .ok results ∧ d ∈ results) ∨
  (∃ load results, store.lexicalCorpus = some load ∧ load t = .ok results ∧ d ∈ results)

/-- `d` passed the checks of `retrieve`: its scope and the filters. -/
structure Admitted (ctx : RetrievalContext F) (store : EmbeddingStore F) (embedding : List F)
    (candidateK : Int) (d : SearchResult F) : Prop where
  scope : ∃ t ∈ ctx.tenantScopes, store.Returned embedding candidateK t d ∧ inScope t d = true
  document : documentAllowed ctx d = true
  company : companyAllowed ctx d = true
  filters : filtersAllow ctx d = true

/-- What is kept of one answer is admitted. -/
theorem admitted_of_mem_applyFilters {ctx : RetrievalContext F} {store : EmbeddingStore F}
    {embedding : List F} {candidateK t : Int} {answer : List (SearchResult F)} {d : SearchResult F}
    (ht : t ∈ ctx.tenantScopes) (hreturned : d ∈ answer → store.Returned embedding candidateK t d)
    (hd : d ∈ applyFilters ctx (applyTenantScope answer t)) :
    Admitted ctx store embedding candidateK d := by
  obtain ⟨hscoped, hfilters⟩ := List.mem_filter.mp hd
  obtain ⟨hanswer, hscope⟩ := List.mem_filter.mp hscoped
  rw [Bool.and_eq_true, Bool.and_eq_true] at hfilters
  obtain ⟨⟨hdocument, hcompany⟩, hextra⟩ := hfilters
  exact ⟨⟨t, ht, hreturned hanswer, hscope⟩, hdocument, hcompany, hextra⟩

/-- The merge of the scopes keeps its members. -/
theorem mem_globallyRankVectorResults {results : List (SearchResult F)} {r : SearchResult F}
    (hr : r ∈ globallyRankVectorResults results) : r ∈ results := by
  unfold globallyRankVectorResults at hr
  dsimp only at hr
  split at hr
  · obtain ⟨item, hitem, rfl⟩ := List.mem_map.mp hr
    obtain ⟨⟨d, i⟩, hd, rfl⟩ := List.mem_map.mp (PyList.mem_sorted.mp hitem)
    exact (List.mem_zipIdx' hd).2 ▸ List.getElem_mem _
  · exact hr

/-- **The vector channel yields admitted records.** -/
theorem admitted_of_mem_vectorResults {T : PyText} {ctx : RetrievalContext F}
    {store : EmbeddingStore F} {embedding : List F} {candidateK : Int}
    {vector : List (SearchResult F)}
    (h : vectorResults T ctx store embedding candidateK = .ok vector) {r : SearchResult F}
    (hr : r ∈ vector) : Admitted ctx store embedding candidateK r := by
  obtain ⟨perScope, hscopes, hvector⟩ := PyList.bind_eq_ok.mp h
  cases hvector
  have hdedup := (PyList.slice_sublist _ _).subset hr
  have hmerged := mem_globallyRankVectorResults (deduplicate_subset T _ hdedup)
  obtain ⟨found, hfound, hmem⟩ := List.mem_flatten.mp hmerged
  obtain ⟨t, ht, hsearch⟩ := PyList.exists_of_mem_mapM_eq_ok hscopes hfound
  obtain ⟨answer, hanswer, hkept⟩ := PyList.bind_eq_ok.mp hsearch
  cases hkept
  exact admitted_of_mem_applyFilters ht (fun hd => .inl ⟨answer, hanswer, hd⟩) hmem

/-- **The lexical corpus holds admitted records.** -/
theorem admitted_of_mem_loadLexicalCorpus {T : PyText} {ctx : RetrievalContext F}
    {store : EmbeddingStore F} {embedding : List F} {candidateK : Int} {r : SearchResult F}
    (hr : r ∈ (loadLexicalCorpus T ctx store).getD []) :
    Admitted ctx store embedding candidateK r := by
  unfold loadLexicalCorpus at hr
  split at hr
  · exact absurd hr List.not_mem_nil
  · rename_i load hload
    split at hr
    · exact absurd hr List.not_mem_nil
    · rename_i perScope hscopes
      have hmerged := PyList.mem_sorted.mp (deduplicate_subset T _ hr)
      obtain ⟨found, hfound, hmem⟩ := List.mem_flatten.mp hmerged
      obtain ⟨t, ht, hloaded⟩ := PyList.exists_of_mem_mapM_eq_ok hscopes hfound
      obtain ⟨answer, hanswer, hkept⟩ := PyList.bind_eq_ok.mp hloaded
      cases hkept
      exact admitted_of_mem_applyFilters ht (fun hd => .inr ⟨load, answer, hload, hanswer, hd⟩) hmem

/-! ## What `retrieve` returns -/

/-- The result built for an entry has the entry's key. -/
theorem resultKey_fusedResult {T : PyText} {vectorWeight lexicalWeight maximumScore : F} {rrfK : Int}
    {vector lexical : List (SearchResult F)} {ordered : List (Fusion.Entry F)}
    (hordered : (Fusion.build T vectorWeight lexicalWeight rrfK vector lexical).ordered = .ok ordered)
    {lexicalByKey : Dict ResultKey (SearchResult F)} {e : Fusion.Entry F} (he : e ∈ ordered)
    {r : SearchResult F} (hr : fusedResult lexicalByKey maximumScore lexicalWeight e = .ok r) :
    resultKey T r = e.key := by
  have hrecord := (Fusion.ordered_eq_ok hordered).2 e he
  rw [(restates_fusedResult hr).resultKey_eq T]
  exact (Fusion.recordsFrom_build _ _ _ _ _ _ _ _ hrecord).2

/-- **The fusion picks records of the two channels**, at most `top_k`, no key twice. -/
theorem reciprocalRankFusion_eq_ok {T : PyText} {config : HybridRetrievalConfig F}
    {vector lexical results : List (SearchResult F)} {topK : Int} {lexicalWeight : F}
    (htopK : 0 ≤ topK)
    (h : reciprocalRankFusion T config vector lexical topK lexicalWeight = .ok results) :
    (∀ r ∈ results, ∃ d ∈ vector ++ lexical, Restates r d) ∧
    results.length ≤ topK.toNat ∧ (results.map (resultKey T)).Nodup := by
  obtain ⟨ordered, hordered, hresults⟩ := PyList.bind_eq_ok.mp h
  obtain ⟨hnodup, hrecords⟩ := Fusion.ordered_eq_ok hordered
  have hbuild := Fusion.recordsFrom_build T config.vectorWeight lexicalWeight config.rrfK vector lexical
  have hslice := PyList.slice_sublist ordered topK
  refine ⟨?_, ?_, ?_⟩
  · intro r hr
    obtain ⟨e, he, hfused⟩ := PyList.exists_of_mem_mapM_eq_ok hresults hr
    have hrecord := hrecords e (hslice.subset he)
    exact ⟨e.record, (hbuild _ _ hrecord).1, restates_fusedResult hfused⟩
  · have hlength := (PyList.forall₂_of_mapM_eq_ok hresults).length_eq
    have hle := PyList.length_slice_le htopK ordered
    omega
  · -- every entry of the slice keeps its key, so the results' keys are a sublist of the ordered ones
    have hkeys : results.map (resultKey T) = (PyList.slice ordered topK).map Fusion.Entry.key := by
      refine PyList.map_eq_of_mapM_eq_ok hresults ?_
      intro e he r hfused
      exact resultKey_fusedResult hordered (hslice.subset he) hfused
    rw [hkeys]
    exact hnodup.sublist (hslice.map _)

/-- The query that is searched for. -/
def HybridRetriever.query (R : HybridRetriever F) (ctx : RetrievalContext F) : String :=
  enrichFinancialQuery R.text ctx.question ctx.company

/-- The number of candidates asked for. -/
def HybridRetriever.candidateK (R : HybridRetriever F) (ctx : RetrievalContext F) : Int :=
  ctx.topK * R.config.candidateMultiplier

/-- The results are empty, the vector channel's, or the fusion of both channels. -/
theorem retrieve_eq_ok {R : HybridRetriever F} {ctx : RetrievalContext F} {store : EmbeddingStore F}
    {results : List (SearchResult F)} (h : retrieve R ctx store = .ok results) :
    results = [] ∨
    0 < ctx.topK ∧ ∃ embedding vector, R.embedQuery (R.query ctx) = .ok embedding ∧
      vectorResults R.text ctx store embedding (R.candidateK ctx) = .ok vector ∧
      (results = PyList.slice vector ctx.topK ∨
        ∃ weight,
          reciprocalRankFusion R.text R.config vector
            (bm25Search R.okapi R.text (R.query ctx) ((loadLexicalCorpus R.text ctx store).getD [])
              (R.candidateK ctx))
            ctx.topK weight = .ok results) := by
  unfold retrieve at h
  split at h
  · cases h
    exact .inl rfl
  · rename_i htopK
    refine .inr ⟨by omega, ?_⟩
    obtain ⟨embedding, hembedding, h⟩ := PyList.bind_eq_ok.mp h
    obtain ⟨vector, hvector, h⟩ := PyList.bind_eq_ok.mp h
    refine ⟨embedding, vector, hembedding, hvector, ?_⟩
    split at h
    · cases h
      exact .inl rfl
    · dsimp only at h
      split at h
      · cases h
        exact .inl rfl
      · exact .inr ⟨_, h⟩

/-- What a caller may rely on for one result. -/
structure Safe (R : HybridRetriever F) (ctx : RetrievalContext F) (store : EmbeddingStore F)
    (r : SearchResult F) : Prop where
  /-- it is a record the store returned to this call, which every extra filter accepts -/
  record : ∃ embedding, R.embedQuery (R.query ctx) = .ok embedding ∧
    ∃ t ∈ ctx.tenantScopes, ∃ d, store.Returned embedding (R.candidateK ctx) t d ∧
      r.documentId = d.documentId ∧ r.chunkId = d.chunkId ∧ r.content = d.content ∧
      ∀ kv ∈ ctx.filters.entries, (d.metadata.read kv.1).eq kv.2 = true
  tenant : r.metadata.read "tenant_id" = .none ∨
    (r.metadata.read "tenant_id").eq (.int ctx.tenantId) = true ∨
    ctx.includePublic = true ∧ (r.metadata.read "tenant_id").eq (.int 0) = true
  document : ∀ documentIds, ctx.documentIds = some documentIds → documentIds ≠ [] →
    r.documentId ∈ documentIds
  company : ∀ company, ctx.company = some company → company ≠ "" →
    (r.metadata.read "company").eq (.str company) = true
  filters : ∀ kv ∈ ctx.filters.entries, kv.1 ∉ annotationKeys →
    (r.metadata.read kv.1).eq kv.2 = true

/-- A tenant in one of the scopes is absent, the caller's, or the public one when asked for. -/
theorem tenant_of_inScope {ctx : RetrievalContext F} {t : Int} {d : SearchResult F}
    (ht : t ∈ ctx.tenantScopes) (hscope : inScope t d = true) :
    d.metadata.read "tenant_id" = .none ∨
    (d.metadata.read "tenant_id").eq (.int ctx.tenantId) = true ∨
    ctx.includePublic = true ∧ (d.metadata.read "tenant_id").eq (.int 0) = true := by
  unfold inScope at hscope
  split at hscope
  · rename_i hnone
    exact .inl hnone
  · right
    unfold RetrievalContext.tenantScopes at ht
    split at ht
    · rename_i hpublic
      rcases List.mem_cons.mp ht with rfl | ht
      · exact .inl hscope
      · obtain rfl : t = 0 := List.mem_singleton.mp ht
        exact .inr ⟨(Bool.and_eq_true _ _ ▸ hpublic).1, hscope⟩
    · obtain rfl : t = ctx.tenantId := List.mem_singleton.mp ht
      exact .inl hscope

/-- **A result that restates an admitted record is safe.** -/
theorem safe_of_restates {R : HybridRetriever F} {ctx : RetrievalContext F}
    {store : EmbeddingStore F} {embedding : List F} {r d : SearchResult F}
    (hembedding : R.embedQuery (R.query ctx) = .ok embedding) (hr : Restates r d)
    (hd : Admitted ctx store embedding (R.candidateK ctx) d) : Safe R ctx store r := by
  obtain ⟨t, ht, hreturned, hscope⟩ := hd.scope
  have hextra := List.all_eq_true.mp hd.filters
  have htenant := tenant_of_inScope ht hscope
  rw [← hr.read (by decide)] at htenant
  refine ⟨⟨embedding, hembedding, t, ht, d, hreturned, hr.documentId, hr.chunkId, hr.content, hextra⟩,
    htenant, ?_, ?_, ?_⟩
  · intro documentIds hids hne
    have hallowed := hd.document
    simp only [documentAllowed, hids, Option.getD_some, Bool.or_eq_true, List.isEmpty_iff] at hallowed
    rcases hallowed with hempty | hmem
    · exact absurd hempty hne
    · rw [hr.documentId]
      exact List.contains_iff_mem.mp hmem
  · intro company hcompany hne
    have hallowed := hd.company
    simp only [companyAllowed, hcompany, Bool.or_eq_true, beq_iff_eq] at hallowed
    rcases hallowed with hempty | heq
    · exact absurd hempty hne
    · rw [hr.read (by decide)]
      exact heq
  · intro kv hkv hkey
    rw [hr.read hkey]
    exact hextra kv hkv

/-- The vector channel holds no key twice. -/
theorem nodup_vectorResults {T : PyText} {ctx : RetrievalContext F} {store : EmbeddingStore F}
    {embedding : List F} {candidateK : Int} {vector : List (SearchResult F)}
    (h : vectorResults T ctx store embedding candidateK = .ok vector) :
    (vector.map (resultKey T)).Nodup := by
  obtain ⟨perScope, _, hvector⟩ := PyList.bind_eq_ok.mp h
  cases hvector
  exact (PyList.nodup_keepFirst (resultKey T) [] _).sublist ((PyList.slice_sublist _ _).map _)

/-- A lexical result restates an admitted record. -/
theorem restates_of_mem_lexical {R : HybridRetriever F} {ctx : RetrievalContext F}
    {store : EmbeddingStore F} {embedding : List F} {query : String} {candidateK : Int}
    {r : SearchResult F}
    (hr : r ∈ bm25Search R.okapi R.text query ((loadLexicalCorpus R.text ctx store).getD [])
      candidateK) :
    ∃ d, Restates r d ∧ Admitted ctx store embedding candidateK d := by
  obtain ⟨d, hd, score, rfl⟩ := mem_bm25Search hr
  exact ⟨d, restates_bm25Result d score, admitted_of_mem_loadLexicalCorpus hd⟩

/-- One evidence for each result, in the same order: rank, chunk and document are the result's. -/
def EvidenceFor (results : List (SearchResult F)) (evidences : List (Evidence F)) : Prop :=
  evidences.length = results.length ∧
  ∀ index r, results[index]? = some r → ∃ e : Evidence F, evidences[index]? = some e ∧
    e.metadata.get "rank" = some (.int (index + 1 : Nat)) ∧
    e.metadata.get "chunk_id" = some (.str r.chunkId) ∧
    e.metadata.get "document_id" = some (.str r.documentId)

theorem retrieveEvidence_of_retrieve {R : HybridRetriever F} {ctx : RetrievalContext F}
    {store : EmbeddingStore F} {results : List (SearchResult F)}
    (h : retrieve R ctx store = .ok results) :
    ∃ evidences, retrieveEvidence R ctx store = .ok evidences ∧ EvidenceFor results evidences := by
  refine ⟨results.zipIdx.map fun item => evidenceOf R.text ctx item.1 item.2, ?_, ?_, ?_⟩
  · rw [retrieveEvidence, h]
    rfl
  · rw [List.length_map, List.length_zipIdx]
  · intro index r hr
    refine ⟨evidenceOf R.text ctx r index, ?_, evidenceMetadata_identity r index⟩
    rw [List.getElem?_map, List.getElem?_zipIdx, hr, Nat.zero_add]
    rfl

/-- **Retrieval is safe over every store.** -/
theorem retrieval_safe (R : HybridRetriever F) (ctx : RetrievalContext F) (store : EmbeddingStore F)
    (results : List (SearchResult F)) (h : retrieve R ctx store = .ok results) :
    (∀ r ∈ results, Safe R ctx store r) ∧
    (results.length : Int) ≤ max 0 ctx.topK ∧
    (results.map (resultKey R.text)).Nodup ∧
    ∃ evidences, retrieveEvidence R ctx store = .ok evidences ∧ EvidenceFor results evidences := by
  have hevidence := retrieveEvidence_of_retrieve h
  rcases retrieve_eq_ok h with rfl | ⟨htopK, embedding, vector, hembedding, hvector, hresults⟩
  · exact ⟨fun r hr => absurd hr List.not_mem_nil, by simp, List.nodup_nil, hevidence⟩
  · rcases hresults with rfl | ⟨weight, hfusion⟩
    · have hslice := PyList.slice_sublist vector ctx.topK
      have hlength := PyList.length_slice_le (by omega) vector (n := ctx.topK)
      refine ⟨?_, by omega, (nodup_vectorResults hvector).sublist (hslice.map _), hevidence⟩
      intro r hr
      exact safe_of_restates hembedding (.refl r)
        (admitted_of_mem_vectorResults hvector (hslice.subset hr))
    · obtain ⟨hrecords, hlength, hnodup⟩ := reciprocalRankFusion_eq_ok (by omega) hfusion
      refine ⟨?_, by omega, hnodup, hevidence⟩
      intro r hr
      obtain ⟨d, hd, hrd⟩ := hrecords r hr
      rcases List.mem_append.mp hd with hd | hd
      · exact safe_of_restates hembedding hrd (admitted_of_mem_vectorResults hvector hd)
      · obtain ⟨d', hdd', hadmitted⟩ := restates_of_mem_lexical hd
        exact safe_of_restates hembedding (hrd.trans hdd') hadmitted

/-! ## Two retrievals in exact arithmetic -/

/-- A retriever with the default configuration, an embedding model that knows one vector and a BM25
    index that finds everything equally relevant. -/
def sampleRetriever : HybridRetriever ℚ where
  config :=
    { enabled := true, vectorWeight := 1, lexicalWeight := 1, rrfK := 60, candidateMultiplier := 4
      vectorWeight_nonneg := by decide +kernel
      lexicalWeight_nonneg := by decide +kernel
      weights_pos := by decide +kernel
      rrfK_pos := by decide
      candidateMultiplier_pos := by decide }
  text := .ascii
  embedQuery _ := .ok [1]
  okapi _ _ _ := 1

def sampleContext (filters : List (String × Value ℚ)) : RetrievalContext ℚ where
  question := "net margin"
  company := none
  documentIds := none
  topK := 5
  filters := .ofList filters
  tenantId := 7
  includePublic := true

/-- A record of document 3. -/
def passage (chunkId content : String) : SearchResult ℚ where
  documentId := "3"
  chunkId := chunkId
  score := 1
  content := content
  metadata := .empty

/-- A record of a tenant, with one more metadata entry. -/
def sampleRecord (chunkId : String) (tenant : Int) (entry : String × Value ℚ) : SearchResult ℚ where
  documentId := "3"
  chunkId := chunkId
  score := 0
  content := "net margin of " ++ chunkId
  metadata := .ofList [("tenant_id", .int tenant), entry]

/-- A store that answers every call with the same records, whoever asks. -/
def indifferentStore (records : List (SearchResult ℚ)) : EmbeddingStore ℚ where
  similaritySearch _ _ _ := .ok records
  lexicalCorpus := some fun _ => .ok records

/-- Records of the caller, of the public tenant and of a stranger. -/
def mixedRecords : List (SearchResult ℚ) :=
  [sampleRecord "stranger" 9 ("page", .int 1), sampleRecord "own" 7 ("page", .int 2),
    sampleRecord "public" 0 ("page", .int 3)]

/-- A store that ignores the tenant: the stranger's record is not returned, the other two are. -/
theorem indifferent_store_safe :
    ∃ results, retrieve sampleRetriever (sampleContext []) (indifferentStore mixedRecords) =
        .ok results ∧
      results.map SearchResult.chunkId = ["own", "public"] ∧
      ∀ r ∈ results, Safe sampleRetriever (sampleContext []) (indifferentStore mixedRecords) r := by
  have heval : (retrieve sampleRetriever (sampleContext []) (indifferentStore mixedRecords)).toOption.any
      (fun results => results.map SearchResult.chunkId == ["own", "public"]) = true := by
    decide +kernel
  obtain ⟨results, hresults, hchunks⟩ := PyList.exists_ok_of_any heval
  exact ⟨results, hresults, beq_iff_eq.mp hchunks, (retrieval_safe _ _ _ _ hresults).1⟩

/-- **A filter on an annotation does not hold of the result**: the record has the strategy that was
    asked for, the fusion overwrites it. -/
theorem annotation_filter_overwritten :
    ∃ results, retrieve sampleRetriever (sampleContext [("retrieval_strategy", .str "dense")])
        (indifferentStore [sampleRecord "own" 7 ("retrieval_strategy", .str "dense")]) =
          .ok results ∧
      ∃ r ∈ results, (r.metadata.read "retrieval_strategy").eq (.str "dense") = false := by
  have heval : (retrieve sampleRetriever (sampleContext [("retrieval_strategy", .str "dense")])
      (indifferentStore [sampleRecord "own" 7 ("retrieval_strategy", .str "dense")])).toOption.any
      (fun results => results.any fun r =>
        !(r.metadata.read "retrieval_strategy").eq (.str "dense")) = true := by
    decide +kernel
  obtain ⟨results, hresults, hany⟩ := PyList.exists_ok_of_any heval
  obtain ⟨r, hr, hne⟩ := List.any_eq_true.mp hany
  exact ⟨results, hresults, r, hr, (Bool.not_eq_true' _).mp hne⟩

end FinancialRag.Retrieval
