/-
  **What the lexical channel adds, and when it adds nothing.**

  The channel is SILENT when there is no corpus, when it cannot be loaded for one of the scopes, when
  the filters leave nothing of it, or when nothing in it shares a word with the query.  Then `retrieve`
  is vector-only retrieval, whatever else the store does: every early exit is the same list of lexical
  results, the empty one.
-/
import FinancialRag.Retrieval.VectorRanking

set_option linter.unusedVariables false

namespace FinancialRag.Retrieval

open FinancialRag.Storage

section Silence

variable {F : Type} [PyFloat F]

/-! ## A silent lexical channel -/

/-- A document of the corpus that passes the checks of its scope. -/
def InCorpus (ctx : RetrievalContext F) (load : Int → Except String (List (SearchResult F)))
    (d : SearchResult F) : Prop :=
  ∃ t ∈ ctx.tenantScopes, ∃ documents, load t = .ok documents ∧
    d ∈ applyFilters ctx (applyTenantScope documents t)

/-- The ways in which the lexical channel has nothing to say. -/
inductive LexicalSilent (R : HybridRetriever F) (ctx : RetrievalContext F) (store : EmbeddingStore F) :
    Prop where
  | absent (h : store.lexicalCorpus = none)
  | raises {load : Int → Except String (List (SearchResult F))} {t : Int} {message : String}
      (h : store.lexicalCorpus = some load) (ht : t ∈ ctx.tenantScopes) (hload : load t = .error message)
  | empty {load : Int → Except String (List (SearchResult F))} (h : store.lexicalCorpus = some load)
      (hempty : ∀ d, ¬ InCorpus ctx load d)
  | unrelated {load : Int → Except String (List (SearchResult F))} (h : store.lexicalCorpus = some load)
      (hwords : ∀ d, InCorpus ctx load d → ∀ word ∈ tokenize R.text (R.query ctx),
        word ∉ tokenize R.text d.content)

/-- The results of the lexical channel. -/
def HybridRetriever.lexicalResults (R : HybridRetriever F) (ctx : RetrievalContext F)
    (store : EmbeddingStore F) : List (SearchResult F) :=
  bm25Search R.okapi R.text (R.query ctx) ((loadLexicalCorpus R.text ctx store).getD [])
    (R.candidateK ctx)

theorem bm25Search_nil (okapi : Okapi F) (T : PyText) (query : String) (topK : Int) :
    bm25Search okapi T query [] topK = [] := by
  unfold bm25Search
  simp

/-- **Without a shared word there are no candidates**, whatever the scores. -/
theorem bm25Search_eq_nil {okapi : Okapi F} {T : PyText} {query : String}
    {documents : List (SearchResult F)}
    (hwords : ∀ d ∈ documents, ∀ word ∈ tokenize T query, word ∉ tokenize T d.content) (topK : Int) :
    bm25Search okapi T query documents topK = [] := by
  have hcandidates : bm25Candidates okapi T (tokenize T query) documents = [] := by
    unfold bm25Candidates
    dsimp only
    rw [List.map_eq_nil_iff, List.filter_eq_nil_iff]
    intro item hitem hany
    obtain ⟨word, hword, hshared⟩ := List.any_eq_true.mp hany
    have hmem := List.mem_of_mem_filter (List.fst_mem_of_mem_zipIdx hitem)
    exact hwords item.1 hmem word hword (List.contains_iff_mem.mp hshared)
  unfold bm25Search
  split
  · rfl
  · dsimp only
    split
    · rfl
    · rw [hcandidates]
      unfold PyList.slice
      split <;> simp [PyList.sorted]

/-- What the corpus holds passed the checks. -/
theorem inCorpus_of_mem_loadLexicalCorpus {T : PyText} {ctx : RetrievalContext F}
    {store : EmbeddingStore F} {load : Int → Except String (List (SearchResult F))}
    (hload : store.lexicalCorpus = some load) {d : SearchResult F}
    (hd : d ∈ (loadLexicalCorpus T ctx store).getD []) : InCorpus ctx load d := by
  unfold loadLexicalCorpus at hd
  rw [hload] at hd
  dsimp only at hd
  split at hd
  · exact absurd hd List.not_mem_nil
  · rename_i perScope hscopes
    have hmerged := PyList.mem_sorted.mp (deduplicate_subset T _ hd)
    obtain ⟨found, hfound, hmem⟩ := List.mem_flatten.mp hmerged
    obtain ⟨t, ht, hloaded⟩ := PyList.exists_of_mem_mapM_eq_ok hscopes hfound
    obtain ⟨documents, hdocuments, hkept⟩ := PyList.bind_eq_ok.mp hloaded
    cases hkept
    exact ⟨t, ht, documents, hdocuments, hmem⟩

/-- One scope that raises leaves no corpus, even after another scope was read. -/
theorem loadLexicalCorpus_of_raises {T : PyText} {ctx : RetrievalContext F} {store : EmbeddingStore F}
    {load : Int → Except String (List (SearchResult F))} (hload : store.lexicalCorpus = some load)
    {t : Int} (ht : t ∈ ctx.tenantScopes) {message : String} (hraises : load t = .error message) :
    loadLexicalCorpus T ctx store = none := by
  unfold loadLexicalCorpus
  rw [hload]
  dsimp only
  split
  · rfl
  · rename_i perScope hscopes
    obtain ⟨found, _, hscope⟩ := PyList.exists_of_forall₂ (PyList.forall₂_of_mapM_eq_ok hscopes) ht
    rw [scopedCorpus, hraises] at hscope
    cases hscope

/-- **A silent channel has no results.** -/
theorem lexicalResults_of_silent {R : HybridRetriever F} {ctx : RetrievalContext F}
    {store : EmbeddingStore F} (h : LexicalSilent R ctx store) : R.lexicalResults ctx store = [] := by
  unfold HybridRetriever.lexicalResults
  cases h with
  | absent h =>
    have hcorpus : loadLexicalCorpus R.text ctx store = none := by
      unfold loadLexicalCorpus
      rw [h]
    rw [hcorpus]
    exact bm25Search_nil _ _ _ _
  | raises h ht hload =>
    rw [loadLexicalCorpus_of_raises h ht hload]
    exact bm25Search_nil _ _ _ _
  | empty h hempty =>
    exact bm25Search_eq_nil
      (fun d hd => absurd (inCorpus_of_mem_loadLexicalCorpus h hd) (hempty d)) _
  | unrelated h hwords =>
    exact bm25Search_eq_nil (fun d hd => hwords d (inCorpus_of_mem_loadLexicalCorpus h hd)) _

/-- **`retrieve`, by its channels.** -/
theorem retrieve_eq (R : HybridRetriever F) {ctx : RetrievalContext F} (htopK : 0 < ctx.topK)
    (store : EmbeddingStore F) :
    retrieve R ctx store =
      (do
        let embedding ← R.embedQuery (R.query ctx)
        let vector ← vectorResults R.text ctx store embedding (R.candidateK ctx)
        if !R.config.enabled || PyFloat.eq R.config.lexicalWeight ((0 : Int) : F)
            || (R.lexicalResults ctx store).isEmpty then
          return PyList.slice vector ctx.topK
        else
          reciprocalRankFusion R.text R.config vector (R.lexicalResults ctx store) ctx.topK
            (effectiveLexicalWeight R.config (R.query ctx) ctx.question)) := by
  unfold retrieve HybridRetriever.lexicalResults HybridRetriever.query HybridRetriever.candidateK
  rw [if_neg (not_le.mpr htopK)]
  dsimp only
  congr 1
  funext embedding
  congr 1
  funext vector
  cases hoff : !R.config.enabled || PyFloat.eq R.config.lexicalWeight ((0 : Int) : F) with
  | true => rfl
  | false =>
    -- an empty corpus has no lexical results
    cases (loadLexicalCorpus R.text ctx store).getD [] with
    | nil =>
      rw [bm25Search_nil]
      rfl
    | cons d documents => rfl

theorem retrieve_of_topK_nonpos (R : HybridRetriever F) {ctx : RetrievalContext F} (htopK : ctx.topK ≤ 0)
    (store : EmbeddingStore F) : retrieve R ctx store = .ok [] := by
  unfold retrieve
  exact if_pos htopK

/-- Without lexical results the configuration of the fusion is not read. -/
theorem retrieve_of_no_lexical {R : HybridRetriever F} {ctx : RetrievalContext F}
    {store : EmbeddingStore F} (h : R.lexicalResults ctx store = []) :
    retrieve R ctx store = retrieve R.vectorOnly ctx store := by
  rcases le_or_gt ctx.topK 0 with htopK | htopK
  · rw [retrieve_of_topK_nonpos R htopK, retrieve_of_topK_nonpos R.vectorOnly htopK]
  · rw [retrieve_eq R htopK, retrieve_eq R.vectorOnly htopK, h]
    congr 1
    funext embedding
    congr 1
    funext vector
    rw [if_pos (by simp)]
    exact (if_pos (by simp [HybridRetriever.vectorOnly])).symm

/-- **A silent lexical channel means vector-only retrieval.** -/
theorem silent_lexical_channel (R : HybridRetriever F) (ctx : RetrievalContext F)
    (store : EmbeddingStore F) (h : LexicalSilent R ctx store) :
    retrieve R ctx store = retrieve R.vectorOnly ctx store :=
  retrieve_of_no_lexical (lexicalResults_of_silent h)

end Silence

/-- A store whose corpus is there for tenant 7, and not for the public one. -/
def halfReadable : EmbeddingStore ℚ where
  similaritySearch _ _ t := .ok [sampleRecord "own" t ("confidence", .float (1 / 2))]
  lexicalCorpus := some fun t =>
    if t = 7 then .ok [sampleRecord "own" 7 ("confidence", .float (1 / 2))]
    else .error "collection not found"

/-- The corpus of the second scope cannot be read, so the first one's is not used either. -/
theorem silent_lexical_channel_sample :
    retrieve sampleRetriever (sampleContext []) halfReadable =
      retrieve sampleRetriever.vectorOnly (sampleContext []) halfReadable :=
  silent_lexical_channel sampleRetriever (sampleContext []) halfReadable
    (.raises rfl (List.mem_cons_of_mem _ List.mem_cons_self) rfl)

end FinancialRag.Retrieval
