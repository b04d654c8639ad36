/-
  **The vector channel alone**: how the tenant scopes are merged and where the candidates are cut.

  With the lexical channel off, `retrieve` is a pipeline over lists: the answers of the scopes, checked,
  one after the other; sorted by relevance; the first of each key; the first `top_k`.  The sort puts no
  candidate before a more relevant one, so the first of a key is its best, and nothing better than what
  is returned stands behind the cut (`vector_results_optimal`).

  The store answers with `top_k * candidate_multiplier` records BEFORE any filter is applied.  What is
  returned is the front of what the filters leave of the whole ranking, and all of it exactly when the
  store's answer holds enough matching keys (`filtered_retrieval`).
-/
import FinancialRag.Retrieval.Safety
import Mathlib.Data.Prod.Lex

set_option linter.unusedVariables false

namespace FinancialRag.Retrieval

open FinancialRag.Storage

section Pipeline

variable {F : Type} [PyFloat F]

/-- The retriever with `enabled = False`. -/
def HybridRetriever.vectorOnly (R : HybridRetriever F) : HybridRetriever F :=
  { R with config := { R.config with enabled := false } }

/-- The candidates of all scopes, checked. -/
def scopedCandidates (ctx : RetrievalContext F) (answers : List (List (SearchResult F))) :
    List (SearchResult F) :=
  (List.zipWith (fun t answer => applyFilters ctx (applyTenantScope answer t)) ctx.tenantScopes
    answers).flatten

/-- The store's answers to the scopes. -/
def Answers (R : HybridRetriever F) (ctx : RetrievalContext F) (store : EmbeddingStore F)
    (embedding : List F) (answers : List (List (SearchResult F))) : Prop :=
  List.Forall₂ (fun t answer => store.similaritySearch embedding (R.candidateK ctx) t = .ok answer)
    ctx.tenantScopes answers

theorem mapM_scopedSearch {ctx : RetrievalContext F} {store : EmbeddingStore F} {embedding : List F}
    {candidateK : Int} {scopes : List Int} {answers : List (List (SearchResult F))}
    (h : List.Forall₂ (fun t answer => store.similaritySearch embedding candidateK t = .ok answer)
      scopes answers) :
    scopes.mapM (scopedSearch ctx store embedding candidateK) =
      .ok (List.zipWith (fun t answer => applyFilters ctx (applyTenantScope answer t)) scopes
        answers) := by
  induction h with
  | nil => rfl
  | @cons t answer scopes answers hhead htail ih =>
    have hscope : scopedSearch ctx store embedding candidateK t =
        .ok (applyFilters ctx (applyTenantScope answer t)) := by
      rw [scopedSearch, hhead]
      rfl
    rw [List.mapM_cons, hscope, ih]
    rfl

/-- **The pipeline.** -/
theorem retrieve_of_disabled {R : HybridRetriever F} (hdisabled : R.config.enabled = false)
    {ctx : RetrievalContext F} {store : EmbeddingStore F} {embedding : List F}
    {answers : List (List (SearchResult F))} (hembedding : R.embedQuery (R.query ctx) = .ok embedding)
    (hanswers : Answers R ctx store embedding answers) :
    retrieve R ctx store =
      .ok ((deduplicate R.text (globallyRankVectorResults (scopedCandidates ctx answers))).take
        ctx.topK.toNat) := by
  unfold retrieve
  split
  · rename_i htopK
    rw [Int.toNat_of_nonpos htopK]
    rfl
  · rename_i htopK
    have hvector : vectorResults R.text ctx store embedding (ctx.topK * R.config.candidateMultiplier) =
        .ok (PyList.slice (deduplicate R.text (globallyRankVectorResults (scopedCandidates ctx answers)))
          (R.candidateK ctx)) := by
      unfold vectorResults
      rw [show ctx.topK * R.config.candidateMultiplier = R.candidateK ctx from rfl,
        mapM_scopedSearch hanswers]
      rfl
    have hle : ctx.topK ≤ R.candidateK ctx :=
      le_mul_of_one_le_right (by omega) R.config.candidateMultiplier_pos
    unfold HybridRetriever.query at hembedding
    dsimp only
    rw [hembedding]
    show (vectorResults R.text ctx store embedding (ctx.topK * R.config.candidateMultiplier) >>= _) = _
    rw [hvector, hdisabled]
    show Except.ok (PyList.slice (PyList.slice _ _) _) = _
    rw [PyList.slice_slice (by omega) hle, PyList.slice, if_pos (by omega)]

end Pipeline

/-! ## The merge of the scopes -/

/-- What a record exposes as its relevance. -/
def relevance (r : SearchResult ℚ) : ℚ := (vectorRelevance r).getD 0

/-- Where an item belongs in the order of `_globally_rank_vector_results`. -/
def relevancePlace (item : (SearchResult ℚ × Nat) × Option ℚ) : Bool ×ₗ ℚ ×ₗ ℕ :=
  toLex (item.2.isNone, toLex (-item.2.getD 0, item.1.2))

/-- **The key of the sort, as an order.** -/
theorem relevanceLt_iff (a b : (SearchResult ℚ × Nat) × Option ℚ) :
    relevanceLt a b = true ↔ relevancePlace a < relevancePlace b := by
  have hless : (!a.2.isNone && b.2.isNone) = decide (a.2.isNone < b.2.isNone) := by
    cases a.2.isNone <;> cases b.2.isNone <;> rfl
  have hend : PyList.tupleLt [] = true ↔ False := by simp [PyList.tupleLt]
  have hindex := PyList.tupleLt_cons_iff hend (a := a.1.2) (b := b.1.2)
  unfold relevanceLt
  dsimp only [PyFloat.eq, PyFloat.lt]
  rw [hless, beq_eq_decide, beq_eq_decide, PyList.tupleLt_cons_iff (PyList.tupleLt_cons_iff hindex)]
  unfold relevancePlace
  rw [Prod.Lex.toLex_lt_toLex, Prod.Lex.toLex_lt_toLex]
  simp

theorem map_fst_ranked {F : Type} [PyFloat F] (results : List (SearchResult F)) :
    (results.zipIdx.map fun item => (item, vectorRelevance item.1)).map (fun item => item.1.1) =
      results := by
  rw [List.map_map]
  exact List.zipIdx_map_fst 0 results

theorem globallyRankVectorResults_perm (results : List (SearchResult ℚ)) :
    (globallyRankVectorResults results).Perm results := by
  unfold globallyRankVectorResults
  dsimp only
  split
  · have hperm := (PyList.sorted_perm relevanceLt
      (results.zipIdx.map fun item => (item, vectorRelevance item.1))).map fun item => item.1.1
    rwa [map_fst_ranked] at hperm
  · exact List.Perm.refl _

/-- **No candidate stands before a more relevant one.** -/
theorem pairwise_globallyRankVectorResults {results : List (SearchResult ℚ)}
    (hall : ∀ r ∈ results, (vectorRelevance r).isSome = true) :
    (globallyRankVectorResults results).Pairwise fun a b => relevance b ≤ relevance a := by
  have hranked : ∀ item ∈ results.zipIdx.map (fun item => (item, vectorRelevance item.1)),
      item.2 = vectorRelevance item.1.1 ∧ item.2.isSome = true := by
    intro item hitem
    obtain ⟨pair, hpair, rfl⟩ := List.mem_map.mp hitem
    exact ⟨rfl, hall _ (List.fst_mem_of_mem_zipIdx hpair)⟩
  unfold globallyRankVectorResults
  dsimp only
  split
  · refine List.pairwise_map.mpr ((PyList.pairwise_sorted_of_place relevanceLt_iff _).imp_of_mem ?_)
    intro a b ha hb hle
    obtain ⟨hrela, hsomea⟩ := hranked a (PyList.mem_sorted.mp ha)
    obtain ⟨hrelb, hsomeb⟩ := hranked b (PyList.mem_sorted.mp hb)
    unfold relevance
    rw [← hrela, ← hrelb]
    by_contra hlt
    -- both expose a relevance, so the first component ties and the second decides
    refine absurd hle (not_le.mpr (Prod.Lex.toLex_lt_toLex.mpr (.inr ⟨?_, ?_⟩)))
    · rw [← Option.not_isSome, ← Option.not_isSome, hsomea, hsomeb]
    · exact Prod.Lex.toLex_lt_toLex.mpr (.inl (neg_lt_neg (not_le.mp hlt)))
  · -- nothing exposes a relevance only where there is nothing
    rename_i hnone
    cases results with
    | nil => exact List.Pairwise.nil
    | cons r results =>
      refine absurd ?_ hnone
      rw [List.any_eq_true]
      refine ⟨((r, 0), vectorRelevance r), ?_, hall r List.mem_cons_self⟩
      rw [List.zipIdx_cons, List.map_cons]
      exact List.mem_cons_self

/-- **The first of a key in an ordered list is the best of the key.** -/
theorem exists_best {T : PyText} {xs : List (SearchResult ℚ)}
    (hsorted : xs.Pairwise fun a b => relevance b ≤ relevance a) {c : SearchResult ℚ} (hc : c ∈ xs) :
    ∃ y ∈ deduplicate T xs, resultKey T y = resultKey T c ∧ relevance c ≤ relevance y := by
  obtain ⟨pre, suf, rfl⟩ := List.append_of_mem hc
  obtain ⟨y, hy, hkey, hwhich⟩ := PyList.exists_mem_keepFirst (resultKey T) pre suf
    (List.not_mem_nil (a := resultKey T c))
  refine ⟨y, hy, hkey, ?_⟩
  rcases hwhich with rfl | hpre
  · exact le_rfl
  · exact (List.pairwise_append.mp hsorted).2.2 y hpre c List.mem_cons_self

/-- **The merge of the tenant scopes is optimal**: by non-increasing relevance, the best of each key,
    and nothing more relevant left out unless its key is returned. -/
theorem vector_results_optimal (R : HybridRetriever ℚ) (hdisabled : R.config.enabled = false)
    (ctx : RetrievalContext ℚ) (store : EmbeddingStore ℚ) (embedding : List ℚ)
    (hembedding : R.embedQuery (R.query ctx) = .ok embedding)
    (answers : List (List (SearchResult ℚ))) (hanswers : Answers R ctx store embedding answers)
    (hexposed : ∀ c ∈ scopedCandidates ctx answers, (vectorRelevance c).isSome = true) :
    ∃ results, retrieve R ctx store = .ok results ∧
      results.Pairwise (fun a b => relevance b ≤ relevance a) ∧
      (∀ r ∈ results, r ∈ scopedCandidates ctx answers ∧
        ∀ c ∈ scopedCandidates ctx answers, resultKey R.text c = resultKey R.text r →
          relevance c ≤ relevance r) ∧
      ∀ c ∈ scopedCandidates ctx answers, ∀ r ∈ results, relevance r < relevance c →
        ∃ r' ∈ results, resultKey R.text r' = resultKey R.text c := by
  have hsorted := pairwise_globallyRankVectorResults hexposed
  have hperm := globallyRankVectorResults_perm (scopedCandidates ctx answers)
  generalize hranked : globallyRankVectorResults (scopedCandidates ctx answers) = ranked at hsorted hperm
  have hdedup := hsorted.sublist (PyList.keepFirst_sublist (resultKey R.text) [] ranked)
  have hkeys := PyList.nodup_keepFirst (resultKey R.text) [] ranked
  have hresults := retrieve_of_disabled hdisabled hembedding hanswers
  rw [hranked] at hresults
  refine ⟨_, hresults, hdedup.sublist (List.take_sublist _ _), ?_, ?_⟩
  · intro r hr
    have hr := (List.take_sublist _ _).subset hr
    refine ⟨hperm.subset (deduplicate_subset R.text ranked hr), ?_⟩
    intro c hc hkey
    obtain ⟨y, hy, hykey, hle⟩ := exists_best (T := R.text) hsorted (hperm.symm.subset hc)
    obtain rfl : y = r := List.inj_on_of_nodup_map hkeys hy hr (hykey.trans hkey)
    exact hle
  · intro c hc r hr hlt
    obtain ⟨y, hy, hykey, hle⟩ := exists_best (T := R.text) hsorted (hperm.symm.subset hc)
    refine ⟨y, ?_, hykey⟩
    -- a better one behind the cut would stand behind `r`
    by_contra hout
    have hsplit := List.take_append_drop ctx.topK.toNat (deduplicate R.text ranked)
    rw [← hsplit] at hy
    have hbehind := (List.mem_append.mp hy).resolve_left hout
    unfold deduplicate at hbehind hr hsplit
    rw [← hsplit] at hdedup
    have hle' := (List.pairwise_append.mp hdedup).2.2 r hr y hbehind
    linarith

/-- An answer with tenant 7's records and one with the public ones. -/
def twoScopes : EmbeddingStore ℚ where
  similaritySearch _ _ t :=
    .ok (if t = 7 then [sampleRecord "near" 7 ("confidence", .float (1 / 2)),
        sampleRecord "far" 7 ("confidence", .float (1 / 4))]
      else [sampleRecord "nearest" 0 ("confidence", .float (3 / 4))])
  lexicalCorpus := none

/-- The public record is more relevant than the caller's two, and leads. -/
theorem vector_results_optimal_sample :
    ∃ results, retrieve sampleRetriever.vectorOnly (sampleContext []) twoScopes = .ok results ∧
      (results.map SearchResult.chunkId == ["nearest", "near", "far"]) = true ∧
      results.Pairwise fun a b => relevance b ≤ relevance a := by
  obtain ⟨results, hresults, hsorted, _⟩ := vector_results_optimal sampleRetriever.vectorOnly rfl
    (sampleContext []) twoScopes [1] rfl _ (.cons rfl (.cons rfl .nil)) (by decide +kernel)
  have heval : (retrieve sampleRetriever.vectorOnly (sampleContext []) twoScopes).toOption.any
      (fun results => results.map SearchResult.chunkId == ["nearest", "near", "far"]) = true := by
    decide +kernel
  rw [hresults] at heval
  exact ⟨results, hresults, heval, hsorted⟩

/-! ## The cut before the filters -/

section Cut

variable {F : Type} [PyFloat F]

/-- The records of a ranking that the checks leave. -/
def matchingRecords (ctx : RetrievalContext F) (ranking : List (SearchResult F)) :
    List (SearchResult F) :=
  applyFilters ctx (applyTenantScope ranking ctx.tenantId)

/-- What filtering the WHOLE ranking gives: the first `top_k` keys of all matching records. -/
def filteredRanking (T : PyText) (ctx : RetrievalContext F) (ranking : List (SearchResult F)) :
    List (SearchResult F) :=
  (deduplicate T (matchingRecords ctx ranking)).take ctx.topK.toNat

/-- No record stands before one that exposes a higher relevance. -/
def NearestFirst (ranking : List (SearchResult F)) : Prop :=
  ranking.Pairwise fun a b => relevanceLt ((b, 1), vectorRelevance b) ((a, 0), vectorRelevance a) = false

/-- **A ranking by relevance is not rearranged.** -/
theorem globallyRankVectorResults_eq_self {results : List (SearchResult F)} (h : NearestFirst results) :
    globallyRankVectorResults results = results := by
  unfold globallyRankVectorResults
  dsimp only
  split
  · have hitems : (results.zipIdx.map fun item => (item, vectorRelevance item.1)).Pairwise
        fun a b => (!relevanceLt b a) = true := by
      unfold NearestFirst at h
      rw [List.pairwise_iff_getElem] at h ⊢
      intro i j hi hj hij
      rw [List.length_map, List.length_zipIdx] at hi hj
      simp only [List.getElem_map, List.getElem_zipIdx, Nat.zero_add]
      have hahead := h i j hi hj hij
      -- positions further apart compare alike
      have hsame : relevanceLt ((results[j], j), vectorRelevance results[j])
          ((results[i], i), vectorRelevance results[i]) =
          relevanceLt ((results[j], 1), vectorRelevance results[j])
            ((results[i], 0), vectorRelevance results[i]) := by
        have hbeq : (j == i) = ((1 : Nat) == 0) := beq_false_of_ne (by omega)
        have hlt : decide (j < i) = decide ((1 : Nat) < 0) := decide_eq_decide.mpr (by omega)
        unfold relevanceLt
        dsimp only
        rw [hbeq, hlt]
      rw [hsame, hahead]
      rfl
    unfold PyList.sorted
    rw [hitems.insertionSort_eq, map_fst_ranked]
  · rfl

theorem matchingRecords_sublist (ctx : RetrievalContext F) (ranking : List (SearchResult F)) :
    (matchingRecords ctx ranking).Sublist ranking :=
  List.filter_sublist.trans List.filter_sublist

/-- The checks look at each record alone. -/
theorem matchingRecords_append (ctx : RetrievalContext F) (xs ys : List (SearchResult F)) :
    matchingRecords ctx (xs ++ ys) = matchingRecords ctx xs ++ matchingRecords ctx ys := by
  unfold matchingRecords applyTenantScope applyFilters
  rw [List.filter_append, List.filter_append]

/-- **The keys met first do not depend on what follows.** -/
theorem deduplicate_take_prefix (T : PyText) (ctx : RetrievalContext F) (ranking : List (SearchResult F))
    (n : Nat) :
    deduplicate T (matchingRecords ctx (ranking.take n)) <+: deduplicate T (matchingRecords ctx ranking) := by
  have hsplit := List.take_append_drop n ranking
  refine ⟨PyList.keepFirst (resultKey T)
    ((matchingRecords ctx (ranking.take n)).map (resultKey T) ++ [])
    (matchingRecords ctx (ranking.drop n)), ?_⟩
  unfold deduplicate
  rw [← PyList.keepFirst_append, ← matchingRecords_append, hsplit]

/-- **Filtered retrieval**: for a store that answers with the `n` nearest records of the tenant, what is
    returned is the front of the filtered ranking, and all of it exactly when the candidates hold as
    many matching keys as are asked for or as there are. -/
theorem filtered_retrieval (R : HybridRetriever F) (hdisabled : R.config.enabled = false)
    (ctx : RetrievalContext F) (hscope : ctx.tenantScopes = [ctx.tenantId]) (store : EmbeddingStore F)
    (embedding : List F) (hembedding : R.embedQuery (R.query ctx) = .ok embedding)
    (ranking : List (SearchResult F)) (hnearest : NearestFirst ranking)
    (hstore : ∀ n, store.similaritySearch embedding n ctx.tenantId = .ok (ranking.take n.toNat)) :
    ∃ results, retrieve R ctx store = .ok results ∧
      results =
        (deduplicate R.text (matchingRecords ctx (ranking.take (R.candidateK ctx).toNat))).take
          ctx.topK.toNat ∧
      results <+: filteredRanking R.text ctx ranking ∧
      (results = filteredRanking R.text ctx ranking ↔
        min ctx.topK.toNat (deduplicate R.text (matchingRecords ctx ranking)).length ≤
          (deduplicate R.text (matchingRecords ctx (ranking.take (R.candidateK ctx).toNat))).length) := by
  have hanswers : Answers R ctx store embedding [ranking.take (R.candidateK ctx).toNat] := by
    unfold Answers
    rw [hscope]
    exact .cons (hstore _) .nil
  have hcandidates : scopedCandidates ctx [ranking.take (R.candidateK ctx).toNat] =
      matchingRecords ctx (ranking.take (R.candidateK ctx).toNat) := by
    unfold scopedCandidates matchingRecords
    rw [hscope]
    exact List.append_nil _
  have hranked : NearestFirst (matchingRecords ctx (ranking.take (R.candidateK ctx).toNat)) :=
    hnearest.sublist ((matchingRecords_sublist ctx _).trans (List.take_sublist _ _))
  have hresults := retrieve_of_disabled hdisabled hembedding hanswers
  rw [hcandidates, globallyRankVectorResults_eq_self hranked] at hresults
  have hfront := deduplicate_take_prefix R.text ctx ranking (R.candidateK ctx).toNat
  generalize deduplicate R.text (matchingRecords ctx (ranking.take (R.candidateK ctx).toNat)) = near
    at hresults hfront
  refine ⟨_, hresults, rfl, ?_, ?_⟩
  · exact hfront.take _
  · unfold filteredRanking
    obtain ⟨rest, hrest⟩ := hfront
    rw [← hrest]
    exact PyList.take_eq_take_append_iff

end Cut

/-- Five records of tenant 7, nearest first; document 9 comes last. -/
def fiveRecords : List (SearchResult ℚ) :=
  [passage "a" "margin", passage "b" "growth", passage "c" "revenue", passage "d" "profit",
    { passage "e" "outlook" with documentId := "9" }]

/-- A store that answers with the nearest of the five. -/
def nearestOfFive : EmbeddingStore ℚ where
  similaritySearch _ n _ := .ok (fiveRecords.take n.toNat)
  lexicalCorpus := none

/-- The nearest passage of one document. -/
def nearestOf (document : String) : RetrievalContext ℚ where
  question := "net margin"
  company := none
  documentIds := some [document]
  topK := 1
  filters := .empty
  tenantId := 7
  includePublic := false

theorem nearestFirst_fiveRecords : NearestFirst fiveRecords := by
  unfold NearestFirst
  decide +kernel

/-- Document 3 is among the four candidates, so its nearest passage is found. -/
theorem filtered_retrieval_sample :
    retrieve sampleRetriever.vectorOnly (nearestOf "3") nearestOfFive =
      .ok (filteredRanking .ascii (nearestOf "3") fiveRecords) := by
  obtain ⟨results, hresults, _, _, hiff⟩ := filtered_retrieval sampleRetriever.vectorOnly rfl
    (nearestOf "3") rfl nearestOfFive [1] rfl fiveRecords nearestFirst_fiveRecords fun _ => rfl
  rw [hresults, hiff.mpr (by decide +kernel)]
  rfl

/-- **Document 9 exists, and is not found**: the four candidates are of document 3. -/
theorem filtered_retrieval_incomplete :
    ¬ ∀ (R : HybridRetriever ℚ) (ctx : RetrievalContext ℚ) (store : EmbeddingStore ℚ)
        (embedding : List ℚ) (ranking : List (SearchResult ℚ)),
      R.config.enabled = false → ctx.tenantScopes = [ctx.tenantId] →
      R.embedQuery (R.query ctx) = .ok embedding → NearestFirst ranking →
      (∀ n, store.similaritySearch embedding n ctx.tenantId = .ok (ranking.take n.toNat)) →
      retrieve R ctx store = .ok (filteredRanking R.text ctx ranking) := by
  intro h
  have hretrieve := h sampleRetriever.vectorOnly (nearestOf "9") nearestOfFive [1] fiveRecords rfl rfl
    rfl nearestFirst_fiveRecords fun _ => rfl
  have hfound : (retrieve sampleRetriever.vectorOnly (nearestOf "9") nearestOfFive).toOption.any
      (fun results => results.length == 0) = true := by
    decide +kernel
  rw [hretrieve] at hfound
  exact absurd hfound (by decide +kernel)

end FinancialRag.Retrieval
