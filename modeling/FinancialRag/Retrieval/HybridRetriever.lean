/-
  `retrieval/hybrid_retriever.py`: two channels over one store, merged by reciprocal-rank fusion.

  For each tenant scope (the caller's, and the public one when asked for) the vector channel searches
  the store, drops what crosses the scope, applies the filters; the scopes are merged by relevance and
  deduplicated.  The lexical channel loads the corpus of the same scopes through the same checks and
  ranks it with BM25.  The fusion adds `weight / (rrf_k + rank)` over the channels, per result key.

  The store is ARBITRARY: any functions, which may answer with records of any tenant or raise.  The
  embedding model and the BM25 index are third-party and arbitrary too.  An exception is the `error`
  of `Except`, its text the message where the repository composes one.
-/
import FinancialRag.Retrieval.Bm25Retriever
import FinancialRag.Retrieval.QueryEnrichment

set_option linter.unusedVariables false

namespace FinancialRag.Retrieval

open FinancialRag.Storage

/-! ## Configuration, context, store -/

/-- `HybridRetrievalConfig`, with what `__post_init__` checks. -/
structure HybridRetrievalConfig (F : Type) [PyFloat F] where
  enabled : Bool
  vectorWeight : F
  lexicalWeight : F
  rrfK : Int
  candidateMultiplier : Int
  vectorWeight_nonneg : PyFloat.lt vectorWeight ((0 : Int) : F) = false
  lexicalWeight_nonneg : PyFloat.lt lexicalWeight ((0 : Int) : F) = false
  weights_pos : PyFloat.le (vectorWeight + lexicalWeight) ((0 : Int) : F) = false
  rrfK_pos : 1 ≤ rrfK
  candidateMultiplier_pos : 1 ≤ candidateMultiplier

/-- `RetrievalContext`, less the fields `retrieve` does not read. -/
structure RetrievalContext (F : Type) where
  question : String
  company : Option String
  documentIds : Option (List String)
  topK : Int
  filters : Metadata F
  tenantId : Int
  includePublic : Bool

/-- What the retriever uses of an `EmbeddingStore`; `lexicalCorpus` is `none` where the store has no
    such method. -/
structure EmbeddingStore (F : Type) where
  similaritySearch : List F → Int → Int → Except String (List (SearchResult F))
  lexicalCorpus : Option (Int → Except String (List (SearchResult F)))

/-- `HybridRetriever`: its configuration, the text tables, the embedding model and the BM25 index. -/
structure HybridRetriever (F : Type) [PyFloat F] where
  config : HybridRetrievalConfig F
  text : PyText
  embedQuery : String → Except String (List F)
  okapi : Okapi F

variable {F : Type} [PyFloat F]

/-- `tenant_scopes`. -/
def RetrievalContext.tenantScopes (ctx : RetrievalContext F) : List Int :=
  if ctx.includePublic && ctx.tenantId != 0 then [ctx.tenantId, 0] else [ctx.tenantId]

/-! ## Checks on what the store answers -/

/-- What `_apply_tenant_scope` keeps: a tenant that is absent, or the scope's. -/
def inScope (tenantId : Int) (r : SearchResult F) : Bool :=
  match r.metadata.read "tenant_id" with
  | .none => true
  | tenant => tenant.eq (.int tenantId)

/-- `_apply_tenant_scope`. -/
def applyTenantScope (results : List (SearchResult F)) (tenantId : Int) : List (SearchResult F) :=
  results.filter (inScope tenantId)

/-- The `document_ids` filter: an empty list is no filter. -/
def documentAllowed (ctx : RetrievalContext F) (r : SearchResult F) : Bool :=
  let documentIds := ctx.documentIds.getD []
  documentIds.isEmpty || documentIds.contains r.documentId

/-- The `company` filter: an empty name is no filter. -/
def companyAllowed (ctx : RetrievalContext F) (r : SearchResult F) : Bool :=
  match ctx.company with
  | none => true
  | some company => company == "" || (r.metadata.read "company").eq (.str company)

/-- The extra metadata filters. -/
def filtersAllow (ctx : RetrievalContext F) (r : SearchResult F) : Bool :=
  ctx.filters.entries.all fun kv => (r.metadata.read kv.1).eq kv.2

/-- `_apply_filters`. -/
def applyFilters (ctx : RetrievalContext F) (results : List (SearchResult F)) :
    List (SearchResult F) :=
  results.filter fun r => documentAllowed ctx r && companyAllowed ctx r && filtersAllow ctx r

/-! ## Keys and relevance -/

/-- `_result_key`. -/
def resultKey (T : PyText) (r : SearchResult F) : String × String :=
  let squeezed := String.ofList (PyText.squeeze T.isSpace ' ' (T.nfkc r.content).toList)
  let normalized := T.casefold (T.strip squeezed)
  (r.documentId, if normalized = "" then r.chunkId else normalized)

/-- `_deduplicate`. -/
def deduplicate (T : PyText) (results : List (SearchResult F)) : List (SearchResult F) :=
  PyList.keepFirst (resultKey T) [] results

/-- `max(x, 0.0)` -/
def atLeastZero (x : F) : F := if PyFloat.lt x ((0 : Int) : F) then ((0 : Int) : F) else x

/-- `min(x, 1.0)` -/
def atMostOne (x : F) : F := if PyFloat.lt ((1 : Int) : F) x then ((1 : Int) : F) else x

/-- `1.0 / (1.0 + max(score, 0.0))` -/
def distanceRelevance (score : F) : F := ((1 : Int) : F) / (((1 : Int) : F) + atLeastZero score)

/-- The explicit score of a record: the first of two fields that is a number. -/
def explicitScore (r : SearchResult F) : Option F :=
  match (r.metadata.read "similarity_score").number with
  | some x => some x
  | none => (r.metadata.read "confidence").number

/-- `_vector_relevance`. -/
def vectorRelevance (r : SearchResult F) : Option F :=
  match explicitScore r with
  | some x => some x
  | none =>
    let semantics := r.metadata.read "score_semantics"
    if semantics.eq (.str "distance") then some (distanceRelevance r.score)
    else if semantics.eq (.str "similarity") || semantics.eq (.str "relevance") then some r.score
    else none

/-- The order of the key `(relevance is None, -relevance, index)`. -/
def relevanceLt (a b : (SearchResult F × Nat) × Option F) : Bool :=
  let x := -(a.2.getD ((0 : Int) : F))
  let y := -(b.2.getD ((0 : Int) : F))
  PyList.tupleLt [(a.2.isNone == b.2.isNone, !a.2.isNone && b.2.isNone),
    (PyFloat.eq x y, PyFloat.lt x y), (a.1.2 == b.1.2, decide (a.1.2 < b.1.2))]

/-- `_globally_rank_vector_results`. -/
def globallyRankVectorResults (results : List (SearchResult F)) : List (SearchResult F) :=
  let ranked := results.zipIdx.map fun item => (item, vectorRelevance item.1)
  if ranked.any fun item => item.2.isSome then
    (PyList.sorted relevanceLt ranked).map fun item => item.1.1
  else results

/-! ## The two channels -/

/-- The candidates of one tenant scope. -/
def scopedSearch (ctx : RetrievalContext F) (store : EmbeddingStore F) (embedding : List F)
    (candidateK tenantId : Int) : Except String (List (SearchResult F)) := do
  let results ← store.similaritySearch embedding candidateK tenantId
  return applyFilters ctx (applyTenantScope results tenantId)

/-- The vector channel of `retrieve`. -/
def vectorResults (T : PyText) (ctx : RetrievalContext F) (store : EmbeddingStore F)
    (embedding : List F) (candidateK : Int) : Except String (List (SearchResult F)) := do
  let perScope ← ctx.tenantScopes.mapM (scopedSearch ctx store embedding candidateK)
  return PyList.slice (deduplicate T (globallyRankVectorResults perScope.flatten)) candidateK

/-- The documents of one tenant scope. -/
def scopedCorpus (ctx : RetrievalContext F) (load : Int → Except String (List (SearchResult F)))
    (tenantId : Int) : Except String (List (SearchResult F)) := do
  let documents ← load tenantId
  return applyFilters ctx (applyTenantScope documents tenantId)

/-- `_load_lexical_corpus`: `None` where the store has no corpus or raises for some scope. -/
def loadLexicalCorpus (T : PyText) (ctx : RetrievalContext F) (store : EmbeddingStore F) :
    Option (List (SearchResult F)) :=
  match store.lexicalCorpus with
  | none => none
  | some load =>
    match ctx.tenantScopes.mapM (scopedCorpus ctx load) with
    | .error _ => none
    | .ok perScope => some (deduplicate T (PyList.sorted SearchResult.idLt perScope.flatten))

/-! ## Reciprocal-rank fusion -/

abbrev ResultKey := String × String

/-- The dictionaries of `_reciprocal_rank_fusion`. -/
structure Fusion (F : Type) where
  records : Dict ResultKey (SearchResult F)
  fusedScores : Dict ResultKey F
  vectorRanks : Dict ResultKey Nat
  lexicalRanks : Dict ResultKey Nat

namespace Fusion

def start : Fusion F := ⟨.empty, .empty, .empty, .empty⟩

/-- `fused_scores.get(key, 0.0) + weight / (rrf_k + rank)`, stored back. -/
def credit (f : Fusion F) (key : ResultKey) (weight : F) (rrfK : Int) (rank : Nat) :
    Dict ResultKey F :=
  f.fusedScores.set key
    ((f.fusedScores.get key).getD ((0 : Int) : F) + weight / ((rrfK + rank : Int) : F))

/-- One turn of the loop over `vector_results`. -/
def addVector (T : PyText) (weight : F) (rrfK : Int) (f : Fusion F) (item : SearchResult F × Nat) :
    Fusion F :=
  let key := resultKey T item.1
  { f with
    records := f.records.setDefault key item.1
    vectorRanks := f.vectorRanks.setDefault key item.2
    fusedScores := f.credit key weight rrfK item.2 }

/-- One turn of the loop over `lexical_results`. -/
def addLexical (T : PyText) (weight : F) (rrfK : Int) (f : Fusion F) (item : SearchResult F × Nat) :
    Fusion F :=
  let key := resultKey T item.1
  { f with
    records := f.records.setDefault key item.1
    lexicalRanks := f.lexicalRanks.setDefault key item.2
    fusedScores := f.credit key weight rrfK item.2 }

/-- Both loops, ranks counted from one. -/
def build (T : PyText) (vectorWeight lexicalWeight : F) (rrfK : Int)
    (vector lexical : List (SearchResult F)) : Fusion F :=
  let f := (vector.zipIdx 1).foldl (addVector T vectorWeight rrfK) start
  (lexical.zipIdx 1).foldl (addLexical T lexicalWeight rrfK) f

/-- One key with what the dictionaries hold for it. -/
structure Entry (F : Type) where
  key : ResultKey
  record : SearchResult F
  score : F
  vectorRank : Option Nat
  lexicalRank : Option Nat

/-- `records[key]`, `fused_scores[key]` and the two ranks. -/
def entry (f : Fusion F) (key : ResultKey) : Except String (Entry F) :=
  match f.records.get key, f.fusedScores.get key with
  | some record, some score =>
    .ok { key := key, record := record, score := score,
          vectorRank := f.vectorRanks.get key, lexicalRank := f.lexicalRanks.get key }
  | _, _ => .error "KeyError"

/-- `<` of two result keys. -/
def keyLt (a b : ResultKey) : Bool :=
  PyList.tupleLt [(a.1 == b.1, decide (a.1 < b.1)), (a.2 == b.2, decide (a.2 < b.2))]

/-- The order of the key `(-fused score, vector rank, lexical rank, key)`, an absent rank counting as
    `missing`. -/
def entryLt (missing : Nat) (a b : Entry F) : Bool :=
  let va := a.vectorRank.getD missing
  let vb := b.vectorRank.getD missing
  let la := a.lexicalRank.getD missing
  let lb := b.lexicalRank.getD missing
  PyList.tupleLt [(PyFloat.eq (-a.score) (-b.score), PyFloat.lt (-a.score) (-b.score)),
    (va == vb, decide (va < vb)), (la == lb, decide (la < lb)), (a.key == b.key, keyLt a.key b.key)]

/-- `ordered_keys`, each key with its entry. -/
def ordered (f : Fusion F) : Except String (List (Entry F)) := do
  let entries ← f.records.keys.mapM f.entry
  return PyList.sorted (entryLt (f.records.keys.length + 1)) entries

end Fusion

/-- A rank in metadata; an absent one is `None`. -/
def rankValue : Option Nat → Value F
  | none => .none
  | some rank => .int rank

/-- What the fusion writes into a result's metadata. -/
def annotations (e : Fusion.Entry F) (bm25Score : Value F) (lexicalWeight : F) :
    List (String × Value F) :=
  [ ("retrieval_strategy", .str "hybrid_rrf"),
    ("score_semantics", .str "relevance"),
    ("rrf_score", .float e.score),
    ("vector_rank", rankValue e.vectorRank),
    ("bm25_rank", rankValue e.lexicalRank),
    ("bm25_score", bm25Score),
    ("lexical_weight", .float lexicalWeight) ]

/-- `bm25_score` of the lexical result of a key. -/
def bm25ScoreOf (lexicalByKey : Dict ResultKey (SearchResult F)) (key : ResultKey) : Value F :=
  match lexicalByKey.get key with
  | some r => r.metadata.read "bm25_score"
  | none => .none

/-- `x / y` on floats. -/
def divide (x y : F) : Except String F :=
  if PyFloat.eq y ((0 : Int) : F) then .error "float division by zero" else .ok (x / y)

/-- The result built for one key. -/
def fusedResult (lexicalByKey : Dict ResultKey (SearchResult F)) (maximumScore lexicalWeight : F)
    (e : Fusion.Entry F) : Except String (SearchResult F) := do
  let normalized ← divide e.score maximumScore
  return { e.record with
    score := PyFloat.round normalized 6
    metadata := e.record.metadata.update
      (annotations e (bm25ScoreOf lexicalByKey e.key) lexicalWeight) }

/-- `_reciprocal_rank_fusion`. -/
def reciprocalRankFusion (T : PyText) (config : HybridRetrievalConfig F)
    (vector lexical : List (SearchResult F)) (topK : Int) (lexicalWeight : F) :
    Except String (List (SearchResult F)) := do
  let fusion := Fusion.build T config.vectorWeight lexicalWeight config.rrfK vector lexical
  let ordered ← fusion.ordered
  let maximumScore := (config.vectorWeight + lexicalWeight) / ((config.rrfK + 1 : Int) : F)
  let lexicalByKey := Dict.ofList (lexical.map fun r => (resultKey T r, r))
  (PyList.slice ordered topK).mapM (fusedResult lexicalByKey maximumScore lexicalWeight)

/-! ## Retrieval -/

/-- The lexical weight: doubled when the query that is searched for is not the question itself. -/
def effectiveLexicalWeight (config : HybridRetrievalConfig F) (query question : String) : F :=
  if query ≠ question then config.lexicalWeight * ((2 : Int) : F) else config.lexicalWeight

/-- `retrieve`. -/
def retrieve (R : HybridRetriever F) (ctx : RetrievalContext F) (store : EmbeddingStore F) :
    Except String (List (SearchResult F)) :=
  if ctx.topK ≤ 0 then .ok []
  else do
    let query := enrichFinancialQuery R.text ctx.question ctx.company
    let embedding ← R.embedQuery query
    let candidateK := ctx.topK * R.config.candidateMultiplier
    let vector ← vectorResults R.text ctx store embedding candidateK
    if !R.config.enabled || PyFloat.eq R.config.lexicalWeight ((0 : Int) : F) then
      return PyList.slice vector ctx.topK
    else
      -- an absent corpus and an empty one are treated alike
      let corpus := (loadLexicalCorpus R.text ctx store).getD []
      let lexical := bm25Search R.okapi R.text query corpus candidateK
      if corpus.isEmpty || lexical.isEmpty then return PyList.slice vector ctx.topK
      else
        reciprocalRankFusion R.text R.config vector lexical ctx.topK
          (effectiveLexicalWeight R.config query ctx.question)

end FinancialRag.Retrieval
