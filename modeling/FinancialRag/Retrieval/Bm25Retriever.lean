/-
  `retrieval/bm25_retriever.py`: lexical ranking of a corpus that is already scoped to its tenants.

  The scores are those of the third-party BM25 index and are left arbitrary (`Okapi`): a function of
  the tokenized corpus, the query tokens and the document's position.  What the repository does with
  them is modelled: which documents are indexed, which are candidates (token overlap, whatever the
  score), how they are ordered, and what is written into their metadata.
-/
import FinancialRag.Lib.PyText
import FinancialRag.Storage.VectorModels

set_option linter.unusedVariables false

namespace FinancialRag.Retrieval

open FinancialRag.Storage

variable {F : Type} [PyFloat F]

/-- `BM25Okapi(corpus).get_scores(query_tokens)`, read at a position of the corpus. -/
abbrev Okapi (F : Type) := List (List String) → List String → Nat → F

/-- `tokenize`: `[^\W_]+` on the case-folded text. -/
def tokenize (T : PyText) (text : String) : List String :=
  PyText.runs (fun c => T.isWord c && c != '_') (T.casefold text)

/-- The order of the key `(-score, document_id, chunk_id)`. -/
def bm25Lt (a b : SearchResult F × F) : Bool :=
  PyList.tupleLt [(PyFloat.eq (-a.2) (-b.2), PyFloat.lt (-a.2) (-b.2)),
    (a.1.documentId == b.1.documentId, decide (a.1.documentId < b.1.documentId)),
    (a.1.chunkId == b.1.chunkId, decide (a.1.chunkId < b.1.chunkId))]

/-- The result built for one ranked document. -/
def bm25Result (ranked : SearchResult F × F) : SearchResult F :=
  { ranked.1 with
    score := ranked.2
    metadata := (ranked.1.metadata.set "bm25_score" (.float ranked.2)).set
      "score_semantics" (.str "bm25") }

/-- The documents that share a token with the query, each with its score. -/
def bm25Candidates (okapi : Okapi F) (T : PyText) (queryTokens : List String)
    (documents : List (SearchResult F)) : List (SearchResult F × F) :=
  let indexed := documents.filter fun d => !(tokenize T d.content).isEmpty
  let corpus := indexed.map fun d => tokenize T d.content
  (indexed.zipIdx.filter fun d => queryTokens.any (tokenize T d.1.content).contains).map
    fun d => (d.1, okapi corpus queryTokens d.2)

/-- `BM25Retriever.search`. -/
def bm25Search (okapi : Okapi F) (T : PyText) (query : String) (documents : List (SearchResult F))
    (topK : Int) : List (SearchResult F) :=
  if topK ≤ 0 || documents.isEmpty then []
  else
    let queryTokens := tokenize T query
    if queryTokens.isEmpty then []
    else
      (PyList.slice (PyList.sorted bm25Lt (bm25Candidates okapi T queryTokens documents)) topK).map
        bm25Result

/-- **A lexical result is a document of the corpus**, with two keys of its metadata overwritten. -/
theorem mem_bm25Search {okapi : Okapi F} {T : PyText} {query : String}
    {documents : List (SearchResult F)} {topK : Int} {r : SearchResult F}
    (hr : r ∈ bm25Search okapi T query documents topK) :
    ∃ d ∈ documents, ∃ score, r = bm25Result (d, score) := by
  unfold bm25Search at hr
  split at hr
  · exact absurd hr List.not_mem_nil
  · dsimp only at hr
    split at hr
    · exact absurd hr List.not_mem_nil
    · obtain ⟨⟨d, score⟩, hd, rfl⟩ := List.mem_map.mp hr
      have hcand := PyList.mem_sorted.mp ((PyList.slice_sublist _ _).subset hd)
      obtain ⟨⟨d', i⟩, hd', heq⟩ := List.mem_map.mp hcand
      obtain ⟨rfl, rfl⟩ : d' = d ∧ okapi _ _ i = score := Prod.mk.inj heq
      have hindexed := (List.mem_filter.mp hd').1
      have hmem := (List.mem_zipIdx' hindexed).2
      refine ⟨d', ?_, _, rfl⟩
      rw [hmem]
      exact List.mem_of_mem_filter (List.getElem_mem _)

end FinancialRag.Retrieval
