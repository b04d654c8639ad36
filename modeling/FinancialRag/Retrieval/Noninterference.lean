/-
  **Cross-tenant noninterference**: what a tenant retrieves does not depend on the records of others.

  The store is the Chroma store.  Of Chroma itself two things are assumed (`ChromaEngine.Honest`): a
  `where` clause is honoured, and the answer depends only on the records that match it, not on their
  arrangement nor on what else the collection holds.  Two clients look the SAME to a tenant when the
  collections in which it has records hold the same records of its; a collection of others only is not
  seen at all.

  The argument is a congruence: `retrieve` reads the store through one call per scope and channel, so
  stores that agree on those calls are interchangeable, candidate truncation, BM25 statistics, global
  ranking and fusion ranks included.
-/
import FinancialRag.Retrieval.Safety
import FinancialRag.Storage.ChromaStore

set_option linter.unusedVariables false

namespace FinancialRag.Storage

variable {F : Type}

/-! ## What is assumed of Chroma -/

/-- The records of a tenant. -/
def Collection.ofTenant (c : Collection F) (t : Int) : List (Record F) :=
  c.records.filter fun r => r.ofTenant t

/-- Chroma honours the `where` clause, and answers from the matching records alone. -/
structure ChromaEngine.Honest (E : ChromaEngine F) : Prop where
  query_matches : ∀ c t embedding n, ∀ hit ∈ E.query c (some t) embedding n, hit.1 ∈ c.ofTenant t
  get_matches : ∀ c t, ∀ r ∈ E.get c (some t), r ∈ c.ofTenant t
  query_local : ∀ c c' t, (c.ofTenant t).Perm (c'.ofTenant t) →
    ∀ embedding n, E.query c (some t) embedding n = E.query c' (some t) embedding n
  get_local : ∀ c c' t, (c.ofTenant t).Perm (c'.ofTenant t) → E.get c (some t) = E.get c' (some t)

/-- The collections in which a tenant has records. -/
def Client.seenBy (client : Client F) (t : Int) : List (Collection F) :=
  client.collections.filter fun c => !(c.ofTenant t).isEmpty

/-- The two clients hold the same records of the tenant, collection by collection. -/
def SameRecords (t : Int) (client client' : Client F) : Prop :=
  List.Forall₂ (fun c c' => (c.ofTenant t).Perm (c'.ofTenant t)) (client.seenBy t) (client'.seenBy t)

/-- A loop over all collections that finds nothing in those without records of the tenant is a loop
    over the collections the tenant sees. -/
theorem flatMap_seenBy {β : Type} (client : Client F) (t : Int) (f : Collection F → List β)
    (hf : ∀ c : Collection F, c.ofTenant t = [] → f c = []) :
    client.collections.flatMap f = (client.seenBy t).flatMap f := by
  unfold Client.seenBy
  induction client.collections with
  | nil => rfl
  | cons c cs ih =>
    rw [List.flatMap_cons, ih, List.filter_cons]
    by_cases hempty : c.ofTenant t = []
    · rw [hf c hempty, hempty]
      rfl
    · have hkeep : (!(c.ofTenant t).isEmpty) = true := by
        rw [Bool.not_eq_true', List.isEmpty_eq_false_iff]
        exact hempty
      rw [if_pos hkeep, List.flatMap_cons]

/-- **A loop over the collections that reads only the tenant's records** collects the same from two
    clients that hold the same records of the tenant. -/
theorem flatMap_collections_eq {β : Type} {t : Int} {client client' : Client F}
    (hsame : SameRecords t client client') (f : Collection F → List β)
    (hempty : ∀ c : Collection F, c.ofTenant t = [] → f c = [])
    (hlocal : ∀ c c' : Collection F, (c.ofTenant t).Perm (c'.ofTenant t) → f c = f c') :
    client.collections.flatMap f = client'.collections.flatMap f := by
  rw [flatMap_seenBy client t f hempty, flatMap_seenBy client' t f hempty]
  unfold SameRecords at hsame
  generalize client.seenBy t = cs at hsame ⊢
  generalize client'.seenBy t = cs' at hsame ⊢
  induction hsame with
  | nil => rfl
  | cons hhead htail ih => rw [List.flatMap_cons, List.flatMap_cons, ih, hlocal _ _ hhead]

/-- A list all of whose members are in an empty list is empty. -/
theorem eq_nil_of_forall_mem {β γ : Type} {xs : List β} {g : β → γ} {ys : List γ}
    (h : ∀ x ∈ xs, g x ∈ ys) (hys : ys = []) : xs = [] := by
  refine List.eq_nil_iff_forall_not_mem.mpr ?_
  intro x hx
  exact absurd (h x hx) (hys ▸ List.not_mem_nil)

section Reading

variable [PyFloat F] {E : ChromaEngine F} {client client' : Client F} {t : Int}

/-- `similarity_search` for a tenant reads the tenant's records only. -/
theorem similaritySearch_eq_of_sameRecords (honest : E.Honest) (hsame : SameRecords t client client')
    (embedding : List F) (topK : Int) :
    similaritySearch E client embedding topK (some t) =
      similaritySearch E client' embedding topK (some t) := by
  have hhits := flatMap_collections_eq hsame (fun c => E.query c (some t) embedding topK)
    (fun c hc => eq_nil_of_forall_mem (honest.query_matches c t embedding topK) hc)
    (fun c c' hperm => honest.query_local c c' t hperm embedding topK)
  unfold similaritySearch
  rw [hhits]

/-- `lexical_corpus` for a tenant reads the tenant's records only. -/
theorem lexicalCorpus_eq_of_sameRecords (honest : E.Honest) (hsame : SameRecords t client client') :
    lexicalCorpus E client (some t) = lexicalCorpus E client' (some t) := by
  have hrecords := flatMap_collections_eq hsame (fun c => E.get c (some t))
    (fun c hc => eq_nil_of_forall_mem (honest.get_matches c t) hc)
    (fun c c' hperm => honest.get_local c c' t hperm)
  unfold lexicalCorpus
  rw [hrecords]

end Reading

end FinancialRag.Storage

namespace FinancialRag.Retrieval

open FinancialRag.Storage

variable {F : Type} [PyFloat F]

/-! ## `retrieve` reads the store through its scopes -/

/-- The Chroma store, as the retriever sees it. -/
def chromaEmbeddingStore (E : ChromaEngine F) (client : Client F) : EmbeddingStore F where
  similaritySearch embedding topK t := similaritySearch E client embedding topK (some t)
  lexicalCorpus := some fun t => .ok (lexicalCorpus E client (some t))

/-- Two stores answer alike for every scope, in both channels. -/
structure AgreeOn (scopes : List Int) (store store' : EmbeddingStore F) : Prop where
  search : ∀ t ∈ scopes, ∀ embedding topK,
    store.similaritySearch embedding topK t = store'.similaritySearch embedding topK t
  corpus : ∃ load load', store.lexicalCorpus = some load ∧ store'.lexicalCorpus = some load' ∧
    ∀ t ∈ scopes, load t = load' t

theorem vectorResults_congr {ctx : RetrievalContext F} {store store' : EmbeddingStore F}
    (h : AgreeOn ctx.tenantScopes store store') (T : PyText) (embedding : List F) (candidateK : Int) :
    vectorResults T ctx store embedding candidateK =
      vectorResults T ctx store' embedding candidateK := by
  have hscopes : ctx.tenantScopes.mapM (scopedSearch ctx store embedding candidateK) =
      ctx.tenantScopes.mapM (scopedSearch ctx store' embedding candidateK) := by
    refine PyList.mapM_congr ?_
    intro t ht
    unfold scopedSearch
    rw [h.search t ht]
  unfold vectorResults
  rw [hscopes]

theorem loadLexicalCorpus_congr {ctx : RetrievalContext F} {store store' : EmbeddingStore F}
    (h : AgreeOn ctx.tenantScopes store store') (T : PyText) :
    loadLexicalCorpus T ctx store = loadLexicalCorpus T ctx store' := by
  obtain ⟨load, load', hload, hload', hagree⟩ := h.corpus
  have hscopes : ctx.tenantScopes.mapM (scopedCorpus ctx load) =
      ctx.tenantScopes.mapM (scopedCorpus ctx load') := by
    refine PyList.mapM_congr ?_
    intro t ht
    unfold scopedCorpus
    rw [hagree t ht]
  unfold loadLexicalCorpus
  rw [hload, hload']
  dsimp only
  rw [hscopes]

/-- **Stores that agree on the scopes are interchangeable.** -/
theorem retrieve_congr (R : HybridRetriever F) {ctx : RetrievalContext F}
    {store store' : EmbeddingStore F} (h : AgreeOn ctx.tenantScopes store store') :
    retrieve R ctx store = retrieve R ctx store' := by
  unfold retrieve
  rw [loadLexicalCorpus_congr h]
  simp only [vectorResults_congr h]

theorem agreeOn_chromaEmbeddingStore {E : ChromaEngine F} (honest : E.Honest) {scopes : List Int}
    {client client' : Client F} (hsame : ∀ t ∈ scopes, SameRecords t client client') :
    AgreeOn scopes (chromaEmbeddingStore E client) (chromaEmbeddingStore E client') where
  search t ht embedding topK := similaritySearch_eq_of_sameRecords honest (hsame t ht) embedding topK
  corpus := by
    refine ⟨_, _, rfl, rfl, ?_⟩
    intro t ht
    rw [lexicalCorpus_eq_of_sameRecords honest (hsame t ht)]

/-- **Cross-tenant noninterference of retrieval.** -/
theorem retrieval_noninterference (R : HybridRetriever F) (ctx : RetrievalContext F)
    (E : ChromaEngine F) (honest : E.Honest) (client client' : Client F)
    (hown : SameRecords ctx.tenantId client client')
    (hpublic : ctx.includePublic = true → SameRecords 0 client client') :
    retrieve R ctx (chromaEmbeddingStore E client) =
      retrieve R ctx (chromaEmbeddingStore E client') := by
  refine retrieve_congr R (agreeOn_chromaEmbeddingStore honest ?_)
  intro t ht
  unfold RetrievalContext.tenantScopes at ht
  split at ht
  · rename_i hscopes
    rcases List.mem_cons.mp ht with rfl | ht
    · exact hown
    · obtain rfl : t = 0 := List.mem_singleton.mp ht
      exact hpublic (Bool.and_eq_true _ _ ▸ hscopes).1
  · obtain rfl : t = ctx.tenantId := List.mem_singleton.mp ht
    exact hown

/-! ## An engine that satisfies the assumptions, and two clients -/

/-- The records a clause matches. -/
def matching (c : Collection ℚ) : Option Int → List (Record ℚ)
  | none => c.records
  | some t => c.ofTenant t

/-- The squared distance of two vectors. -/
def squaredDistance (v w : List ℚ) : ℚ := (List.zipWith (fun x y => (x - y) * (x - y)) v w).sum

/-- Exact search: a `get` in the order of the ids, a query by distance. -/
def exactEngine : ChromaEngine ℚ where
  get c t := PyList.sorted (fun a b => decide (a.id < b.id)) (matching c t)
  query c t embedding n :=
    let records := PyList.sorted (fun a b => decide (a.id < b.id)) (matching c t)
    let hits := records.map fun r => (r, squaredDistance embedding r.embedding)
    PyList.slice (PyList.sorted (fun a b => decide (a.2 < b.2)) hits) n

/-- Within a collection a record is known by its id. -/
theorem eq_of_id_eq (c : Collection ℚ) {r r' : Record ℚ} (hr : r ∈ c.records) (hr' : r' ∈ c.records)
    (hid : r.id = r'.id) : r = r' := List.inj_on_of_nodup_map c.idsNodup hr hr' hid

theorem exactEngine_get_local (c c' : Collection ℚ) (t : Int)
    (hperm : (c.ofTenant t).Perm (c'.ofTenant t)) :
    exactEngine.get c (some t) = exactEngine.get c' (some t) := by
  refine PyList.sorted_eq_of_perm ?_ ?_ hperm ?_
  · intro a b
    rcases lt_or_ge a.id b.id with h | h
    · exact .inr (decide_eq_false h.asymm)
    · exact .inl (decide_eq_false (not_lt.mpr h))
  · intro a b d hab hbd
    rw [decide_eq_false_iff_not, not_lt] at hab hbd ⊢
    exact hab.trans hbd
  · intro a ha b hb hab hba
    rw [decide_eq_false_iff_not, not_lt] at hab hba
    exact eq_of_id_eq c (List.mem_of_mem_filter ha) (List.mem_of_mem_filter hb) (le_antisymm hba hab)

theorem exactEngine_honest : exactEngine.Honest where
  query_matches c t embedding n hit hhit := by
    have hsorted := PyList.mem_sorted.mp ((PyList.slice_sublist _ _).subset hhit)
    obtain ⟨r, hr, rfl⟩ := List.mem_map.mp hsorted
    exact PyList.mem_sorted.mp hr
  get_matches c t r hr := PyList.mem_sorted.mp hr
  query_local c c' t hperm embedding n := by
    have hget := exactEngine_get_local c c' t hperm
    show PyList.slice (PyList.sorted _ ((exactEngine.get c (some t)).map _)) n = _
    rw [hget]
    rfl
  get_local := exactEngine_get_local

def storedRecord (id : String) (tenant : Int) (content : String) : Record ℚ where
  id := id
  document := content
  embedding := [1]
  metadata := .ofList [("document_id", .str "3"), ("tenant_id", .int tenant)]

/-- Records of the caller and of the public tenant. -/
def sharedRecords : List (Record ℚ) :=
  [storedRecord "own" 7 "net margin rose", storedRecord "public" 0 "net margin fell"]

/-- The caller and the public tenant alone. -/
def quietClient : Client ℚ := ⟨[⟨"financial_reports", sharedRecords, by decide⟩]⟩

/-- The same records among those of strangers, in another order and next to a stranger's collection. -/
def crowdedClient : Client ℚ :=
  ⟨[⟨"strangers", [storedRecord "secret" 9 "net margin forecast"], by decide⟩,
    ⟨"financial_reports",
      [storedRecord "rumour" 8 "net margin net margin", storedRecord "public" 0 "net margin fell",
        storedRecord "own" 7 "net margin rose"], by decide⟩]⟩

/-- The strangers' records change nothing of what tenant 7 retrieves. -/
theorem crowded_client_indistinguishable :
    ∃ results,
      retrieve sampleRetriever (sampleContext []) (chromaEmbeddingStore exactEngine quietClient) =
        .ok results ∧
      retrieve sampleRetriever (sampleContext []) (chromaEmbeddingStore exactEngine crowdedClient) =
        .ok results ∧
      results.map SearchResult.chunkId = ["own", "public"] := by
  have hown : SameRecords 7 quietClient crowdedClient := .cons (.refl _) .nil
  have hpublic : SameRecords 0 quietClient crowdedClient := .cons (.refl _) .nil
  have hequal := retrieval_noninterference sampleRetriever (sampleContext []) exactEngine
    exactEngine_honest quietClient crowdedClient hown fun _ => hpublic
  have heval : (retrieve sampleRetriever (sampleContext [])
      (chromaEmbeddingStore exactEngine quietClient)).toOption.any
      (fun results => results.map SearchResult.chunkId == ["own", "public"]) = true := by
    decide +kernel
  obtain ⟨results, hresults, hchunks⟩ := PyList.exists_ok_of_any heval
  exact ⟨results, hresults, hequal ▸ hresults, beq_iff_eq.mp hchunks⟩

end FinancialRag.Retrieval
