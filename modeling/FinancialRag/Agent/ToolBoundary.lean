/-
  **Evidence at the boundary of the retrieval tool.**

  An object and the mapping of its attributes are read through the same checks.  They part where an
  attribute is absent: for a mapping the metadata is asked instead, for an object the attribute is there
  as `None`.  So `document_id`, `chunk_id` and `page` of the metadata are seen in a mapping and hidden in
  an object (`object_mapping_agree_iff`); and the evidence the retriever produces is an object without
  the three.

  What the retriever produces and the tool accepts comes back as it was; but the tool accepts it only
  when every company is a name.  The retriever writes `""` for a company nobody named
  (`evidence_round_trips_iff`).
-/
import FinancialRag.Agent.RetrievalContract
import FinancialRag.Retrieval.Safety

set_option linter.unusedVariables false

namespace FinancialRag.Agent

open FinancialRag.Storage FinancialRag.Retrieval

variable {F : Type} {T : PyText} {toFloat : Int → Except String F}

/-! ## What the checks accept -/

/-- A text that is not blank. -/
def IsText (T : PyText) (v : PyValue F) : Prop := ∃ s, v = .str s ∧ T.strip s ≠ ""

/-- `None`, or a text that is not blank. -/
def IsOptionalText (T : PyText) (v : PyValue F) : Prop := v = .none ∨ IsText T v

/-- `None`, or a number that is a float. -/
def IsScore (toFloat : Int → Except String F) (v : PyValue F) : Prop :=
  v = .none ∨ (∃ n x, v = .int n ∧ toFloat n = .ok x) ∨ ∃ x, v = .float x

/-- `None`, an integer or a string. -/
def IsPage (v : PyValue F) : Prop := v = .none ∨ (∃ n, v = .int n) ∨ ∃ s, v = .str s

theorem requiredString_eq_ok {message : String} {v : PyValue F} {content : String} :
    requiredString T message v = .ok content ↔
      ∃ s, v = .str s ∧ T.strip s ≠ "" ∧ content = T.strip s := by
  constructor
  · intro h
    cases v with
    | str s =>
      rw [requiredString] at h
      split at h
      · cases h
      · rename_i hne
        exact ⟨s, rfl, hne, (Except.ok.inj h).symm⟩
    | _ => cases h
  · rintro ⟨s, rfl, hne, rfl⟩
    exact if_neg hne

theorem optionalString_eq_ok {fieldName : String} {v : PyValue F} {o : Option String} :
    optionalString T fieldName v = .ok o ↔
      v = .none ∧ o = none ∨ ∃ s, v = .str s ∧ T.strip s ≠ "" ∧ o = some (T.strip s) := by
  constructor
  · intro h
    cases v with
    | none => exact .inl ⟨rfl, (Except.ok.inj h).symm⟩
    | str s =>
      rw [optionalString] at h
      split at h
      · cases h
      · rename_i hne
        exact .inr ⟨s, rfl, hne, (Except.ok.inj h).symm⟩
    | _ => cases h
  · rintro (⟨rfl, rfl⟩ | ⟨s, rfl, hne, rfl⟩)
    · rfl
    · exact if_neg hne

theorem exists_optionalString (fieldName : String) {v : PyValue F} :
    (∃ o, optionalString T fieldName v = .ok o) ↔ IsOptionalText T v := by
  simp only [optionalString_eq_ok, IsOptionalText, IsText]
  constructor
  · rintro ⟨o, ⟨rfl, _⟩ | ⟨s, rfl, hne, _⟩⟩
    · exact .inl rfl
    · exact .inr ⟨s, rfl, hne⟩
  · rintro (rfl | ⟨s, rfl, hne⟩)
    · exact ⟨none, .inl ⟨rfl, rfl⟩⟩
    · exact ⟨some (T.strip s), .inr ⟨s, rfl, hne, rfl⟩⟩

/-- Only `None` is accepted as nothing. -/
theorem optionalString_eq_none {fieldName : String} {v : PyValue F}
    (h : optionalString T fieldName v = .ok none) : v = .none := by
  rcases optionalString_eq_ok.mp h with ⟨hv, _⟩ | ⟨s, _, _, habs⟩
  · exact hv
  · cases habs

theorem exists_checkPage {v : PyValue F} : (∃ o, checkPage v = .ok o) ↔ IsPage v := by
  unfold IsPage
  cases v <;> simp [checkPage]

theorem checkPage_eq_none {v : PyValue F} (h : checkPage v = .ok none) : v = .none := by
  cases v with
  | none => rfl
  | int n => cases h
  | str s => cases h
  | _ => cases h

theorem exists_score {v : PyValue F} :
    (∃ score similarity, checkScore v = .ok score ∧ scoreAsFloat toFloat score = .ok similarity) ↔
      IsScore toFloat v := by
  unfold IsScore
  cases v with
  | none => simp [checkScore, scoreAsFloat]
  | float x => simp [checkScore, scoreAsFloat]
  | int n =>
    simp only [checkScore, Except.ok.injEq, scoreAsFloat]
    constructor
    · rintro ⟨_, similarity, rfl, h⟩
      obtain ⟨x, hx, _⟩ := PyList.bind_eq_ok.mp h
      exact .inr (.inl ⟨n, x, rfl, hx⟩)
    · rintro (h | ⟨m, x, h, hx⟩ | ⟨x, h⟩)
      · cases h
      · cases h
        refine ⟨_, some x, rfl, ?_⟩
        dsimp only
        rw [hx]
        rfl
      · cases h
  | _ => simp [checkScore]

/-! ## Objects and mappings -/

/-- An evidence-like value: five attributes it has, and three it may lack. -/
structure EvidenceLike (F : Type) where
  content : PyValue F
  source : PyValue F
  company : PyValue F
  confidence : PyValue F
  metadata : PyValue F
  documentId : Option (PyValue F)
  chunkId : Option (PyValue F)
  page : Option (PyValue F)

namespace EvidenceLike

/-- Its attributes. -/
def attributes (e : EvidenceLike F) : Lookup F
  | "content" => some e.content
  | "source" => some e.source
  | "company" => some e.company
  | "confidence" => some e.confidence
  | "metadata" => some e.metadata
  | "document_id" => e.documentId
  | "chunk_id" => e.chunkId
  | "page" => e.page
  | _ => none

/-- The mapping of exactly the attributes it has. -/
def entries (e : EvidenceLike F) : Entries F :=
  ["content", "source", "company", "confidence", "metadata", "document_id", "chunk_id", "page"].filterMap
    fun name => (e.attributes name).map fun value => (some name, value)

/-- `from_value`, with the three optional fields read by `documentId`, `chunkId` and `page`. -/
def normalized (T : PyText) (toFloat : Int → Except String F) (e : EvidenceLike F)
    (documentId chunkId page : Entries F → PyValue F) : Except String (RetrievalEvidence F) := do
  let metadata ← checkMetadata e.metadata
  let content ← requiredString T "retrieval evidence requires non-empty content" e.content
  let source ← requiredString T "retrieval evidence requires a source filename" e.source
  let score ← checkScore e.confidence
  let page ← checkPage (page metadata)
  let similarityScore ← scoreAsFloat toFloat score
  let documentId ← optionalString T "document_id" (documentId metadata)
  let chunkId ← optionalString T "chunk_id" (chunkId metadata)
  let company ← optionalString T "company" e.company
  let metadata ← jsonMapping metadata
  return { content := content, sourceFilename := source, similarityScore := similarityScore,
           documentId := documentId, chunkId := chunkId, page := page, company := company,
           metadata := metadata }

/-- **An object hides the metadata behind the attributes it lacks.** -/
theorem fromValue_object (e : EvidenceLike F) :
    fromValue T toFloat (.object e.attributes) =
      e.normalized T toFloat (fun _ => e.documentId.getD .none) (fun _ => e.chunkId.getD .none)
        (fun _ => e.page.getD .none) := by
  rfl

/-- Looking up in the mapping of some attributes. -/
theorem get_filterMap (attributes : Lookup F) (names : List String) (k : String) :
    Entries.get (names.filterMap fun name => (attributes name).map fun value => (some name, value)) k =
      if k ∈ names then attributes k else none := by
  induction names with
  | nil => rfl
  | cons name names ih =>
    cases hvalue : attributes name with
    | none =>
      rw [List.filterMap_cons_none (by rw [hvalue]; rfl), ih]
      by_cases hk : k = name
      · simp [hk, hvalue]
      · simp [hk]
    | some value =>
      rw [List.filterMap_cons_some (by rw [hvalue]; rfl)]
      unfold Entries.get at ih ⊢
      rw [List.lookup_cons]
      by_cases hk : k = name
      · simp [hk, hvalue]
      · have hne : (some k == some name) = false := by simpa using hk
        rw [hne]
        simpa [hk] using ih

theorem get_entries (e : EvidenceLike F) : e.entries.get = e.attributes := by
  funext k
  rw [entries, get_filterMap]
  split
  · rfl
  · rename_i hk
    unfold attributes
    split <;> simp_all

/-- **A mapping falls back on the metadata.** -/
theorem fromValue_mapping (e : EvidenceLike F) :
    fromValue T toFloat (.mapping e.entries) =
      e.normalized T toFloat (fun m => e.documentId.getD (m.read "document_id"))
        (fun m => e.chunkId.getD (m.read "chunk_id")) (fun m => e.page.getD (m.read "page")) := by
  unfold fromValue
  dsimp only
  rw [get_entries]
  rfl

/-- The checks accept the attributes that are there, and the metadata. -/
structure WellFormed (T : PyText) (toFloat : Int → Except String F) (e : EvidenceLike F)
    (entries : Entries F) : Prop where
  metadata : checkMetadata e.metadata = .ok entries
  content : IsText T e.content
  source : IsText T e.source
  confidence : IsScore toFloat e.confidence
  page : IsPage (e.page.getD .none)
  documentId : IsOptionalText T (e.documentId.getD .none)
  chunkId : IsOptionalText T (e.chunkId.getD .none)
  company : IsOptionalText T e.company
  json : ∃ normalized, jsonMapping entries = .ok normalized

/-- A field that is no attribute, and is in the metadata. -/
def Hides (e : EvidenceLike F) (metadata : Entries F) : Prop :=
  e.documentId = none ∧ metadata.read "document_id" ≠ .none ∨
  e.chunkId = none ∧ metadata.read "chunk_id" ≠ .none ∨
  e.page = none ∧ metadata.read "page" ≠ .none

/-- **When a reading succeeds**, and with what. -/
theorem normalized_eq_ok {e : EvidenceLike F} {documentId chunkId page : Entries F → PyValue F}
    {r : RetrievalEvidence F} :
    e.normalized T toFloat documentId chunkId page = .ok r ↔
      ∃ metadata, checkMetadata e.metadata = .ok metadata ∧
        requiredString T "retrieval evidence requires non-empty content" e.content = .ok r.content ∧
        requiredString T "retrieval evidence requires a source filename" e.source =
          .ok r.sourceFilename ∧
        (∃ score, checkScore e.confidence = .ok score ∧
          scoreAsFloat toFloat score = .ok r.similarityScore) ∧
        checkPage (page metadata) = .ok r.page ∧
        optionalString T "document_id" (documentId metadata) = .ok r.documentId ∧
        optionalString T "chunk_id" (chunkId metadata) = .ok r.chunkId ∧
        optionalString T "company" e.company = .ok r.company ∧
        jsonMapping metadata = .ok r.metadata := by
  unfold normalized
  constructor
  · intro h
    obtain ⟨metadata, hmetadata, h⟩ := PyList.bind_eq_ok.mp h
    obtain ⟨content, hcontent, h⟩ := PyList.bind_eq_ok.mp h
    obtain ⟨source, hsource, h⟩ := PyList.bind_eq_ok.mp h
    obtain ⟨score, hscore, h⟩ := PyList.bind_eq_ok.mp h
    obtain ⟨page, hpage, h⟩ := PyList.bind_eq_ok.mp h
    obtain ⟨similarity, hsimilarity, h⟩ := PyList.bind_eq_ok.mp h
    obtain ⟨documentId, hdocumentId, h⟩ := PyList.bind_eq_ok.mp h
    obtain ⟨chunkId, hchunkId, h⟩ := PyList.bind_eq_ok.mp h
    obtain ⟨company, hcompany, h⟩ := PyList.bind_eq_ok.mp h
    obtain ⟨json, hjson, h⟩ := PyList.bind_eq_ok.mp h
    cases h
    exact ⟨metadata, hmetadata, hcontent, hsource, ⟨score, hscore, hsimilarity⟩, hpage, hdocumentId,
      hchunkId, hcompany, hjson⟩
  · rintro ⟨metadata, hmetadata, hcontent, hsource, ⟨score, hscore, hsimilarity⟩, hpage, hdocumentId,
      hchunkId, hcompany, hjson⟩
    simp only [hmetadata, hcontent, hsource, hscore, hsimilarity, hpage, hdocumentId, hchunkId, hcompany,
      hjson, PyList.ok_bind]
    rfl

theorem isText_of_requiredString {message content : String} {v : PyValue F}
    (h : requiredString T message v = .ok content) : IsText T v := by
  obtain ⟨s, hv, hne, _⟩ := requiredString_eq_ok.mp h
  exact ⟨s, hv, hne⟩

theorem exists_requiredString (message : String) {v : PyValue F} (h : IsText T v) :
    ∃ content, requiredString T message v = .ok content := by
  obtain ⟨s, hv, hne⟩ := h
  exact ⟨T.strip s, requiredString_eq_ok.mpr ⟨s, hv, hne, rfl⟩⟩

/-- **A well-formed object is read**, with nothing for the attributes it lacks. -/
theorem WellFormed.exists_object {e : EvidenceLike F} {m : Entries F} (h : e.WellFormed T toFloat m) :
    ∃ r, fromValue T toFloat (.object e.attributes) = .ok r := by
  obtain ⟨content, hcontent⟩ :=
    exists_requiredString "retrieval evidence requires non-empty content" h.content
  obtain ⟨source, hsource⟩ :=
    exists_requiredString "retrieval evidence requires a source filename" h.source
  obtain ⟨score, similarity, hscore⟩ := exists_score.mpr h.confidence
  obtain ⟨page, hpage⟩ := exists_checkPage.mpr h.page
  obtain ⟨documentId, hdocumentId⟩ := (exists_optionalString "document_id").mpr h.documentId
  obtain ⟨chunkId, hchunkId⟩ := (exists_optionalString "chunk_id").mpr h.chunkId
  obtain ⟨company, hcompany⟩ := (exists_optionalString "company").mpr h.company
  obtain ⟨json, hjson⟩ := h.json
  refine ⟨⟨content, source, similarity, documentId, chunkId, page, company, json⟩, ?_⟩
  rw [fromValue_object]
  exact normalized_eq_ok.mpr ⟨m, h.metadata, hcontent, hsource, ⟨score, hscore⟩, hpage, hdocumentId,
    hchunkId, hcompany, hjson⟩

/-- A reading that asks an attribute first accepts it, where it is there. -/
theorem accepted_attribute {α : Type} {check : PyValue F → Except String (Option α)}
    (hnone : check .none = .ok none) {own : Option (PyValue F)} {fallback : PyValue F}
    {o : Option α} (h : check (own.getD fallback) = .ok o) :
    ∃ o', check (own.getD .none) = .ok o' := by
  cases own with
  | none => exact ⟨none, hnone⟩
  | some v => exact ⟨o, h⟩

/-- **What is read is well-formed**, whatever the three optional fields fall back on. -/
theorem wellFormed_of_normalized {e : EvidenceLike F} {documentId chunkId page : Entries F → PyValue F}
    {r : RetrievalEvidence F}
    (h : e.normalized T toFloat (fun m => e.documentId.getD (documentId m))
      (fun m => e.chunkId.getD (chunkId m)) (fun m => e.page.getD (page m)) = .ok r) :
    ∃ m, e.WellFormed T toFloat m := by
  obtain ⟨m, hmetadata, hcontent, hsource, ⟨score, hscore⟩, hpage, hdocumentId, hchunkId, hcompany,
    hjson⟩ := normalized_eq_ok.mp h
  exact ⟨m, {
    metadata := hmetadata
    content := isText_of_requiredString hcontent
    source := isText_of_requiredString hsource
    confidence := exists_score.mp ⟨score, _, hscore⟩
    page := exists_checkPage.mp (accepted_attribute rfl hpage)
    documentId := (exists_optionalString "document_id").mp (accepted_attribute rfl hdocumentId)
    chunkId := (exists_optionalString "chunk_id").mp (accepted_attribute rfl hchunkId)
    company := (exists_optionalString "company").mp ⟨_, hcompany⟩
    json := ⟨_, hjson⟩ }⟩

theorem wellFormed_of_mapping {e : EvidenceLike F} {r : RetrievalEvidence F}
    (h : fromValue T toFloat (.mapping e.entries) = .ok r) : ∃ m, e.WellFormed T toFloat m := by
  rw [fromValue_mapping] at h
  exact wellFormed_of_normalized h

theorem wellFormed_of_object {e : EvidenceLike F} {r : RetrievalEvidence F}
    (h : fromValue T toFloat (.object e.attributes) = .ok r) : ∃ m, e.WellFormed T toFloat m := by
  rw [fromValue_object] at h
  exact wellFormed_of_normalized h

/-- An attribute is read alike by both, where nothing is hidden behind its absence. -/
theorem getD_eq_of_not_hidden {own : Option (PyValue F)} {fallback : PyValue F}
    (h : ¬ (own = none ∧ fallback ≠ .none)) : own.getD fallback = own.getD .none := by
  cases own with
  | some v => rfl
  | none =>
    by_contra hne
    exact h ⟨rfl, hne⟩

/-- **Where nothing is hidden both readings are the same.** -/
theorem fromValue_eq_of_not_hides {e : EvidenceLike F} {m : Entries F}
    (hmetadata : checkMetadata e.metadata = .ok m) (hhides : ¬ e.Hides m) :
    fromValue T toFloat (.mapping e.entries) = fromValue T toFloat (.object e.attributes) := by
  unfold Hides at hhides
  obtain ⟨hdocumentId, hrest⟩ := not_or.mp hhides
  obtain ⟨hchunkId, hpage⟩ := not_or.mp hrest
  rw [fromValue_mapping, fromValue_object]
  unfold normalized
  rw [hmetadata]
  simp only [PyList.ok_bind, getD_eq_of_not_hidden hdocumentId, getD_eq_of_not_hidden hchunkId,
    getD_eq_of_not_hidden hpage]

/-- **Where something is hidden they are not.** -/
theorem not_same_of_hides {e : EvidenceLike F} {m : Entries F} (hm : checkMetadata e.metadata = .ok m)
    (hhides : e.Hides m) {r : RetrievalEvidence F}
    (hobject : fromValue T toFloat (.object e.attributes) = .ok r) :
    fromValue T toFloat (.mapping e.entries) ≠ .ok r := by
  intro hmapping
  rw [fromValue_object] at hobject
  rw [fromValue_mapping] at hmapping
  obtain ⟨_, _, _, _, _, hpage, hdocumentId, hchunkId, _, _⟩ := normalized_eq_ok.mp hobject
  obtain ⟨m', hm', _, _, _, hpage', hdocumentId', hchunkId', _, _⟩ := normalized_eq_ok.mp hmapping
  rw [hm] at hm'
  cases hm'
  rcases hhides with ⟨habsent, hvalue⟩ | ⟨habsent, hvalue⟩ | ⟨habsent, hvalue⟩
  · rw [habsent] at hdocumentId hdocumentId'
    rw [← Except.ok.inj hdocumentId] at hdocumentId'
    exact hvalue (optionalString_eq_none hdocumentId')
  · rw [habsent] at hchunkId hchunkId'
    rw [← Except.ok.inj hchunkId] at hchunkId'
    exact hvalue (optionalString_eq_none hchunkId')
  · rw [habsent] at hpage hpage'
    rw [← Except.ok.inj hpage] at hpage'
    exact hvalue (checkPage_eq_none hpage')

/-- **Both readings are the same exactly when** well-formed evidence hides nothing. -/
theorem same_iff_not_hides (e : EvidenceLike F) :
    (∀ r, fromValue T toFloat (.object e.attributes) = .ok r ↔
      fromValue T toFloat (.mapping e.entries) = .ok r) ↔
    ∀ m, e.WellFormed T toFloat m → ¬ e.Hides m := by
  constructor
  · intro hsame m hwell hhides
    obtain ⟨r, hr⟩ := hwell.exists_object
    exact not_same_of_hides hwell.metadata hhides hr ((hsame r).mp hr)
  · intro hhides r
    constructor
    · intro hr
      obtain ⟨m, hwell⟩ := wellFormed_of_object hr
      rwa [fromValue_eq_of_not_hides hwell.metadata (hhides m hwell)]
    · intro hr
      obtain ⟨m, hwell⟩ := wellFormed_of_mapping hr
      rwa [← fromValue_eq_of_not_hides hwell.metadata (hhides m hwell)]

/-- What is read from an object that lacks the three has none of them. -/
theorem absent_of_object {e : EvidenceLike F} {r : RetrievalEvidence F}
    (hr : fromValue T toFloat (.object e.attributes) = .ok r) :
    (e.documentId = none → r.documentId = none) ∧ (e.chunkId = none → r.chunkId = none) ∧
      (e.page = none → r.page = none) := by
  rw [fromValue_object] at hr
  obtain ⟨_, _, _, _, _, hpage, hdocumentId, hchunkId, _, _⟩ := normalized_eq_ok.mp hr
  refine ⟨?_, ?_, ?_⟩
  · intro habsent
    rw [habsent] at hdocumentId
    exact (Except.ok.inj hdocumentId).symm
  · intro habsent
    rw [habsent] at hchunkId
    exact (Except.ok.inj hchunkId).symm
  · intro habsent
    rw [habsent] at hpage
    exact (Except.ok.inj hpage).symm

end EvidenceLike

/-! ## The evidence of the retriever -/

/-- A metadata value, as Python has it. -/
def ofValue : Value F → PyValue F
  | .none => .none
  | .bool b => .bool b
  | .int n => .int n
  | .float x => .float x
  | .str s => .str s

/-- Metadata, as Python has it. -/
def ofMetadata (m : Metadata F) : Entries F := m.entries.map fun entry => (some entry.1, ofValue entry.2)

/-- An `Evidence` of the retriever: it has no attribute `document_id`, `chunk_id` or `page`. -/
def evidenceLike (e : Evidence F) : EvidenceLike F where
  content := .str e.content
  source := ofValue e.source
  company := ofValue e.company
  confidence := .float e.confidence
  metadata := .mapping (ofMetadata e.metadata)
  documentId := none
  chunkId := none
  page := none

/-- What the retriever hands to the tool. -/
def evidenceInput (e : Evidence F) : EvidenceInput F := .object (evidenceLike e).attributes

theorem mem_zipIdx_map {α β : Type} {f : α × Nat → β} {xs : List α} {b : β}
    (hb : b ∈ xs.zipIdx.map f) : ∃ x ∈ xs, ∃ index, b = f (x, index) := by
  obtain ⟨item, hitem, rfl⟩ := List.mem_map.mp hb
  exact ⟨item.1, List.fst_mem_of_mem_zipIdx hitem, item.2, rfl⟩

/-- **An object and the mapping of its attributes are read alike exactly when** nothing is hidden, and of
    the evidence the retriever produces no citation has the document, the chunk or the page. -/
theorem object_mapping_agree_iff [PyFloat F] (T : PyText) (toFloat : Int → Except String F) :
    (∀ e : EvidenceLike F,
      (∀ r, fromValue T toFloat (.object e.attributes) = .ok r ↔
        fromValue T toFloat (.mapping e.entries) = .ok r) ↔
      ∀ m, e.WellFormed T toFloat m → ¬ e.Hides m) ∧
    ∀ (R : HybridRetriever F) (ctx : RetrievalContext F) (store : EmbeddingStore F)
      (evidences : List (Evidence F)), retrieveEvidence R ctx store = .ok evidences →
      ∀ e ∈ evidences,
        (∃ chunkId documentId, e.metadata.get "chunk_id" = some (.str chunkId) ∧
          e.metadata.get "document_id" = some (.str documentId)) ∧
        ∀ r, fromValue T toFloat (evidenceInput e) = .ok r → ∀ rank,
          (r.citation rank).read "document_id" = .none ∧ (r.citation rank).read "chunk_id" = .none ∧
          (r.citation rank).read "page" = .none := by
  refine ⟨EvidenceLike.same_iff_not_hides, ?_⟩
  intro R ctx store evidences hevidences e he
  obtain ⟨results, hresults, hmap⟩ := PyList.bind_eq_ok.mp hevidences
  obtain rfl := Except.ok.inj hmap
  obtain ⟨r, hr, index, rfl⟩ := mem_zipIdx_map he
  obtain ⟨-, hchunk, hdocument⟩ := evidenceMetadata_identity r index
  refine ⟨⟨r.chunkId, r.documentId, hchunk, hdocument⟩, ?_⟩
  intro accepted haccepted rank
  obtain ⟨hdocumentId, hchunkId, hpage⟩ := EvidenceLike.absent_of_object haccepted
  have hcitation : accepted.citation rank =
      [ (some "rank", .int rank),
        (some "source_filename", .str accepted.sourceFilename),
        (some "document_id", .none),
        (some "chunk_id", .none),
        (some "page", .none),
        (some "similarity_score", optionalValue .float accepted.similarityScore) ] := by
    unfold RetrievalEvidence.citation
    rw [hdocumentId rfl, hchunkId rfl, hpage rfl]
    rfl
  rw [hcitation]
  exact ⟨rfl, rfl, rfl⟩

/-- A passage of the report, on page 7. -/
def filedPassage (company : List (String × Value ℚ)) : SearchResult ℚ where
  documentId := "3"
  chunkId := "c1"
  score := 1
  content := "Net margin rose."
  metadata := .ofList ([("source", .str "report.pdf"), ("page", .int 7)] ++ company)

/-- Every integer is a rational number. -/
def exact (n : Int) : Except String ℚ := .ok n

/-- **The evidence of a retrieval loses document and page** as an object, and keeps them as a mapping. -/
theorem retrieved_identity_lost :
    ∃ evidences, retrieveEvidence sampleRetriever (Retrieval.sampleContext [])
        (indifferentStore [filedPassage [("company", .str "Acme")]]) = .ok evidences ∧
      ∃ e ∈ evidences, ∃ r r', fromValue .ascii exact (.object (evidenceLike e).attributes) = .ok r ∧
        fromValue .ascii exact (.mapping (evidenceLike e).entries) = .ok r' ∧
        (r.documentId = none ∧ r.page.isNone = true) ∧
        r'.documentId = some "3" ∧ r'.page.isNone = false := by
  have heval : (retrieveEvidence sampleRetriever (Retrieval.sampleContext [])
      (indifferentStore [filedPassage [("company", .str "Acme")]])).toOption.any (fun evidences =>
        evidences.any fun e =>
          (fromValue .ascii exact (.object (evidenceLike e).attributes)).toOption.any
            (fun r => r.documentId == none && r.page.isNone) &&
          (fromValue .ascii exact (.mapping (evidenceLike e).entries)).toOption.any
            (fun r => r.documentId == some "3" && !r.page.isNone)) = true := by
    decide +kernel
  obtain ⟨evidences, hevidences, hany⟩ := PyList.exists_ok_of_any heval
  obtain ⟨e, he, hboth⟩ := List.any_eq_true.mp hany
  obtain ⟨hobject, hmapping⟩ := (Bool.and_eq_true _ _).mp hboth
  obtain ⟨r, hr, hfields⟩ := PyList.exists_ok_of_any hobject
  obtain ⟨r', hr', hfields'⟩ := PyList.exists_ok_of_any hmapping
  obtain ⟨hdocument, hpage⟩ := (Bool.and_eq_true _ _).mp hfields
  obtain ⟨hdocument', hpage'⟩ := (Bool.and_eq_true _ _).mp hfields'
  exact ⟨evidences, hevidences, e, he, r, r', hr, hr', ⟨beq_iff_eq.mp hdocument, hpage⟩,
    beq_iff_eq.mp hdocument', (Bool.not_eq_true' _).mp hpage'⟩

theorem object_mapping_agree_sample :
    ∃ evidences, retrieveEvidence sampleRetriever (Retrieval.sampleContext [])
        (indifferentStore [filedPassage [("company", .str "Acme")]]) = .ok evidences ∧
      ∃ e ∈ evidences, ∃ r, fromValue .ascii exact (evidenceInput e) = .ok r ∧
        (r.citation 1).read "document_id" = .none := by
  have heval : (retrieveEvidence sampleRetriever (Retrieval.sampleContext [])
      (indifferentStore [filedPassage [("company", .str "Acme")]])).toOption.any (fun evidences =>
        evidences.any fun e => (fromValue .ascii exact (evidenceInput e)).toOption.any
          fun r => r.documentId == none) = true := by
    decide +kernel
  obtain ⟨evidences, hevidences, hany⟩ := PyList.exists_ok_of_any heval
  obtain ⟨e, he, haccepted⟩ := List.any_eq_true.mp hany
  obtain ⟨r, hr, -⟩ := PyList.exists_ok_of_any haccepted
  have hcitation := ((object_mapping_agree_iff .ascii exact).2 _ _ _ evidences hevidences e he).2 r hr 1
  exact ⟨evidences, hevidences, e, he, r, hr, hcitation.1⟩

/-! ## Through the tool and back -/

theorem jsonValue_ofValue (v : Value F) : jsonValue (ofValue v) = .ok (ofValue v) := by
  cases v <;> rw [ofValue, jsonValue] <;> simp

/-- Metadata of scalars is its own JSON form. -/
theorem jsonMapping_scalars (entries : List (String × Value F)) :
    jsonMapping (entries.map fun entry => (some entry.1, ofValue entry.2)) =
      .ok (entries.map fun entry => (some entry.1, ofValue entry.2)) := by
  induction entries with
  | nil => rfl
  | cons entry entries ih =>
    rw [List.map_cons, jsonMapping, jsonValue_ofValue, ih]
    rfl

/-- What the tool makes of an `Evidence`, whose source is `source` and whose company was read as
    `company`. -/
def accepted (T : PyText) (e : Evidence F) (source : String) (company : Option String) :
    RetrievalEvidence F where
  content := T.strip e.content
  sourceFilename := T.strip source
  similarityScore := some e.confidence
  documentId := none
  chunkId := none
  page := none
  company := company
  metadata := ofMetadata e.metadata

/-- **When the tool accepts an `Evidence`**: everything depends on its company. -/
theorem fromValue_evidence {e : Evidence F} {source : String} (hcontent : T.strip e.content ≠ "")
    (hsource : e.source = .str source) (hname : T.strip source ≠ "") {r : RetrievalEvidence F} :
    fromValue T toFloat (evidenceInput e) = .ok r ↔
      ∃ company, optionalString T "company" (ofValue e.company) = .ok company ∧
        r = accepted T e source company := by
  have hcontentRead : requiredString T "retrieval evidence requires non-empty content"
      (.str e.content : PyValue F) = .ok (T.strip e.content) := if_neg hcontent
  have hsourceRead : requiredString T "retrieval evidence requires a source filename"
      (ofValue e.source) = .ok (T.strip source) := by
    rw [hsource]
    exact if_neg hname
  have hjson : jsonMapping (ofMetadata e.metadata) = .ok (ofMetadata e.metadata) := jsonMapping_scalars _
  unfold evidenceInput
  rw [EvidenceLike.fromValue_object, EvidenceLike.normalized_eq_ok]
  constructor
  · rintro ⟨m, hm, hc, hs, ⟨score, hscore, hsimilarity⟩, hp, hd, hk, hcompany, hj⟩
    obtain rfl := Except.ok.inj hm
    obtain rfl := Except.ok.inj hscore
    refine ⟨r.company, hcompany, ?_⟩
    -- every other field is read in one way
    obtain ⟨content, filename, similarity, documentId, chunkId, page, company, metadata⟩ := r
    obtain rfl := Except.ok.inj (hcontentRead.symm.trans hc)
    obtain rfl := Except.ok.inj (hsourceRead.symm.trans hs)
    obtain rfl := Except.ok.inj hsimilarity
    obtain rfl := Except.ok.inj hp
    obtain rfl := Except.ok.inj hd
    obtain rfl := Except.ok.inj hk
    obtain rfl := Except.ok.inj (hjson.symm.trans hj)
    rfl
  · rintro ⟨company, hcompany, rfl⟩
    exact ⟨_, rfl, hcontentRead, hsourceRead, ⟨_, rfl, rfl⟩, rfl, rfl, rfl, hcompany, hjson⟩

/-- What the decoder makes of a record of the output. -/
def decoded (zero : F) (rank : Nat) (r : RetrievalEvidence F) : DecodedEvidence F where
  content := r.content
  source := r.sourceFilename
  company := r.company.getD ""
  confidence := r.similarityScore.getD zero
  metadata := ["document_id", "chunk_id", "page", "rank"].foldl (copyIntoMetadata (r.asDict rank)) r.metadata

/-- **Every record of the output is decoded.** -/
theorem decodeRecord_asDict (zero : F) (r : RetrievalEvidence F) (rank : Nat) :
    decodeRecord toFloat zero (.mapping (r.asDict rank)) = .ok (decoded zero rank r) := by
  obtain ⟨content, filename, similarity, documentId, chunkId, page, company, metadata⟩ := r
  cases similarity <;> cases company <;> rfl

theorem evidenceFromToolOutput_toolOutput (zero : F) (query : String) (tenantId : Int)
    (records : List (RetrievalEvidence F)) :
    evidenceFromToolOutput toFloat zero (toolOutput query tenantId records) =
      .ok ((records.zipIdx 1).map fun item => decoded zero item.2 item.1) := by
  have hrecords : ∀ items : List (RetrievalEvidence F × Nat),
      (items.map fun item => PyValue.mapping (item.1.asDict item.2)).mapM (decodeRecord toFloat zero) =
        .ok (items.map fun item => decoded zero item.2 item.1) := by
    intro items
    induction items with
    | nil => rfl
    | cons item items ih =>
      rw [List.map_cons, List.mapM_cons, decodeRecord_asDict, ih]
      rfl
  exact hrecords (records.zipIdx 1)

/-- The evidence of a retrieval as the tool's output, and read back from there. -/
def throughTool (T : PyText) (toFloat : Int → Except String F) (zero : F) (query : String)
    (tenantId : Int) (evidences : List (Evidence F)) : Except String (List (DecodedEvidence F)) := do
  let records ← normaliseEvidence T toFloat (evidences.map evidenceInput)
  evidenceFromToolOutput toFloat zero (toolOutput query tenantId records)

/-- Content, source and company are the same but for white space at their ends, the confidence is the
    same. -/
def Survives (T : PyText) (e : Evidence F) (d : DecodedEvidence F) : Prop :=
  d.content = T.strip e.content ∧ (∃ source, e.source = .str source ∧ d.source = T.strip source) ∧
    (∃ company, e.company = .str company ∧ d.company = T.strip company) ∧ d.confidence = e.confidence

/-- A company that is a name. -/
def IsName (T : PyText) (company : Value F) : Prop := ∃ name, company = .str name ∧ T.strip name ≠ ""

/-- `IsName`, computed. -/
def isName (T : PyText) : Value F → Bool
  | .str name => T.strip name != ""
  | _ => false

theorem isName_iff {company : Value F} : isName T company = true ↔ IsName T company := by
  unfold IsName
  cases company <;> simp [isName]

theorem survives_decoded {e : Evidence F} {source company : String} (hsource : e.source = .str source)
    (hcompany : e.company = .str company) (zero : F) (rank : Nat) :
    Survives T e (decoded zero rank (accepted T e source (some (T.strip company)))) :=
  ⟨rfl, ⟨source, hsource, rfl⟩, ⟨company, hcompany, rfl⟩, rfl⟩

/-- **Evidence with content and source comes back exactly when** every company is a name. -/
theorem throughTool_survives_iff {zero : F} {query : String} {tenantId : Int}
    {evidences : List (Evidence F)} (hcontent : ∀ e ∈ evidences, T.strip e.content ≠ "")
    (hsource : ∀ e ∈ evidences, IsName T e.source) :
    (∃ ds, throughTool T toFloat zero query tenantId evidences = .ok ds ∧
      List.Forall₂ (Survives T) evidences ds) ↔ ∀ e ∈ evidences, IsName T e.company := by
  constructor
  · rintro ⟨ds, hds, hsurvives⟩ e he
    obtain ⟨source, hs, hname⟩ := hsource e he
    obtain ⟨d, -, -, -, ⟨company, hcompany, -⟩, -⟩ := PyList.exists_of_forall₂ hsurvives he
    -- the tool accepted it, so its company is not blank
    obtain ⟨records, hrecords, -⟩ := PyList.bind_eq_ok.mp hds
    have hall := List.forall₂_map_left_iff.mp (PyList.forall₂_of_mapM_eq_ok hrecords)
    obtain ⟨r, -, hr⟩ := PyList.exists_of_forall₂ hall he
    obtain ⟨o, ho, -⟩ := (fromValue_evidence (hcontent e he) hs hname).mp hr
    rw [hcompany] at ho
    refine ⟨company, hcompany, ?_⟩
    rcases optionalString_eq_ok.mp ho with ⟨habs, -⟩ | ⟨s, hs', hne, -⟩
    · cases habs
    · cases hs'
      exact hne
  · intro hcompany
    have hread : ∀ e ∈ evidences, ∀ r, fromValue T toFloat (evidenceInput e) = .ok r →
        ∃ source company, e.source = .str source ∧ e.company = .str company ∧
          r = accepted T e source (some (T.strip company)) := by
      intro e he r hr
      obtain ⟨source, hs, hname⟩ := hsource e he
      obtain ⟨company, hc, hne⟩ := hcompany e he
      obtain ⟨o, ho, rfl⟩ := (fromValue_evidence (hcontent e he) hs hname).mp hr
      rw [hc] at ho
      rcases optionalString_eq_ok.mp ho with ⟨habs, -⟩ | ⟨s, hs', -, rfl⟩
      · cases habs
      · cases hs'
        exact ⟨source, company, hs, hc, rfl⟩
    have haccepted : ∀ input ∈ evidences.map evidenceInput, ∃ r, fromValue T toFloat input = .ok r := by
      intro input hinput
      obtain ⟨e, he, rfl⟩ := List.mem_map.mp hinput
      obtain ⟨source, hs, hname⟩ := hsource e he
      obtain ⟨company, hc, hne⟩ := hcompany e he
      refine ⟨accepted T e source (some (T.strip company)),
        (fromValue_evidence (hcontent e he) hs hname).mpr ⟨_, ?_, rfl⟩⟩
      rw [hc]
      exact if_neg hne
    obtain ⟨records, hrecords⟩ := PyList.exists_mapM_eq_ok haccepted
    refine ⟨(records.zipIdx 1).map fun item => decoded zero item.2 item.1, ?_, ?_⟩
    · unfold throughTool normaliseEvidence
      rw [hrecords]
      exact evidenceFromToolOutput_toolOutput zero query tenantId records
    · have hall := List.forall₂_map_left_iff.mp (PyList.forall₂_of_mapM_eq_ok hrecords)
      refine PyList.forall₂_zipIdx_map hall ?_ 1
      intro e he r rank hr
      obtain ⟨source, company, hs, hc, rfl⟩ := hread e he r hr
      exact survives_decoded hs hc zero rank

/-- **The evidence of a retrieval survives the tool exactly when** every record, or the context where the
    record says nothing, names a company.  Nobody's company is `""`, and the tool refuses it. -/
theorem evidence_round_trips_iff [PyFloat F] (R : HybridRetriever F) (hT : R.text.Punctuated)
    (ctx : RetrievalContext F) (store : EmbeddingStore F) (results : List (SearchResult F))
    (hresults : retrieve R ctx store = .ok results)
    (hcontent : ∀ r ∈ results, R.text.strip r.content ≠ "")
    (hsource : ∀ r ∈ results, IsName R.text ((r.metadata.get "source").getD (.str "")))
    (toFloat : Int → Except String F) (zero : F) (query : String) (tenantId : Int) :
    ∃ evidences, retrieveEvidence R ctx store = .ok evidences ∧ evidences.length = results.length ∧
      ((∃ ds, throughTool R.text toFloat zero query tenantId evidences = .ok ds ∧
        List.Forall₂ (Survives R.text) evidences ds) ↔
      ∀ r ∈ results, IsName R.text ((r.metadata.get "company").getD (.str (ctx.company.getD "")))) := by
  refine ⟨results.zipIdx.map fun item => evidenceOf R.text ctx item.1 item.2, ?_, ?_, ?_⟩
  · rw [retrieveEvidence, hresults]
    rfl
  · rw [List.length_map, List.length_zipIdx]
  · rw [throughTool_survives_iff]
    · constructor
      · intro hcompany r hr
        obtain ⟨index, hindex⟩ := List.getElem?_of_mem hr
        exact hcompany _ (List.mem_map.mpr ⟨(r, index), List.mk_mem_zipIdx_iff_getElem?.mpr hindex, rfl⟩)
      · intro hcompany e he
        obtain ⟨r, hr, index, rfl⟩ := mem_zipIdx_map he
        exact hcompany r hr
    · intro e he
      obtain ⟨r, hr, index, rfl⟩ := mem_zipIdx_map he
      exact (PyText.inked_strip (inked_extractLocalContext hT
        (PyText.inked_of_strip_ne_empty (hcontent r hr)) ctx.question (Nat.zero_lt_two))).ne_empty
    · intro e he
      obtain ⟨r, hr, index, rfl⟩ := mem_zipIdx_map he
      exact hsource r hr

/-- **A record without a company does not pass the tool**: nobody named one, neither the metadata nor the
    context, and the whole output is refused. -/
theorem unnamed_company_refused :
    ∃ results evidences,
      retrieve sampleRetriever (Retrieval.sampleContext []) (indifferentStore [filedPassage []]) =
        .ok results ∧
      (∀ r ∈ results, r.content = "Net margin rose." ∧
        IsName .ascii ((r.metadata.get "source").getD (.str ""))) ∧
      retrieveEvidence sampleRetriever (Retrieval.sampleContext []) (indifferentStore [filedPassage []]) =
        .ok evidences ∧ evidences.length = 1 ∧
      ∀ ds, throughTool .ascii exact 0 "net margin" 7 evidences ≠ .ok ds := by
  have hresults : (retrieve sampleRetriever (Retrieval.sampleContext [])
      (indifferentStore [filedPassage []])).toOption.any (fun results => results.all fun r =>
        r.content == "Net margin rose." && isName .ascii ((r.metadata.get "source").getD (.str ""))) =
      true := by
    decide +kernel
  have hevidences : (retrieveEvidence sampleRetriever (Retrieval.sampleContext [])
      (indifferentStore [filedPassage []])).toOption.any (fun evidences => evidences.length == 1 &&
        (throughTool .ascii exact 0 "net margin" 7 evidences).toOption.isNone) = true := by
    decide +kernel
  obtain ⟨results, hok, hall⟩ := PyList.exists_ok_of_any hresults
  obtain ⟨evidences, hok', hfails⟩ := PyList.exists_ok_of_any hevidences
  obtain ⟨hlength, hnone⟩ := (Bool.and_eq_true _ _).mp hfails
  refine ⟨results, evidences, hok, ?_, hok', beq_iff_eq.mp hlength, ?_⟩
  · intro r hr
    obtain ⟨hcontent, hsource⟩ := (Bool.and_eq_true _ _).mp (List.all_eq_true.mp hall r hr)
    exact ⟨beq_iff_eq.mp hcontent, isName_iff.mp hsource⟩
  · intro ds hds
    rw [hds] at hnone
    cases hnone

theorem evidence_round_trips_sample :
    ∃ evidences ds, retrieveEvidence sampleRetriever (Retrieval.sampleContext [])
        (indifferentStore [filedPassage [("company", .str " Acme ")]]) = .ok evidences ∧
      throughTool .ascii exact 0 "net margin" 7 evidences = .ok ds ∧ ds.length = 1 ∧
      List.Forall₂ (Survives .ascii) evidences ds := by
  have hresults : (retrieve sampleRetriever (Retrieval.sampleContext [])
      (indifferentStore [filedPassage [("company", .str " Acme ")]])).toOption.any (fun results =>
        results.length == 1 && results.all fun r => PyText.ascii.strip r.content != "" &&
          isName .ascii ((r.metadata.get "source").getD (.str "")) &&
          isName .ascii ((r.metadata.get "company").getD (.str ""))) = true := by
    decide +kernel
  obtain ⟨results, hok, hboth⟩ := PyList.exists_ok_of_any hresults
  obtain ⟨hlength, hall⟩ := (Bool.and_eq_true _ _).mp hboth
  have hfields : ∀ r ∈ results, (PyText.ascii.strip r.content ≠ "" ∧
      IsName .ascii ((r.metadata.get "source").getD (.str ""))) ∧
      IsName .ascii ((r.metadata.get "company").getD (.str "")) := by
    intro r hr
    have hr' := List.all_eq_true.mp hall r hr
    rw [Bool.and_eq_true, Bool.and_eq_true, bne_iff_ne] at hr'
    exact ⟨⟨hr'.1.1, isName_iff.mp hr'.1.2⟩, isName_iff.mp hr'.2⟩
  obtain ⟨evidences, hevidences, hcount, hiff⟩ := evidence_round_trips_iff sampleRetriever
    PyText.punctuated_ascii (Retrieval.sampleContext []) _ results hok (fun r hr => (hfields r hr).1.1)
    (fun r hr => (hfields r hr).1.2) exact 0 "net margin" 7
  obtain ⟨ds, hds, hsurvives⟩ := hiff.mpr fun r hr => (hfields r hr).2
  refine ⟨evidences, ds, hevidences, hds, ?_, hsurvives⟩
  rw [← hsurvives.length_eq, hcount]
  exact beq_iff_eq.mp hlength

end FinancialRag.Agent
