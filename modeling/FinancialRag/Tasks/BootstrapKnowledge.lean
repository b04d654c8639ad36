/-
  `docker/bootstrap_knowledge.py`: whether the public base is that of the demo folder, and a refresh of it if
  it is not.

  The check before the refresh compares file names and embedding profiles with what is indexed; the check
  after it is the same one, and raises.  A refresh that completes indexes every file that `load_documents`
  takes, under the current profile (`sources_of_refreshed`, `profiles_of_refreshed`), so the one thing that
  can still fail is that the two programs do not take the same files: the loader folds the case of a suffix,
  the glob does not.

  crux: `bootstrap_settles` — where they do, a bootstrap whose refresh completes succeeds, and the next
  one finds nothing to do; where they do not, every bootstrap that refreshes raises.
-/
import FinancialRag.Ingestion.Merging
import FinancialRag.Retrieval.Noninterference
import FinancialRag.Tasks.PublicBase

set_option linter.unusedVariables false
set_option linter.unusedSectionVars false

namespace FinancialRag.Tasks

open Machine
open FinancialRag.Storage
open FinancialRag.Ingestion (parserVersion chunkerVersion)

/-! ## Loading a file -/

/-- `load_pdf_chunks`, of a document that was parsed. -/
def loadPdfChunks (T : PyText) (document : Ingestion.ParsedDocument) (chunkSize overlap : Int) :
    Except String (List DocumentChunk) := do
  let chunks ← Ingestion.chunkDocument T document chunkSize overlap
  if chunks.isEmpty then .error "PDF produced no indexable chunks" else return chunks

/-- What every caller of `load_pdf_chunks` can rely on. -/
structure Loaded (chunks : List DocumentChunk) : Prop where
  nonempty : chunks ≠ []
  text : ∀ c ∈ chunks, c.text ≠ ""
  parser : ∀ c ∈ chunks, c.parserVersion = parserVersion
  chunker : ∀ c ∈ chunks, c.chunkerVersion = chunkerVersion
  positions : (chunks.map DocumentChunk.chunkIndex).Nodup

/-- Merging keeps the versions of the first chunk. -/
theorem versions_pageChunks {T : PyText} {s : Ingestion.ChunkSettings} {page : Ingestion.ParsedPage}
    {c : DocumentChunk} (hc : c ∈ Ingestion.pageChunks T s page) :
    c.parserVersion = parserVersion ∧ c.chunkerVersion = chunkerVersion := by
  let P : DocumentChunk → Prop := fun c =>
    c.parserVersion = parserVersion ∧ c.chunkerVersion = chunkerVersion
  have hmerge : ∀ x y, P x → P y → P (Ingestion.mergeChunks T x y) := by
    intro x y hx _
    show (Ingestion.mergeChunks T x y).parserVersion = parserVersion ∧
      (Ingestion.mergeChunks T x y).chunkerVersion = chunkerVersion
    rw [Ingestion.mergeChunks]
    exact hx
  rw [Ingestion.pageChunks_eq, Ingestion.mergeTinyPageChunks] at hc
  refine Segments.forall_mem_mergeSmall hmerge ?_ c hc
  intro c hc
  obtain ⟨i, hi, rfl⟩ := List.mem_mapIdx.mp hc
  exact ⟨rfl, rfl⟩

theorem exists_numbered {T : PyText} {document : Ingestion.ParsedDocument} {chunkSize overlap : Int}
    {chunks : List DocumentChunk} (h : Ingestion.chunkDocument T document chunkSize overlap = .ok chunks) :
    ∃ s, chunks = Ingestion.numbered (Ingestion.deduplicateChunks T
      (document.pages.flatMap (Ingestion.pageChunks T s))) := by
  unfold Ingestion.chunkDocument at h
  cases hvalid : Ingestion.validateChunkSettings chunkSize overlap with
  | error error =>
    rw [hvalid] at h
    cases h
  | ok s =>
    rw [hvalid] at h
    exact ⟨s, (Except.ok.inj h).symm⟩

/-- **What `load_pdf_chunks` returns can be indexed.** -/
theorem loaded_loadPdfChunks {T : PyText} (hT : T.Spaced) {document : Ingestion.ParsedDocument}
    {chunkSize overlap : Int} {chunks : List DocumentChunk}
    (h : loadPdfChunks T document chunkSize overlap = .ok chunks) : Loaded chunks := by
  obtain ⟨found, hfound, hnonempty⟩ := PyList.bind_eq_ok.mp h
  split at hnonempty
  · cases hnonempty
  · rename_i hempty
    obtain rfl := Except.ok.inj hnonempty
    have hpositions := Ingestion.nodup_chunkIndex hfound
    obtain ⟨s, rfl⟩ := exists_numbered hfound
    have hmem : ∀ c ∈ Ingestion.numbered (Ingestion.deduplicateChunks T
        (document.pages.flatMap (Ingestion.pageChunks T s))), ∃ page, ∃ chunk ∈ Ingestion.pageChunks T s page,
        Ingestion.isIndexable T chunk = true ∧ ∃ index, c = { chunk with chunkIndex := index } := by
      intro c hc
      obtain ⟨chunk, hchunk, index, rfl⟩ := Ingestion.mem_numbered hc
      obtain ⟨hall, hindexable⟩ := List.mem_filter.mp ((PyList.keepFirst_sublist _ _ _).mem hchunk)
      obtain ⟨page, _, hpage⟩ := List.mem_flatMap.mp hall
      exact ⟨page, chunk, hpage, hindexable, index, rfl⟩
    constructor
    · intro hnil
      rw [hnil] at hempty
      exact hempty rfl
    · intro c hc hblank
      obtain ⟨page, chunk, _, hindexable, index, rfl⟩ := hmem c hc
      have hlong := (Ingestion.isIndexable_iff.mp hindexable).1
      rw [show chunk.text = "" from hblank, Ingestion.normalizeContent_empty hT] at hlong
      exact absurd hlong (by decide)
    · intro c hc
      obtain ⟨page, chunk, hchunk, _, index, rfl⟩ := hmem c hc
      exact (versions_pageChunks hchunk).1
    · intro c hc
      obtain ⟨page, chunk, hchunk, _, index, rfl⟩ := hmem c hc
      exact (versions_pageChunks hchunk).2
    · exact hpositions

/-! ## The bootstrap -/

/-- `DEMO_PDF_DIR.glob("*.pdf")`: the suffix as it is written. -/
def globPdf (name : String) : Bool := ".pdf".toList.isSuffixOf name.toList

/-- `_expected_demo_sources`; `none`: there is no such directory. -/
def expectedDemoSources (demo : Option (List PublicFile)) : Finset String :=
  (((demo.getD []).filter fun file => globPdf file.name && file.isFile).map PublicFile.name).toFinset

section Bootstrap

variable {F : Type} [PyFloat F]

/-- `str(row.metadata.get("source"))`, if it is not empty. -/
def sourceOf (row : SearchResult F) : Option String :=
  let source := row.metadata.read "source"
  if source.truthy then some source.text else none

/-- `str(row.metadata.get(key, ""))`. -/
def metadataText (row : SearchResult F) (key : String) : String :=
  match row.metadata.get key with
  | some v => v.text
  | none => ""

abbrev EmbeddingProfile := String × String × String × String

def profileOf (row : SearchResult F) : EmbeddingProfile :=
  (metadataText row "embedding_model", metadataText row "embedding_revision",
    metadataText row "parser_version", metadataText row "chunker_version")

/-- The four readings of the store. -/
inductive Reading where
  | sourcesBefore
  | profilesBefore
  | sourcesAfter
  | profilesAfter

variable (T : PyText) (cfg : EmbeddingConfig) (E : ChromaEngine F) (readable : Reading → Bool)

/-- `_indexed_public_sources`: none, if the store cannot be read. -/
def indexedPublicSources (reading : Reading) (client : Client F) : Finset String :=
  if readable reading then ((lexicalCorpus E client (some publicTenantId)).filterMap sourceOf).toFinset else ∅

/-- `_indexed_public_profiles`. -/
def indexedPublicProfiles (reading : Reading) (client : Client F) : Finset EmbeddingProfile :=
  if readable reading then ((lexicalCorpus E client (some publicTenantId)).map profileOf).toFinset else ∅

/-- `_current_embedding_profile`. -/
def currentEmbeddingProfile : EmbeddingProfile :=
  (cfg.model, if cfg.revision = "" then "unversioned" else cfg.revision, parserVersion, chunkerVersion)

inductive BootstrapError where
  /-- raised by the refresh -/
  | refresh (error : String)
  | sourceMismatch (missing stale : Finset String)
  | outdatedProfile

/-- Nothing to do: no public document is there and none expected, or `sources_match and profile_matches`. -/
def isCurrent (expected : Finset String) (client : Client F) : Bool :=
  let sources := indexedPublicSources E readable .sourcesBefore client
  let profiles := indexedPublicProfiles E readable .profilesBefore client
  (decide (expected = ∅) && decide (sources = ∅)) ||
    (decide (expected = sources) &&
      (decide (expected = ∅) || decide (profiles = {currentEmbeddingProfile cfg})))

/-- What is checked after the refresh. -/
def checkRefreshed (expected : Finset String) (client : Client F) : Except BootstrapError Unit :=
  let sources := indexedPublicSources E readable .sourcesAfter client
  let profiles := indexedPublicProfiles E readable .profilesAfter client
  if (expected \ sources).Nonempty ∨ (sources \ expected).Nonempty then
    .error (.sourceMismatch (expected \ sources) (sources \ expected))
  else if expected.Nonempty ∧ profiles ≠ {currentEmbeddingProfile cfg} then .error .outdatedProfile
  else .ok ()

/-- One refresh, as a machine of its own. -/
def refreshMachine (s : RefreshPc F × Client F) (a : RefreshInput F) : Option (RefreshPc F × Client F) :=
  refreshStep T cfg s.2 s.1 a

/-- `bootstrap`: how it ends, and the store it leaves.  `inputs`: what the external operations of the refresh
    answer, if there is one; `none` if they do not bring it to its end. -/
def bootstrap (demo : Option (List PublicFile)) (inputs : List (RefreshInput F)) (client : Client F) :
    Option (Except BootstrapError Unit × Client F) :=
  if isCurrent cfg E readable (expectedDemoSources demo) client then some (.ok (), client)
  else
    match exec (refreshMachine T cfg) (.loading, client) inputs with
    | some (.refreshed _, after) =>
      some (checkRefreshed cfg E readable (expectedDemoSources demo) after, after)
    | some (.failed error, after) => some (.error (.refresh error), after)
    | _ => none

end Bootstrap

/-! ## What a file contributes -/

/-- A name with a suffix has a stem. -/
theorem pathStem_ne_empty {name : String} (h : pathSuffix name ≠ "") : pathStem name ≠ "" := by
  have hshort : (pathSuffix name).length < name.length := by
    unfold pathSuffix at h ⊢
    dsimp only at h ⊢
    split at h
    · exact absurd rfl h
    · rename_i hcond
      rw [if_neg hcond, String.length_ofList, List.length_cons]
      rw [Bool.or_eq_true, not_or, decide_eq_true_iff, decide_eq_true_iff] at hcond
      omega
  intro hempty
  have hnil := congrArg String.toList hempty
  unfold pathStem at hnil
  rw [String.toList_ofList, show ("" : String).toList = [] from rfl, List.take_eq_nil_iff] at hnil
  rcases hnil with hzero | hnil
  · omega
  · have hlength : name.length = 0 := by rw [← String.length_toList, hnil]; rfl
    omega

theorem replace_ne_empty {s old new : String} (hs : s ≠ "") (hnew : new ≠ "") :
    PyText.replace s old new ≠ "" := by
  intro hempty
  have hnil := congrArg String.toList hempty
  unfold PyText.replace at hnil
  rw [String.toList_ofList] at hnil
  cases hlist : s.toList with
  | nil => exact hs (String.toList_injective hlist)
  | cons c cs =>
    rw [hlist, PyText.replaceList] at hnil
    split at hnil
    · exact hnew (String.toList_injective (List.append_eq_nil_iff.mp hnil).1)
    · cases hnil

/-- Where the passages of a folder are from. -/
theorem mem_loadDocuments {T : PyText} {folder : List PublicFile} {chunks : List PublicChunk}
    (h : loadDocuments T folder = .ok chunks) {chunk : PublicChunk} :
    chunk ∈ chunks ↔ ∃ file ∈ pdfFiles T folder, ∃ part, publicChunks T file = .ok part ∧ chunk ∈ part := by
  obtain ⟨parts, hparts, hflatten⟩ := PyList.bind_eq_ok.mp h
  obtain rfl := Except.ok.inj hflatten
  rw [List.mem_flatten]
  constructor
  · rintro ⟨part, hpart, hchunk⟩
    obtain ⟨file, hfile, hloads⟩ := PyList.exists_of_mem_mapM_eq_ok hparts hpart
    exact ⟨file, hfile, part, hloads, hchunk⟩
  · rintro ⟨file, hfile, part, hloads, hchunk⟩
    obtain ⟨part', hpart', hloads'⟩ := PyList.exists_of_forall₂ (PyList.forall₂_of_mapM_eq_ok hparts) hfile
    rw [hloads'] at hloads
    obtain rfl := Except.ok.inj hloads
    exact ⟨part', hpart', hchunk⟩

/-- A passage that a search shows and the bootstrap counts. -/
structure Countable (chunk : PublicChunk) : Prop where
  source : chunk.source ≠ ""
  documentId : chunk.documentId ≠ ""
  text : chunk.text ≠ ""
  parser : chunk.parserVersion = parserVersion
  chunker : chunk.chunkerVersion = chunkerVersion

/-- What is in the folder, is what `load_pdf_chunks` makes of some document. -/
def Made (T : PyText) (folder : List PublicFile) : Prop :=
  ∀ file ∈ folder, ∀ chunks, file.chunks = .ok chunks →
    ∃ document chunkSize overlap, loadPdfChunks T document chunkSize overlap = .ok chunks

theorem distinct_of_made {T : PyText} (hT : T.Spaced) {folder : List PublicFile} (hmade : Made T folder)
    (hcontents : (folder.map PublicFile.contentSha256).Nodup) : Distinct folder where
  contents := hcontents
  positions file hfile chunks hchunks := by
    obtain ⟨document, chunkSize, overlap, hload⟩ := hmade file hfile chunks hchunks
    exact (loaded_loadPdfChunks hT hload).positions

section Folder

variable {T : PyText} {folder : List PublicFile} {chunks : List PublicChunk}

theorem mem_pdfFiles {file : PublicFile} : file ∈ pdfFiles T folder ↔
    file ∈ folder ∧ file.isFile = true ∧ T.casefold (pathSuffix file.name) = ".pdf" := by
  unfold pdfFiles
  rw [(PyList.sorted_perm _ _).mem_iff, List.mem_filter, Bool.and_eq_true, beq_iff_eq]

/-- **Every file that is taken contributes passages, and all of them count.** -/
theorem countable_loadDocuments (hlawful : T.Lawful) (hT : T.Spaced) (hmade : Made T folder)
    (h : loadDocuments T folder = .ok chunks) :
    (∀ chunk ∈ chunks, Countable chunk ∧ ∃ file ∈ pdfFiles T folder, chunk.source = file.name) ∧
      ∀ file ∈ pdfFiles T folder, ∃ chunk ∈ chunks, chunk.source = file.name := by
  constructor
  · intro chunk hchunk
    obtain ⟨file, hfile, part, hpart, hmem⟩ := (mem_loadDocuments h).mp hchunk
    obtain ⟨hfolder, _, hsuffix⟩ := mem_pdfFiles.mp hfile
    obtain ⟨found, hfound, hmap⟩ := PyList.bind_eq_ok.mp hpart
    obtain rfl := Except.ok.inj hmap
    obtain ⟨c, hc, rfl⟩ := List.mem_map.mp hmem
    obtain ⟨document, chunkSize, overlap, hload⟩ := hmade file hfolder found hfound
    have hloaded := loaded_loadPdfChunks hT hload
    have hhas : pathSuffix file.name ≠ "" := by
      intro hnone
      rw [hnone, hT.casefold_empty] at hsuffix
      exact absurd hsuffix (by decide)
    refine ⟨⟨?_, ?_, hloaded.text c hc, hloaded.parser c hc, hloaded.chunker c hc⟩, file, hfile, rfl⟩
    · intro hname
      rw [show file.name = "" from hname] at hhas
      exact hhas rfl
    · have hstem := hlawful.casefold _ (pathStem_ne_empty hhas)
      exact replace_ne_empty (replace_ne_empty hstem (by decide)) (by decide)
  · intro file hfile
    obtain ⟨parts, hparts, _⟩ := PyList.bind_eq_ok.mp h
    obtain ⟨part, _, hpart⟩ := PyList.exists_of_forall₂ (PyList.forall₂_of_mapM_eq_ok hparts) hfile
    obtain ⟨found, hfound, hmap⟩ := PyList.bind_eq_ok.mp hpart
    obtain ⟨document, chunkSize, overlap, hload⟩ := hmade file (mem_pdfFiles.mp hfile).1 found hfound
    obtain ⟨c, hc⟩ := List.exists_mem_of_ne_nil _ (loaded_loadPdfChunks hT hload).nonempty
    have hpartEq := Except.ok.inj hmap
    exact ⟨_, (mem_loadDocuments h).mpr ⟨file, hfile, part, hpart, hpartEq ▸ List.mem_map_of_mem hc⟩, rfl⟩

end Folder

/-! ## What a search shows after a refresh -/

section Corpus

variable {F : Type} [PyFloat F] {T : PyText} {cfg : EmbeddingConfig} {E : ChromaEngine F}

/-- A `get` answers with everything that matches. -/
def Complete (E : ChromaEngine F) : Prop := ∀ c t, ∀ r ∈ c.ofTenant t, r ∈ E.get c (some t)

theorem mem_lexicalCorpus (honest : E.Honest) (complete : Complete E) {client : Client F}
    {row : SearchResult F} : row ∈ lexicalCorpus E client (some publicTenantId) ↔
      ∃ e ∈ publicEntries client, toLexical e.2 = some row := by
  unfold lexicalCorpus
  rw [(PyList.sorted_perm _ _).mem_iff, List.mem_filterMap]
  constructor
  · rintro ⟨r, hr, hrow⟩
    obtain ⟨c, hc, hget⟩ := List.mem_flatMap.mp hr
    obtain ⟨hrecord, htenant⟩ := List.mem_filter.mp (honest.get_matches c _ r hget)
    exact ⟨(c.name, r), mem_entries.mpr ⟨c, hc, rfl, hrecord, htenant⟩, hrow⟩
  · rintro ⟨e, he, hrow⟩
    obtain ⟨c, hc, _, hrecord, htenant⟩ := mem_entries.mp he
    refine ⟨e.2, List.mem_flatMap.mpr ⟨c, hc, ?_⟩, hrow⟩
    exact complete c _ _ (List.mem_filter.mpr ⟨hrecord, htenant⟩)

/-- The search shows the passage under its source and the current profile. -/
structure Shows (cfg : EmbeddingConfig) (row : SearchResult F) (chunk : PublicChunk) : Prop where
  source : sourceOf row = some chunk.source
  profile : profileOf row = currentEmbeddingProfile cfg

/-- Under its own keys a document's metadata is what is stored. -/
theorem get_publicRecord (cfg : EmbeddingConfig) (chunk : PublicChunk) (embedding : List F) (key : String) :
    (publicDocument cfg chunk embedding).record.metadata.get key =
      ((publicMetadata cfg chunk).get key).or ((Dict.ofList [("document_id", Value.str chunk.documentId),
        ("company", .str chunk.company)]).get key) := by
  have hown : (publicDocument cfg chunk embedding).metadata = publicMetadata cfg chunk := by
    rw [publicDocument]
  rw [VectorDocument.record, storedMetadata, Dict.get_update, hown, publicDocument]

/-- The row of a record that has a document id and a content. -/
theorem toLexical_of_get {r : Record F} {documentId : String}
    (hget : r.metadata.get "document_id" = some (.str documentId)) (hid : documentId ≠ "")
    (htext : r.document ≠ "") : ∃ row, toLexical r = some row ∧ row.metadata = r.metadata := by
  have hshown : ((r.metadata.read "document_id").truthy && r.document != "") = true := by
    unfold Metadata.read
    rw [hget, Bool.and_eq_true]
    exact ⟨bne_iff_ne.mpr hid, bne_iff_ne.mpr htext⟩
  exact ⟨_, if_pos hshown, rfl⟩

theorem shows_publicDocument (cfg : EmbeddingConfig) {chunk : PublicChunk} (hchunk : Countable chunk)
    (embedding : List F) :
    ∃ row, toLexical (publicDocument cfg chunk embedding).record = some row ∧ Shows cfg row chunk := by
  have hget : ∀ key v, (key, v) ∈ [("source", Value.str (F := F) chunk.source),
      ("parser_version", .str chunk.parserVersion), ("chunker_version", .str chunk.chunkerVersion),
      ("embedding_model", .str cfg.model),
      ("embedding_revision", .str (if cfg.revision = "" then "unversioned" else cfg.revision))] →
      (publicDocument cfg chunk embedding).record.metadata.get key = some v := by
    intro key v hkv
    have hown : (publicMetadata cfg chunk).get key = some v := by
      refine Dict.get_update_of_mem (by simp) ?_ _
      simp only [List.mem_cons, List.not_mem_nil, or_false] at hkv ⊢
      tauto
    rw [get_publicRecord, hown]
    rfl
  have hdocument : (publicDocument cfg chunk embedding).record.metadata.get "document_id" =
      some (.str chunk.documentId) := by
    have hown : (publicMetadata (F := F) cfg chunk).get "document_id" = none :=
      Dict.get_update_of_not_mem _ _ _ (by simp)
    rw [get_publicRecord, hown]
    exact Dict.get_update_of_mem (by simp) List.mem_cons_self _
  have hsource := hget "source" (.str chunk.source) (by simp)
  have hmodel := hget "embedding_model" (.str cfg.model) (by simp)
  have hrevision := hget "embedding_revision"
    (.str (if cfg.revision = "" then "unversioned" else cfg.revision)) (by simp)
  have hparser := hget "parser_version" (.str chunk.parserVersion) (by simp)
  have hchunker := hget "chunker_version" (.str chunk.chunkerVersion) (by simp)
  have htext : (publicDocument cfg chunk embedding).record.document ≠ "" := hchunk.text
  obtain ⟨row, hrow, hmetadata⟩ := toLexical_of_get hdocument hchunk.documentId htext
  rw [← hmetadata] at hsource hmodel hrevision hparser hchunker
  refine ⟨row, hrow, ?_, ?_⟩
  · unfold sourceOf Metadata.read
    rw [hsource]
    exact if_pos (bne_iff_ne.mpr hchunk.source)
  · unfold profileOf metadataText currentEmbeddingProfile
    rw [hmodel, hrevision, hparser, hchunker, hchunk.parser, hchunk.chunker]
    rfl

section Refreshed

variable {client : Client F} {chunks : List PublicChunk} {rows : List (List F)}

/-- **After a refresh a search shows every passage of the folder, and nothing else.** -/
theorem corpus_of_refreshed (honest : E.Honest) (complete : Complete E)
    (hentries : (publicEntries client).Perm (entriesOf (publicDocuments cfg chunks rows)))
    (hlength : rows.length = chunks.length) (hchunks : ∀ chunk ∈ chunks, Countable chunk) :
    (∀ row ∈ lexicalCorpus E client (some publicTenantId), ∃ chunk ∈ chunks, Shows cfg row chunk) ∧
      ∀ chunk ∈ chunks, ∃ row ∈ lexicalCorpus E client (some publicTenantId), Shows cfg row chunk := by
  have hmem : ∀ e, e ∈ publicEntries client ↔ ∃ pair ∈ chunks.zip rows,
      ("financial_reports", (publicDocument cfg pair.1 pair.2).record) = e := by
    intro e
    rw [hentries.mem_iff, entriesOf, publicDocuments, ← List.map_uncurry_zip_eq_zipWith, List.map_map,
      List.mem_map]
    rfl
  constructor
  · intro row hrow
    obtain ⟨e, he, hlexical⟩ := (mem_lexicalCorpus honest complete).mp hrow
    obtain ⟨pair, hpair, rfl⟩ := (hmem e).mp he
    have hchunk : pair.1 ∈ chunks := (List.of_mem_zip hpair).1
    obtain ⟨row', hlexical', hshows⟩ := shows_publicDocument cfg (hchunks _ hchunk) pair.2
    obtain rfl : row' = row := Option.some.inj (hlexical'.symm.trans hlexical)
    exact ⟨pair.1, hchunk, hshows⟩
  · intro chunk hchunk
    have hzip : chunk ∈ (chunks.zip rows).map Prod.fst := by
      rw [List.map_fst_zip (by omega)]
      exact hchunk
    obtain ⟨pair, hpair, rfl⟩ := List.mem_map.mp hzip
    obtain ⟨row, hlexical, hshows⟩ := shows_publicDocument cfg (hchunks _ hchunk) pair.2
    have hentry := (hmem ("financial_reports", (publicDocument cfg pair.1 pair.2).record)).mpr
      ⟨pair, hpair, rfl⟩
    exact ⟨row, (mem_lexicalCorpus honest complete).mpr ⟨_, hentry, hlexical⟩, hshows⟩

end Refreshed

/-! ## The refresh -/

/-- The documents of the folder, ready to be added. -/
def Prepared (T : PyText) (cfg : EmbeddingConfig) (folder : List PublicFile)
    (docs : List (VectorDocument F)) : Prop :=
  ∃ chunks rows, loadDocuments T folder = .ok chunks ∧ rows.length = chunks.length ∧
    docs = publicDocuments cfg chunks rows

/-- What is true where a refresh of the folder stands. -/
def RefreshPc.At (T : PyText) (cfg : EmbeddingConfig) (folder : List PublicFile) (client : Client F) :
    RefreshPc F → Prop
  | .loading | .failed _ => True
  | .embedding chunks => loadDocuments T folder = .ok chunks
  | .opening docs | .deleting docs => Prepared T cfg folder docs
  | .adding docs => Prepared T cfg folder docs ∧ publicEntries client = []
  | .refreshed docs => Prepared T cfg folder docs ∧ (publicEntries client).Perm (entriesOf docs)

/-- The invariant of a refresh. -/
structure Refreshing (T : PyText) (cfg : EmbeddingConfig) (folder : List PublicFile)
    (s : RefreshPc F × Client F) : Prop where
  names : s.2.names.Nodup
  place : s.1.At T cfg folder s.2

variable {folder : List PublicFile}

theorem publicKind_of_prepared {docs : List (VectorDocument F)} (h : Prepared T cfg folder docs) :
    ∀ v ∈ docs, PublicKind v := by
  obtain ⟨chunks, rows, _, _, rfl⟩ := h
  exact fun v hv => publicKind_of_mem hv

theorem refreshing_step (hfolder : Distinct folder) {s t : RefreshPc F × Client F} {a : RefreshInput F}
    (h : Refreshing T cfg folder s) (hlists : ∀ found, a = .lists found → found = folder)
    (hstep : refreshMachine T cfg s a = some t) : Refreshing T cfg folder t := by
  obtain ⟨pc, client⟩ := s
  obtain ⟨pc', client'⟩ := t
  have hnames : client.names.Nodup := h.names
  have hplace := h.place
  have hclient : client' = (refreshChange pc a).apply client := client_refreshStep hstep
  unfold refreshMachine at hstep
  dsimp only at hstep hplace
  cases pc with
  | loading =>
    cases a <;> simp only [refreshStep, Option.some.injEq, reduceCtorEq, Prod.mk.injEq] at hstep
    case lists found =>
      rw [hlists found rfl] at hstep
      split at hstep
      · rename_i chunks hload
        obtain ⟨rfl, rfl⟩ := Prod.mk.inj (Option.some.inj hstep)
        exact ⟨hnames, hload⟩
      · obtain ⟨rfl, rfl⟩ := Prod.mk.inj (Option.some.inj hstep)
        exact ⟨hnames, trivial⟩
    case raises error =>
      obtain ⟨rfl, rfl⟩ := hstep
      exact ⟨hnames, trivial⟩
  | embedding chunks =>
    cases a <;> simp only [refreshStep, Option.some.injEq, reduceCtorEq, Prod.mk.injEq] at hstep
    case embeds rows =>
      split at hstep
      · rename_i hlength
        obtain ⟨rfl, rfl⟩ := Prod.mk.inj (Option.some.inj hstep)
        exact ⟨hnames, chunks, rows, hplace, hlength, rfl⟩
      · obtain ⟨rfl, rfl⟩ := Prod.mk.inj (Option.some.inj hstep)
        exact ⟨hnames, trivial⟩
    case raises error =>
      obtain ⟨rfl, rfl⟩ := hstep
      exact ⟨hnames, trivial⟩
  | opening docs =>
    cases a <;> simp only [refreshStep, Option.some.injEq, reduceCtorEq, Prod.mk.injEq] at hstep
    case go =>
      obtain ⟨rfl, rfl⟩ := hstep
      exact ⟨nodup_names_withCollection (fun _ => rfl) hnames, hplace⟩
    case raises error =>
      obtain ⟨rfl, rfl⟩ := hstep
      exact ⟨hnames, trivial⟩
  | deleting docs =>
    have hcleared : ∀ first, ((StoreChange.clearPublic (F := F) first).apply client).names.Nodup := by
      intro first
      rw [apply_clearPublic, names_mapFirst]
      exact hnames
    cases a <;> simp only [refreshStep, Option.some.injEq, reduceCtorEq, Prod.mk.injEq] at hstep
    case go =>
      obtain ⟨rfl, rfl⟩ := hstep
      exact ⟨hcleared none, hplace, publicEntries_clearPublic client⟩
    case deletesPartly n error =>
      obtain ⟨rfl, rfl⟩ := hstep
      exact ⟨hcleared (some n), trivial⟩
    case raises error =>
      obtain ⟨rfl, rfl⟩ := hstep
      exact ⟨hnames, trivial⟩
  | adding docs =>
    obtain ⟨hprepared, hnone⟩ : Prepared T cfg folder docs ∧ publicEntries client = [] := hplace
    have hkind := publicKind_of_prepared hprepared
    cases a <;> simp only [refreshStep, Option.some.injEq, reduceCtorEq, Prod.mk.injEq] at hstep
    case go =>
      obtain ⟨rfl, rfl⟩ := hstep
      refine ⟨nodup_names_addDocuments (fun v hv => (hkind v hv).collection) hnames, hprepared, ?_⟩
      refine perm_entries_addDocuments hnames hnone (fun v hv => (hkind v hv).collection) ?_
        fun v hv => (hkind v hv).tenant
      obtain ⟨chunks, rows, hload, _, rfl⟩ := hprepared
      exact nodup_publicDocuments (nodup_keys hfolder hload) rows
    case addsPartly n error =>
      obtain ⟨rfl, rfl⟩ := hstep
      refine ⟨nodup_names_addDocuments (fun v hv => (hkind v ?_).collection) hnames, trivial⟩
      exact List.mem_of_mem_take hv
    case raises error =>
      obtain ⟨rfl, rfl⟩ := hstep
      exact ⟨hnames, trivial⟩
  | refreshed docs => cases a <;> cases hstep
  | failed error => cases a <;> cases hstep

/-- Where a refresh of the folder ends. -/
theorem refreshing_of_exec (hfolder : Distinct folder) {client : Client F} (hnames : client.names.Nodup)
    {inputs : List (RefreshInput F)} (hlists : ∀ found, .lists found ∈ inputs → found = folder)
    {s : RefreshPc F × Client F} (h : exec (refreshMachine T cfg) (.loading, client) inputs = some s) :
    Refreshing T cfg folder s := by
  have hrun : Run (refreshMachine T cfg) (fun _ a => ∀ found, a = .lists found → found = folder)
      (.loading, client) inputs s :=
    run_of_exec h fun a ha _ found hfound => hlists found (hfound ▸ ha)
  exact hrun.invariant (fun s a t hs hP hstep => refreshing_step hfolder hs hP hstep) ⟨hnames, trivial⟩

/-! ## Before and after -/

/-- The loader and the glob take the same files. -/
def SameFiles (T : PyText) (folder : List PublicFile) : Prop :=
  ∀ file ∈ folder, file.isFile = true →
    (T.casefold (pathSuffix file.name) = ".pdf" ↔ globPdf file.name = true)

/-- The files that a refresh of the folder loads. -/
def loadedSources (T : PyText) (folder : List PublicFile) : Finset String :=
  ((pdfFiles T folder).map PublicFile.name).toFinset

theorem mem_loadedSources {name : String} : name ∈ loadedSources T folder ↔
    ∃ file ∈ folder, file.isFile = true ∧ T.casefold (pathSuffix file.name) = ".pdf" ∧ file.name = name := by
  unfold loadedSources
  rw [List.mem_toFinset, List.mem_map]
  constructor
  · rintro ⟨file, hfile, hname⟩
    obtain ⟨hfolder, hisFile, hsuffix⟩ := mem_pdfFiles.mp hfile
    exact ⟨file, hfolder, hisFile, hsuffix, hname⟩
  · rintro ⟨file, hfolder, hisFile, hsuffix, hname⟩
    exact ⟨file, mem_pdfFiles.mpr ⟨hfolder, hisFile, hsuffix⟩, hname⟩

theorem mem_expectedDemoSources {name : String} : name ∈ expectedDemoSources (some folder) ↔
    ∃ file ∈ folder, file.isFile = true ∧ globPdf file.name = true ∧ file.name = name := by
  unfold expectedDemoSources
  rw [List.mem_toFinset, List.mem_map]
  constructor
  · rintro ⟨file, hfile, hname⟩
    obtain ⟨hfolder, hboth⟩ := List.mem_filter.mp hfile
    obtain ⟨hglob, hisFile⟩ := Bool.and_eq_true_iff.mp hboth
    exact ⟨file, hfolder, hisFile, hglob, hname⟩
  · rintro ⟨file, hfolder, hisFile, hglob, hname⟩
    exact ⟨file, List.mem_filter.mpr ⟨hfolder, Bool.and_eq_true_iff.mpr ⟨hglob, hisFile⟩⟩, hname⟩

/-- Both choose by the name alone. -/
theorem expected_eq_loaded_iff : expectedDemoSources (some folder) = loadedSources T folder ↔
    SameFiles T folder := by
  constructor
  · intro heq file hfile hisFile
    constructor
    · intro hsuffix
      have hloaded : file.name ∈ loadedSources T folder :=
        mem_loadedSources.mpr ⟨file, hfile, hisFile, hsuffix, rfl⟩
      obtain ⟨other, _, _, hglob, hname⟩ := mem_expectedDemoSources.mp (heq ▸ hloaded)
      rwa [hname] at hglob
    · intro hglob
      have hexpected : file.name ∈ expectedDemoSources (some folder) :=
        mem_expectedDemoSources.mpr ⟨file, hfile, hisFile, hglob, rfl⟩
      obtain ⟨other, _, _, hsuffix, hname⟩ := mem_loadedSources.mp (heq ▸ hexpected)
      rwa [hname] at hsuffix
  · intro hsame
    ext name
    rw [mem_expectedDemoSources, mem_loadedSources]
    refine exists_congr fun file => and_congr_right fun hfile => and_congr_right fun hisFile => ?_
    rw [hsame file hfile hisFile]

section Readings

variable {docs : List (VectorDocument F)} {client : Client F}

theorem sources_of_refreshed (honest : E.Honest) (complete : Complete E) (hlawful : T.Lawful) (hT : T.Spaced)
    (hmade : Made T folder) (h : Refreshing T cfg folder (.refreshed docs, client)) :
    ((lexicalCorpus E client (some publicTenantId)).filterMap sourceOf).toFinset =
      loadedSources T folder := by
  obtain ⟨⟨chunks, rows, hload, hlength, rfl⟩, hentries⟩ := h.place
  obtain ⟨hfrom, hof⟩ := countable_loadDocuments hlawful hT hmade hload
  obtain ⟨honly, hall⟩ := corpus_of_refreshed honest complete hentries hlength fun chunk hchunk =>
    (hfrom chunk hchunk).1
  ext name
  unfold loadedSources
  rw [List.mem_toFinset, List.mem_toFinset, List.mem_filterMap, List.mem_map]
  constructor
  · rintro ⟨row, hrow, hsource⟩
    obtain ⟨chunk, hchunk, hshows⟩ := honly row hrow
    obtain ⟨_, file, hfile, hname⟩ := hfrom chunk hchunk
    exact ⟨file, hfile, hname.symm.trans (Option.some.inj (hshows.source.symm.trans hsource))⟩
  · rintro ⟨file, hfile, rfl⟩
    obtain ⟨chunk, hchunk, hname⟩ := hof file hfile
    obtain ⟨row, hrow, hshows⟩ := hall chunk hchunk
    exact ⟨row, hrow, hname ▸ hshows.source⟩

theorem profiles_of_refreshed (honest : E.Honest) (complete : Complete E) (hlawful : T.Lawful) (hT : T.Spaced)
    (hmade : Made T folder) (h : Refreshing T cfg folder (.refreshed docs, client))
    (hsome : (loadedSources T folder).Nonempty) :
    ((lexicalCorpus E client (some publicTenantId)).map profileOf).toFinset =
      {currentEmbeddingProfile cfg} := by
  obtain ⟨⟨chunks, rows, hload, hlength, rfl⟩, hentries⟩ := h.place
  obtain ⟨hfrom, hof⟩ := countable_loadDocuments hlawful hT hmade hload
  obtain ⟨honly, hall⟩ := corpus_of_refreshed honest complete hentries hlength fun chunk hchunk =>
    (hfrom chunk hchunk).1
  obtain ⟨name, hname⟩ := hsome
  obtain ⟨file, hfile, _⟩ := List.mem_map.mp (List.mem_toFinset.mp hname)
  obtain ⟨chunk, hchunk, _⟩ := hof file hfile
  obtain ⟨shown, hshown, hprofile⟩ := hall chunk hchunk
  ext profile
  rw [List.mem_toFinset, List.mem_map, Finset.mem_singleton]
  constructor
  · rintro ⟨row, hrow, rfl⟩
    obtain ⟨_, _, hshows⟩ := honly row hrow
    exact hshows.profile
  · rintro rfl
    exact ⟨shown, hshown, hprofile.profile⟩

variable {readable : Reading → Bool}

/-- **What is checked after a refresh of the folder holds just when both take the same files.** -/
theorem checkRefreshed_iff (honest : E.Honest) (complete : Complete E) (hlawful : T.Lawful) (hT : T.Spaced)
    (hmade : Made T folder) (h : Refreshing T cfg folder (.refreshed docs, client))
    (hsources : readable .sourcesAfter = true) (hprofiles : readable .profilesAfter = true) :
    checkRefreshed cfg E readable (expectedDemoSources (some folder)) client = .ok () ↔
      SameFiles T folder := by
  have hindexed := sources_of_refreshed honest complete hlawful hT hmade h
  have hcurrent := profiles_of_refreshed honest complete hlawful hT hmade h
  unfold checkRefreshed indexedPublicSources indexedPublicProfiles
  dsimp only
  rw [if_pos hsources, if_pos hprofiles, hindexed, ← expected_eq_loaded_iff]
  constructor
  · intro hok
    split at hok
    · cases hok
    · rename_i hmatch
      rw [not_or, Finset.not_nonempty_iff_eq_empty, Finset.not_nonempty_iff_eq_empty,
        Finset.sdiff_eq_empty_iff_subset, Finset.sdiff_eq_empty_iff_subset] at hmatch
      exact Finset.Subset.antisymm hmatch.1 hmatch.2
  · intro heq
    rw [heq, Finset.sdiff_self]
    rw [if_neg (by simp), if_neg]
    rintro ⟨hsome, hold⟩
    exact hold (hcurrent hsome)

/-- Then the next bootstrap has nothing to do. -/
theorem isCurrent_of_refreshed (honest : E.Honest) (complete : Complete E) (hlawful : T.Lawful)
    (hT : T.Spaced) (hmade : Made T folder) (h : Refreshing T cfg folder (.refreshed docs, client))
    (hsame : SameFiles T folder) (hreadable : ∀ reading, readable reading = true) :
    isCurrent cfg E readable (expectedDemoSources (some folder)) client = true := by
  have hindexed := sources_of_refreshed honest complete hlawful hT hmade h
  have hcurrent := profiles_of_refreshed honest complete hlawful hT hmade h
  unfold isCurrent indexedPublicSources indexedPublicProfiles
  dsimp only
  rw [if_pos (hreadable _), if_pos (hreadable _), hindexed, expected_eq_loaded_iff.mpr hsame]
  rcases Finset.eq_empty_or_nonempty (loadedSources T folder) with hnone | hsome
  · rw [hnone]
    rfl
  · rw [hcurrent hsome]
    simp

end Readings

/-- **A bootstrap settles the public base, or raises every time.**  Of the demo folder, whose files differ in
    content, and from any store: a bootstrap that reads the store again after its refresh ends well if there
    was nothing to do, or if its refresh completed and the loader and the glob take the same files of the
    folder; otherwise it raises.  Where it ends well, every later bootstrap of the folder has nothing to do
    and leaves the store. -/
theorem bootstrap_settles (honest : E.Honest) (complete : Complete E) (hlawful : T.Lawful) (hT : T.Spaced)
    (hmade : Made T folder) (hcontents : (folder.map PublicFile.contentSha256).Nodup)
    {client after : Client F} (hnames : client.names.Nodup) {readable : Reading → Bool}
    (hsources : readable .sourcesAfter = true) (hprofiles : readable .profilesAfter = true)
    {inputs : List (RefreshInput F)}
    (hlists : ∀ found, .lists found ∈ inputs → found = folder) {outcome : Except BootstrapError Unit}
    (h : bootstrap T cfg E readable (some folder) inputs client = some (outcome, after)) :
    (outcome = .ok () ↔
        isCurrent cfg E readable (expectedDemoSources (some folder)) client = true ∨
          (∃ docs, exec (refreshMachine T cfg) (.loading, client) inputs = some (.refreshed docs, after)) ∧
            SameFiles T folder) ∧
      ((∀ reading, readable reading = true) → outcome = .ok () → ∀ inputs',
        bootstrap T cfg E readable (some folder) inputs' after = some (.ok (), after)) := by
  unfold bootstrap at h
  by_cases hcurrent : isCurrent cfg E readable (expectedDemoSources (some folder)) client = true
  · rw [if_pos hcurrent] at h
    obtain ⟨rfl, rfl⟩ := Prod.mk.inj (Option.some.inj h)
    exact ⟨⟨fun _ => Or.inl hcurrent, fun _ => rfl⟩, fun _ _ inputs' => if_pos hcurrent⟩
  · rw [if_neg hcurrent] at h
    have hend : ∀ s, exec (refreshMachine T cfg) (.loading, client) inputs = some s →
        Refreshing T cfg folder s :=
      fun s hs => refreshing_of_exec (distinct_of_made hT hmade hcontents) hnames hlists hs
    generalize exec (refreshMachine T cfg) (.loading, client) inputs = result at h hend
    match result, h, hend with
    | some (.refreshed docs, refreshed), h, hend =>
      obtain ⟨rfl, rfl⟩ := Prod.mk.inj (Option.some.inj h)
      have hrefreshed := hend _ rfl
      have hiff := checkRefreshed_iff honest complete hlawful hT hmade hrefreshed hsources hprofiles
      constructor
      · rw [hiff]
        constructor
        · exact fun hsame => Or.inr ⟨⟨docs, rfl⟩, hsame⟩
        · rintro (hnow | ⟨_, hsame⟩)
          · exact absurd hnow hcurrent
          · exact hsame
      · intro hreadable hok inputs'
        have hsame := hiff.mp hok
        exact if_pos (isCurrent_of_refreshed honest complete hlawful hT hmade hrefreshed hsame hreadable)
    | some (.failed error, failed), h, hend =>
      obtain ⟨rfl, rfl⟩ := Prod.mk.inj (Option.some.inj h)
      constructor
      · constructor
        · intro hok
          cases hok
        · rintro (hnow | ⟨⟨docs, hdone⟩, _⟩)
          · exact absurd hnow hcurrent
          · cases hdone
      · intro _ hok
        cases hok

end Corpus

/-! ## A folder -/

/-- One page with one line of text. -/
def demoDocument : Ingestion.ParsedDocument where
  filename := "q1.pdf"
  pages := [⟨1, [⟨"Revenue for the first quarter rose by ten percent.", 1, "Results", false, false⟩], false⟩]
  parserVersion := parserVersion

def demoFolder : List PublicFile :=
  [⟨"q1.pdf", true, "aa", loadPdfChunks .ascii demoDocument 800 100⟩,
    ⟨"notes.txt", true, "bb", .error "no PDF"⟩]

def demoInputs : List (RefreshInput ℚ) := [.lists demoFolder, .embeds [[1]], .go, .go, .go]

/-- The bootstrap of the folder, the store being readable. -/
def bootstrapDemo : List (RefreshInput ℚ) → Client ℚ → Option (Except BootstrapError Unit × Client ℚ) :=
  bootstrap .ascii ⟨"m", ""⟩ Retrieval.exactEngine (fun _ => true) (some demoFolder)

theorem complete_exactEngine : Complete Retrieval.exactEngine := fun c t r hr => PyList.mem_sorted.mpr hr

theorem made_demoFolder : Made .ascii demoFolder := by
  intro file hfile chunks hchunks
  rcases List.mem_pair.mp hfile with rfl | rfl
  · exact ⟨demoDocument, 800, 100, hchunks⟩
  · cases hchunks

theorem sameFiles_demoFolder : SameFiles .ascii demoFolder := by
  intro file hfile _
  rcases List.mem_pair.mp hfile with rfl | rfl
  · decide +kernel
  · decide +kernel

/-- From an empty store the bootstrap loads the one file, and is done for good. -/
theorem demoFolder_settles : ∃ after, bootstrapDemo demoInputs ⟨[]⟩ = some (.ok (), after) ∧
    ∀ inputs, bootstrapDemo inputs after = some (.ok (), after) := by
  have hsome : (loadDocuments .ascii demoFolder).toOption.any (fun chunks => chunks.length == 1) = true := by
    decide +kernel
  obtain ⟨chunks, hload, hlength⟩ := PyList.exists_ok_of_any hsome
  have hrows : [[(1 : ℚ)]].length = chunks.length := (beq_iff_eq.mp hlength).symm
  obtain ⟨docs, after, hexec⟩ : ∃ docs after, exec (refreshMachine .ascii ⟨"m", ""⟩) (.loading, ⟨[]⟩)
      demoInputs = some (RefreshPc.refreshed docs, after) := by
    have hembed : refreshStep .ascii ⟨"m", ""⟩ ⟨[]⟩ (.embedding chunks) (.embeds [[(1 : ℚ)]]) =
        some (.opening (publicDocuments ⟨"m", ""⟩ chunks [[1]]), ⟨[]⟩) := if_pos hrows
    simp only [demoInputs, exec, refreshMachine, refreshStep.eq_1, hload, hembed]
    exact ⟨_, _, rfl⟩
  have hbefore : isCurrent ⟨"m", ""⟩ Retrieval.exactEngine (fun _ => true)
      (expectedDemoSources (some demoFolder)) ⟨[]⟩ = false := by
    decide +kernel
  have hrun : bootstrapDemo demoInputs ⟨[]⟩ = some (checkRefreshed ⟨"m", ""⟩ Retrieval.exactEngine
      (fun _ => true) (expectedDemoSources (some demoFolder)) after, after) := by
    unfold bootstrapDemo bootstrap
    rw [hbefore, hexec]
    rfl
  have hlists : ∀ found, RefreshInput.lists found ∈ demoInputs → found = demoFolder := by
    intro found hfound
    simpa [demoInputs] using hfound
  obtain ⟨houtcome, hnext⟩ := bootstrap_settles Retrieval.exactEngine_honest complete_exactEngine
    PyText.lawful_ascii PyText.spaced_ascii made_demoFolder (by decide) (by decide) rfl rfl hlists hrun
  have hok := houtcome.mpr (Or.inr ⟨⟨docs, hexec⟩, sameFiles_demoFolder⟩)
  exact ⟨after, hrun.trans (by rw [hok]), hnext (fun _ => rfl) hok⟩

end FinancialRag.Tasks
