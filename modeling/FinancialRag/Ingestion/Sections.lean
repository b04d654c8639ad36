/-
  **The section of a chunk** — whether it is the section of text that is in the chunk.

  A chunk made of one window has the section of all its blocks.  Merging two chunks takes one of their
  sections: the second's if the first is a bare heading and the second is not, else the first's.  That goes
  wrong when just one of the two holds text that is no heading and the other's section is taken: TWO merged
  headings are no bare heading any more, and keep the section of the first before the paragraph they run
  into.

  A chunk is followed together with the windows it was made of (`TracedChunk`).  `labelled_merge_iff` says
  when a merge keeps the section right; the loop's exact rule, `Machine.passes_iff`, carries it to whole runs.
-/
import FinancialRag.Ingestion.Parsing

set_option linter.unusedVariables false

namespace FinancialRag.Ingestion

open FinancialRag.Tasks (DocumentChunk)

/-! ## Chunks with their windows -/

/-- A chunk and the windows it was made of. -/
structure TracedChunk where
  windows : List (Segments.Window ParsedBlock)
  chunk : DocumentChunk

section Definitions

variable (T : PyText) (s : ChunkSettings) (page : ParsedPage)

/-- `_merge_chunks`, with the windows. -/
def TracedChunk.merge (first second : TracedChunk) : TracedChunk :=
  ⟨first.windows ++ second.windows, mergeChunks T first.chunk second.chunk⟩

/-- `_merge_tiny_page_chunks` merges it. -/
def TracedChunk.isTiny (traced : TracedChunk) : Bool :=
  isTinyChunk T (min minMergedChunkChars s.size) traced.chunk

/-- The chunks of a page before any is merged. -/
def tracedWindows : List TracedChunk := (pageWindows T s page).mapIdx fun i w => ⟨[w], makeChunk w i⟩

/-- The merged chunks of a page. -/
def tracedPageChunks : List TracedChunk :=
  Segments.mergeSmall (TracedChunk.isTiny T s) (TracedChunk.merge T) (tracedWindows T s page)

/-- A round of the merging of a page's chunks. -/
def mergingRound (state : List TracedChunk × Nat) : Option (List TracedChunk × Nat) :=
  Segments.mergeBody (TracedChunk.isTiny T s) (TracedChunk.merge T) state

/-! ## Labels -/

/-- The blocks of the page that are no headings and have a piece in the windows. -/
def bodyBlocks (windows : List (Segments.Window ParsedBlock)) : List ParsedBlock :=
  page.blocks.filter fun block =>
    !block.isHeading && windows.any fun w => w.val.any fun piece => (expandBlock T s block).contains piece

/-- The section is that of a block that is no heading and has text in the windows. -/
def IsBodySection (windows : List (Segments.Window ParsedBlock)) (section_ : String) : Prop :=
  ∃ block ∈ bodyBlocks T s page windows, block.section_ = section_

/-- Where a chunk holds text that is no heading, its section is that of such text. -/
def Labelled (traced : TracedChunk) : Prop :=
  bodyBlocks T s page traced.windows ≠ [] → IsBodySection T s page traced.windows traced.chunk.section_

/-- The merged chunk gets the second one's section. -/
def takesSecond (first second : DocumentChunk) : Bool :=
  isHeadingOnlyChunk T first && !isHeadingOnlyChunk T second

/-- The section is taken from `bare`, which holds headings only, and is none of the text in `other`. -/
def TakenFromHeadings (bare other : TracedChunk) : Prop :=
  bodyBlocks T s page bare.windows = [] ∧ bodyBlocks T s page other.windows ≠ [] ∧
    ¬ IsBodySection T s page other.windows bare.chunk.section_

/-- A merge that takes the wrong section. -/
def Mislabels (first second : TracedChunk) : Prop :=
  if takesSecond T first.chunk second.chunk then TakenFromHeadings T s page second first
  else TakenFromHeadings T s page first second

/-- No merge of the page's chunks takes the wrong section. -/
def MergesWell : Prop :=
  ∀ state, Machine.Passes (mergingRound T s) (tracedWindows T s page, 0) state → ∀ first second,
    Segments.Merges (TracedChunk.isTiny T s) (TracedChunk.merge T) state first second →
      ¬ Mislabels T s page first second

end Definitions

variable {T : PyText} {s : ChunkSettings} {page : ParsedPage}

theorem mem_bodyBlocks {windows : List (Segments.Window ParsedBlock)} {block : ParsedBlock} :
    block ∈ bodyBlocks T s page windows ↔ block ∈ page.blocks ∧ block.isHeading = false ∧
      ∃ w ∈ windows, ∃ piece ∈ w.val, piece ∈ expandBlock T s block := by
  unfold bodyBlocks
  simp [List.mem_filter]

theorem mem_bodyBlocks_append {windows windows' : List (Segments.Window ParsedBlock)} {block : ParsedBlock} :
    block ∈ bodyBlocks T s page (windows ++ windows') ↔
      block ∈ bodyBlocks T s page windows ∨ block ∈ bodyBlocks T s page windows' := by
  simp only [mem_bodyBlocks, List.mem_append, or_and_right, exists_or, and_or_left]

theorem isBodySection_append {windows windows' : List (Segments.Window ParsedBlock)} {section_ : String} :
    IsBodySection T s page (windows ++ windows') section_ ↔
      IsBodySection T s page windows section_ ∨ IsBodySection T s page windows' section_ := by
  unfold IsBodySection
  simp only [mem_bodyBlocks_append, or_and_right, exists_or]

theorem bodyBlocks_append_eq_nil {windows windows' : List (Segments.Window ParsedBlock)} :
    bodyBlocks T s page (windows ++ windows') = [] ↔
      bodyBlocks T s page windows = [] ∧ bodyBlocks T s page windows' = [] := by
  simp only [List.eq_nil_iff_forall_not_mem, mem_bodyBlocks_append, not_or, forall_and]

/-- A section taken from a well labelled chunk labels both, unless that chunk holds headings only. -/
theorem labelled_taken_iff {taken other : TracedChunk} (htaken : Labelled T s page taken) :
    (¬ (bodyBlocks T s page taken.windows = [] ∧ bodyBlocks T s page other.windows = []) →
      IsBodySection T s page taken.windows taken.chunk.section_ ∨
        IsBodySection T s page other.windows taken.chunk.section_) ↔
      ¬ TakenFromHeadings T s page taken other := by
  by_cases hbare : bodyBlocks T s page taken.windows = []
  · have hnone : ¬ IsBodySection T s page taken.windows taken.chunk.section_ := by
      rintro ⟨block, hblock, -⟩
      rw [hbare] at hblock
      cases hblock
    unfold TakenFromHeadings
    rw [or_iff_right hnone, and_iff_right hbare, and_iff_right hbare, not_and_not_right]
  · exact iff_of_true (fun _ => .inl (htaken hbare)) fun h => hbare h.1

/-- **A merge of two well labelled chunks labels its result well unless it takes the wrong section.** -/
theorem labelled_merge_iff {first second : TracedChunk} (hfirst : Labelled T s page first)
    (hsecond : Labelled T s page second) :
    Labelled T s page (first.merge T second) ↔ ¬ Mislabels T s page first second := by
  have hsection : (first.merge T second).chunk.section_ =
      if takesSecond T first.chunk second.chunk then second.chunk.section_ else first.chunk.section_ := rfl
  unfold Labelled Mislabels
  rw [hsection]
  have hwindows : (first.merge T second).windows = first.windows ++ second.windows := rfl
  rw [hwindows, isBodySection_append, ne_eq, bodyBlocks_append_eq_nil]
  split
  · rw [and_comm, or_comm]
    exact labelled_taken_iff hsecond
  · exact labelled_taken_iff hfirst

/-! ## The windows of a page -/

/-- The blocks of a group have one section. -/
theorem section_of_mem_group {blocks group : List ParsedBlock} (hgroup : group ∈ sectionGroups blocks)
    {a b : ParsedBlock} (ha : a ∈ group) (hb : b ∈ group) : a.section_ = b.section_ := by
  have hchain := List.isChain_of_mem_splitBy hgroup
  have hsections : (group.map ParsedBlock.section_).IsChain (· = ·) := by
    rw [List.isChain_map]
    exact hchain.imp fun a b h => eq_of_beq h
  have hpairs := List.isChain_iff_pairwise.mp hsections
  exact List.Pairwise.forall_of_forall (fun _ _ => rfl) hpairs (List.mem_map_of_mem ha) (List.mem_map_of_mem hb)

/-- The pieces in a window have one section. -/
theorem section_of_mem_window {w : Segments.Window ParsedBlock} (hw : w ∈ pageWindows T s page)
    {a b : ParsedBlock} (ha : a ∈ w.val) (hb : b ∈ w.val) : a.section_ = b.section_ := by
  obtain ⟨group, hgroup, hw⟩ := List.mem_flatMap.mp hw
  obtain ⟨block, hblock, hpiece⟩ := mem_blockWindows_iff.mp ⟨w, hw, ha⟩
  obtain ⟨block', hblock', hpiece'⟩ := mem_blockWindows_iff.mp ⟨w, hw, hb⟩
  rw [(mem_expandBlock hpiece).2.2.1, (mem_expandBlock hpiece').2.2.1]
  exact section_of_mem_group hgroup hblock hblock'

/-- A chunk of one window is well labelled. -/
theorem labelled_tracedWindows : ∀ traced ∈ tracedWindows T s page, Labelled T s page traced := by
  intro traced htraced hbody
  obtain ⟨i, hi, rfl⟩ := List.mem_mapIdx.mp htraced
  obtain ⟨block, hblock⟩ := List.exists_mem_of_ne_nil _ hbody
  refine ⟨block, hblock, ?_⟩
  obtain ⟨-, -, w, hw, piece, hpiece, hexpand⟩ := mem_bodyBlocks.mp hblock
  obtain rfl := List.mem_singleton.mp hw
  rw [← (mem_expandBlock hexpand).2.2.1]
  exact section_of_mem_window (List.getElem_mem hi) hpiece (List.head_mem _)

/-! ## Runs -/

/-- **Every chunk that the merging of a page comes through is well labelled exactly when no merge takes the
    wrong section.** -/
theorem labelled_iff_mergesWell :
    (∀ state, Machine.Passes (mergingRound T s) (tracedWindows T s page, 0) state →
      ∀ traced ∈ state.1, Labelled T s page traced) ↔ MergesWell T s page := by
  refine Machine.passes_iff (fun state : List TracedChunk × Nat => ∀ traced ∈ state.1, Labelled T s page traced) _
    ?_ ?_ labelled_tracedWindows
  · -- a round that takes no wrong section
    intro state state' hgood hwell hround
    rcases Segments.mergeBody_cases hround with ⟨x, -, -, rfl⟩ | ⟨pre, first, second, post, hpending, rfl, -⟩
    · exact hgood
    · rw [hpending] at hgood
      have hfirst := hgood first (by simp)
      have hsecond := hgood second (by simp)
      intro traced htraced
      rcases List.mem_append.mp htraced with hpre | htraced
      · exact hgood traced (List.mem_append_left _ hpre)
      · rcases List.mem_cons.mp htraced with rfl | hpost
        · exact (labelled_merge_iff hfirst hsecond).mpr (hwell first second ⟨pre, post, hpending, hround⟩)
        · refine hgood traced (List.mem_append_right _ ?_)
          exact List.mem_cons_of_mem _ (List.mem_cons_of_mem _ hpost)
  · -- one that takes a wrong section leaves the chunk it makes in the list
    intro state hgood hwrong
    push Not at hwrong
    obtain ⟨first, second, ⟨pre, post, hpending, hround⟩, hmislabels⟩ := hwrong
    refine ⟨_, hround, fun hnext => ?_⟩
    rw [hpending] at hgood
    have hmerged := hnext (first.merge T second) (List.mem_append_right _ List.mem_cons_self)
    exact (labelled_merge_iff (hgood first (by simp)) (hgood second (by simp))).mp hmerged hmislabels

/-! ## Headings that stand apart -/

/-- A chunk of headings only has behind it one of other text that is no bare heading. -/
def Followed (T : PyText) (s : ChunkSettings) (page : ParsedPage) (first second : TracedChunk) : Prop :=
  bodyBlocks T s page first.windows = [] →
    bodyBlocks T s page second.windows ≠ [] ∧ isHeadingOnlyChunk T second.chunk = false

/-- A state of the merging in which headings stand apart: what holds headings only is a bare heading, has
    other text behind it, and has not been passed. -/
structure HeadingsApart (T : PyText) (s : ChunkSettings) (page : ParsedPage) (state : List TracedChunk × Nat) :
    Prop where
  bare : ∀ traced ∈ state.1, bodyBlocks T s page traced.windows = [] → isHeadingOnlyChunk T traced.chunk = true
  followed : state.1.IsChain (Followed T s page)
  passed : ∀ traced ∈ state.1.take state.2, bodyBlocks T s page traced.windows ≠ []

/-- Two neighbours among those that stand apart. -/
theorem HeadingsApart.neighbours {state : List TracedChunk × Nat} (h : HeadingsApart T s page state)
    {pre post : List TracedChunk} {first second : TracedChunk} (hpending : state.1 = pre ++ first :: second :: post) :
    Followed T s page first second := by
  have hchain := h.followed
  rw [hpending] at hchain
  exact (List.isChain_cons_cons.mp (List.isChain_append.mp hchain).2.1).1

theorem HeadingsApart.not_mislabels {state : List TracedChunk × Nat} (h : HeadingsApart T s page state)
    {pre post : List TracedChunk} {first second : TracedChunk}
    (hpending : state.1 = pre ++ first :: second :: post) : ¬ Mislabels T s page first second := by
  have hfirst := h.bare first (by simp [hpending])
  have hsecond := h.bare second (by simp [hpending])
  have hfollowed := h.neighbours hpending
  unfold Mislabels
  split
  · -- the second's section is taken, so it is no bare heading
    rename_i htakes
    intro hwrong
    have hheading := hsecond hwrong.1
    simp [takesSecond, hheading] at htakes
  · -- if the first holds headings only, the second's section is taken
    rename_i htakes
    intro hwrong
    obtain ⟨-, hbody⟩ := hfollowed hwrong.1
    simp [takesSecond, hfirst hwrong.1, hbody] at htakes

theorem HeadingsApart.round {state state' : List TracedChunk × Nat} (h : HeadingsApart T s page state)
    (hround : mergingRound T s state = some state') : HeadingsApart T s page state' := by
  rcases Segments.mergeBody_cases hround with
    ⟨traced, hget, hlarge, rfl⟩ | ⟨pre, first, second, post, hpending, rfl, hwhich⟩
  · refine ⟨h.bare, h.followed, ?_⟩
    rw [List.take_add_one, hget]
    intro other hother
    rcases List.mem_append.mp hother with hother | hother
    · exact h.passed other hother
    · -- what is passed is not tiny, so it is no bare heading
      obtain rfl : other = traced := by simpa using hother
      intro hnone
      have hheading := h.bare other (List.mem_of_getElem? hget) hnone
      unfold TracedChunk.isTiny isTinyChunk at hlarge
      rw [hheading, Bool.or_true] at hlarge
      cases hlarge
  · have hfollowed := h.neighbours hpending
    have hmerged : bodyBlocks T s page (first.merge T second).windows ≠ [] := by
      intro hnone
      obtain ⟨hfirst, hsecond⟩ := bodyBlocks_append_eq_nil.mp hnone
      exact (hfollowed hfirst).1 hsecond
    have hpre : ∀ traced ∈ pre, bodyBlocks T s page traced.windows ≠ [] := by
      intro traced htraced
      refine h.passed traced ?_
      have htake : pre <+: state.1.take state.2 := by
        rw [hpending, List.prefix_take_iff]
        refine ⟨List.prefix_append _ _, ?_⟩
        rcases hwhich with ⟨hindex, -⟩ | ⟨hindex, -, -⟩ <;> omega
      exact htake.subset htraced
    have hchain := h.followed
    rw [hpending, List.isChain_append] at hchain
    obtain ⟨hchainPre, hchainRest, -⟩ := hchain
    refine ⟨?_, ?_, ?_⟩
    · intro traced htraced hnone
      rcases List.mem_append.mp htraced with hmem | hmem
      · exact absurd hnone (hpre traced hmem)
      · rcases List.mem_cons.mp hmem with rfl | hmem
        · exact absurd hnone hmerged
        · exact h.bare traced (by simp [hpending, hmem]) hnone
    · refine List.isChain_append.mpr ⟨hchainPre, ?_, ?_⟩
      · refine List.isChain_cons.mpr ⟨fun _ _ hnone => absurd hnone hmerged, ?_⟩
        exact (List.isChain_cons.mp (List.isChain_cons.mp hchainRest).2).2
      · intro last hlast _ _ hnone
        exact absurd hnone (hpre last (List.mem_of_getLast? hlast))
    · dsimp only
      rw [List.take_left]
      exact hpre

/-- **Where headings stand apart, no merge takes the wrong section**: on a page each of whose windows of
    headings only is a bare heading, followed by a window of other text that is no bare heading. -/
theorem mergesWell_of_headingsApart (h : HeadingsApart T s page (tracedWindows T s page, 0)) :
    MergesWell T s page := by
  intro state hpasses first second hmerges
  have hstate := hpasses.invariant (fun _ _ hstate hround => hstate.round hround) h
  obtain ⟨pre, post, hpending, -⟩ := hmerges
  exact hstate.not_mislabels hpending

/-! ## The chunks of a document -/

theorem map_chunk_tracedPageChunks : (tracedPageChunks T s page).map TracedChunk.chunk = pageChunks T s page := by
  have hwindows : (tracedWindows T s page).map TracedChunk.chunk =
      (pageWindows T s page).mapIdx fun i w => makeChunk w i := by
    refine List.ext_getElem (by simp [tracedWindows]) ?_
    intro i hi hi'
    simp [tracedWindows]
  rw [pageChunks_eq, ← hwindows]
  exact (Segments.mergeSmall_map (fun _ _ => rfl) _).symm

/-- The merged chunks are made of their windows. -/
theorem madeOf_tracedPageChunks (hT : T.Lawful) (hpage : PageOk T page) :
    ∀ traced ∈ tracedPageChunks T s page, MadeOf T page.number traced.windows traced.chunk := by
  refine Segments.forall_mem_mergeSmall (fun _ _ => madeOf_mergeChunks hT) ?_
  intro traced htraced
  obtain ⟨i, hi, rfl⟩ := List.mem_mapIdx.mp htraced
  exact madeOf_window hpage (List.getElem_mem hi) i

/-- The merged chunks are well labelled when no merge takes the wrong section. -/
theorem labelled_tracedPageChunks (h : MergesWell T s page) :
    ∀ traced ∈ tracedPageChunks T s page, Labelled T s page traced := by
  obtain ⟨index, hends⟩ := Segments.ends_mergeSmall (TracedChunk.isTiny T s) (TracedChunk.merge T)
    (tracedWindows T s page)
  exact labelled_iff_mergesWell.mpr h _ hends.passes

/-- What the sections of a document's chunks satisfy. -/
structure SectionContract (T : PyText) (s : ChunkSettings) (document : ParsedDocument)
    (chunks : List DocumentChunk) : Prop where
  /-- A chunk is, but for its number, a merged chunk of a page, made of its windows; if no merge of the page
      takes the wrong section, it is well labelled. -/
  labelled : ∀ chunk ∈ chunks, ∃ page ∈ document.pages, ∃ traced ∈ tracedPageChunks T s page,
    chunk = { traced.chunk with chunkIndex := chunk.chunkIndex } ∧
      MadeOf T page.number traced.windows traced.chunk ∧ (MergesWell T s page → Labelled T s page traced)
  /-- No merge of a page takes the wrong section exactly when every chunk it comes through is well labelled. -/
  labelled_iff : ∀ page ∈ document.pages, (∀ state, Machine.Passes (mergingRound T s) (tracedWindows T s page, 0) state →
    ∀ traced ∈ state.1, Labelled T s page traced) ↔ MergesWell T s page

/-- **The section of a chunk is that of text in it as long as no merge takes the wrong one.** -/
theorem chunk_sections (T : PyText) (hT : T.Lawful) (C : CaseTable) {filename : String} {pages : List RawPage}
    {document : ParsedDocument} (hparse : parsePdf T C filename pages = .ok document)
    {chunkSize overlap : Int} {s : ChunkSettings} (hvalid : validateChunkSettings chunkSize overlap = .ok s) :
    ∃ chunks, chunkDocument T document chunkSize overlap = .ok chunks ∧ SectionContract T s document chunks := by
  have hrun : chunkDocument T document chunkSize overlap =
      .ok (numbered (deduplicateChunks T (document.pages.flatMap (pageChunks T s)))) := by
    unfold chunkDocument
    rw [hvalid]
    rfl
  refine ⟨_, hrun, ?_, fun page _ => labelled_iff_mergesWell⟩
  intro chunk hchunk
  obtain ⟨merged, hmerged, index, rfl⟩ := mem_numbered hchunk
  have hmem := (List.mem_filter.mp ((PyList.keepFirst_sublist _ _ _).mem hmerged)).1
  obtain ⟨page, hpage, hmem⟩ := List.mem_flatMap.mp hmem
  rw [← map_chunk_tracedPageChunks] at hmem
  obtain ⟨traced, htraced, rfl⟩ := List.mem_map.mp hmem
  have hok := pageOk_parsePdf hparse page hpage
  exact ⟨page, hpage, traced, htraced, rfl, madeOf_tracedPageChunks hT hok traced htraced,
    fun hwell => labelled_tracedPageChunks hwell traced htraced⟩

/-- A page with three headings in a row and a paragraph. -/
def threeHeadings : List RawPage :=
  [⟨["ANNUAL REPORT\n", "RISK FACTORS\n", "SUPPLY CHAIN\n", "Shortages of parts may\ndelay deliveries.\n"], false⟩]

/-- It, parsed. -/
def annualReport : ParsedDocument where
  filename := "report.pdf"
  parserVersion := parserVersion
  pages := [⟨1, [⟨"ANNUAL REPORT", 1, "ANNUAL REPORT", false, true⟩, ⟨"RISK FACTORS", 1, "RISK FACTORS", false, true⟩,
    ⟨"SUPPLY CHAIN", 1, "SUPPLY CHAIN", false, true⟩,
    ⟨"Shortages of parts may delay deliveries.", 1, "SUPPLY CHAIN", false, false⟩], false⟩]

theorem parsePdf_threeHeadings :
    parsePdf PyText.ascii CaseTable.ascii "report.pdf" threeHeadings = .ok annualReport := by
  decide +kernel

theorem chunk_sections_annualReport :
    ∃ s chunks, validateChunkSettings 800 100 = .ok s ∧
      chunkDocument PyText.ascii annualReport 800 100 = .ok chunks ∧
      SectionContract PyText.ascii s annualReport chunks := by
  obtain ⟨chunks, hrun, hcontract⟩ := chunk_sections PyText.ascii PyText.lawful_ascii CaseTable.ascii
    parsePdf_threeHeadings (rfl : validateChunkSettings 800 100 = .ok ⟨800, 100, by decide⟩)
  exact ⟨_, chunks, rfl, hrun, hcontract⟩

/-- **Three headings and a paragraph**: the one chunk has the section of the first heading, the one text in it
    that is no heading has another. -/
theorem annualReport_mislabelled :
    parsePdf PyText.ascii CaseTable.ascii "report.pdf" threeHeadings = .ok annualReport ∧
      chunkDocument PyText.ascii annualReport 800 100 = .ok [{
        text := "ANNUAL REPORT\n\nRISK FACTORS\n\nSUPPLY CHAIN\n\nShortages of parts may delay deliveries."
        page := 1
        section_ := "ANNUAL REPORT"
        ocrUsed := false
        chunkIndex := 0
        parserVersion := parserVersion
        chunkerVersion := chunkerVersion }] ∧
      (annualReport.pages.flatMap ParsedPage.blocks).filter (fun block => !block.isHeading) =
        [⟨"Shortages of parts may delay deliveries.", 1, "SUPPLY CHAIN", false, false⟩] := by
  refine ⟨parsePdf_threeHeadings, ?_, by decide⟩
  decide +kernel

end FinancialRag.Ingestion
