/-
  What chunking a document guarantees.

  `chunk_document_contract`: for clean blocks the chunks are numbered in order, pairwise different, long
  enough and no bare headings; each is made of blocks of its own page and knows whether one of them was
  OCRed; and NO TEXT IS LOST: every piece of every block has its content in a chunk that is emitted, or
  dropped for one of three reasons.

  The invariant is `MadeOf`, between a chunk and the windows it was made of: `makeChunk` establishes it
  (`madeOf_makeChunk`) and merging two chunks keeps it (`madeOf_mergeChunks`); how merging divides a
  page's windows is the library's rule.
-/
import Mathlib.Data.List.SplitBy
import FinancialRag.Ingestion.DocumentLoader

set_option linter.unusedVariables false

namespace FinancialRag.Ingestion

open FinancialRag.Tasks (DocumentChunk)

variable {T : PyText}

/-! ## Clean text -/

/-- A text as `clean_text` leaves it, if it leaves anything. -/
structure Clean (T : PyText) (text : String) : Prop where
  noBreak : '\n' ∉ text.toList
  stripped : T.strip text = text
  nonempty : text ≠ ""

theorem Clean.inked {text : String} (h : Clean T text) : T.Inked text := by
  refine PyText.inked_of_strip_ne_empty ?_
  rw [h.stripped]
  exact h.nonempty

/-- A line break is where the pattern of line breaks matches. -/
theorem lineBreak_matches (prev : Option Char) (rest : List Char) :
    (lineBreak T).ends ⟨prev, '\n' :: rest, []⟩ ≠ [] := by
  intro hnil
  have hparts : (Re.seqs [.cls (· == '\n'), .rep T.isSpace 0 none true]).ends
      ⟨prev, '\n' :: rest, []⟩ = [] :=
    List.flatMap_eq_nil_iff.mp hnil _ (Re.mem_ends_rep_zero _ _ _ _)
  have hafter : ((Re.rep T.isSpace 0 none true).seq .eps).ends ⟨some '\n', rest, []⟩ = [] := by
    refine List.flatMap_eq_nil_iff.mp hparts _ ?_
    exact List.mem_singleton.mpr rfl
  have hend := List.flatMap_eq_nil_iff.mp hafter _ (Re.mem_ends_rep_zero _ _ _ _)
  cases hend

theorem clean_cleanText {raw : String} (h : cleanText T raw ≠ "") : Clean T (cleanText T raw) := by
  refine ⟨?_, T.strip_strip _, h⟩
  intro hbreak
  have hsub := PyText.mem_of_mem_strip hbreak
  unfold Re.sub at hsub
  rw [String.toList_ofList] at hsub
  rcases Re.mem_subFrom hsub with ⟨_, hblank⟩ | ⟨prev, rest, hnil⟩
  · simp at hblank
  · exact lineBreak_matches prev rest hnil

theorem normalizeContent_ne_empty (hT : T.Lawful) {text : String} (h : T.Inked text) :
    normalizeContent T text ≠ "" := by
  refine hT.casefold _ (PyText.Inked.ne_empty (PyText.inked_strip ?_))
  obtain ⟨c, hc, hspace⟩ := hT.nfkc text h
  refine ⟨c, ?_, hspace⟩
  rw [String.toList_ofList]
  exact PyText.mem_squeeze hc hspace

/-! ## Pieces of clean text are clean -/

theorem mem_splitSentences {prev : Option Char} {gap : Bool} {part cs l : List Char} {c : Char}
    (hl : l ∈ splitSentences T prev gap part cs) (hc : c ∈ l) : c ∈ part ∨ c ∈ cs := by
  induction cs generalizing prev gap part with
  | nil =>
    obtain rfl := List.mem_singleton.mp hl
    exact Or.inl (List.mem_reverse.mp hc)
  | cons x cs ih =>
    rw [splitSentences] at hl
    split at hl
    · exact (ih hl).imp id (List.mem_cons_of_mem x)
    · split at hl
      · rcases List.mem_cons.mp hl with rfl | hl
        · exact Or.inl (List.mem_reverse.mp hc)
        · right
          split at hl
          · rcases ih hl with hnil | hrest
            · cases hnil
            · exact List.mem_cons_of_mem x hrest
          · rcases ih hl with hx | hrest
            · obtain rfl := List.mem_singleton.mp hx
              exact List.mem_cons_self
            · exact List.mem_cons_of_mem x hrest
      · rcases ih hl with hpart | hrest
        · rcases List.mem_cons.mp hpart with rfl | hpart
          · exact Or.inr List.mem_cons_self
          · exact Or.inl hpart
        · exact Or.inr (List.mem_cons_of_mem x hrest)

theorem noBreak_of_mem_sentencesOf {text sentence : String} (htext : '\n' ∉ text.toList)
    (h : sentence ∈ sentencesOf T text) : '\n' ∉ sentence.toList := by
  obtain ⟨part, hpart, rfl⟩ := List.mem_map.mp (List.mem_filter.mp h).1
  intro hbreak
  have hmem := PyText.mem_of_mem_strip hbreak
  rw [String.toList_ofList] at hmem
  rcases mem_splitSentences hpart hmem with hnil | htext'
  · cases hnil
  · exact htext htext'

theorem noBreak_appendSentence {current sentence : String} (hcurrent : '\n' ∉ current.toList)
    (hsentence : '\n' ∉ sentence.toList) : '\n' ∉ (appendSentence T current sentence).toList := by
  intro hbreak
  have hmem := PyText.mem_of_mem_strip hbreak
  rw [String.toList_append, String.toList_append, List.mem_append, List.mem_append] at hmem
  rcases hmem with (hc | hblank) | hs
  · exact hcurrent hc
  · simp at hblank
  · exact hsentence hs

theorem noBreak_overlapPrefix {overlap : Nat} {current : String} (h : '\n' ∉ current.toList) :
    '\n' ∉ (overlapPrefix T overlap current).toList := by
  unfold overlapPrefix
  split
  · simp
  · intro hbreak
    have hmem := PyText.mem_of_mem_lstrip hbreak
    rw [String.toList_ofList] at hmem
    exact h (List.mem_of_mem_drop hmem)

theorem clean_of_mem_sentencePieces {s : ChunkSettings} {current piece : String}
    {sentences : List String} (hcurrent : '\n' ∉ current.toList)
    (hstripped : T.strip current = current) (hsentences : ∀ x ∈ sentences, '\n' ∉ x.toList)
    (h : piece ∈ sentencePieces T s current sentences) : Clean T piece := by
  induction sentences generalizing current with
  | nil =>
    rw [sentencePieces] at h
    split at h
    · rename_i hne
      obtain rfl := List.mem_singleton.mp h
      exact ⟨hcurrent, hstripped, hne⟩
    · cases h
  | cons sentence rest ih =>
    have hsentence := hsentences sentence List.mem_cons_self
    have hrest := fun x hx => hsentences x (List.mem_cons_of_mem _ hx)
    rw [sentencePieces] at h
    split at h
    · rename_i hfull
      rcases List.mem_cons.mp h with rfl | h
      · exact ⟨hcurrent, hstripped, hfull.1⟩
      · exact ih (noBreak_appendSentence (noBreak_overlapPrefix hcurrent) hsentence)
          (T.strip_strip _) hrest h
    · exact ih (noBreak_appendSentence hcurrent hsentence) (T.strip_strip _) hrest h

theorem clean_of_mem_windowPieces {s : ChunkSettings} {text piece : String} {starts : List Nat}
    (htext : '\n' ∉ text.toList) (h : piece ∈ windowPieces T s text starts) : Clean T piece := by
  induction starts with
  | nil => cases h
  | cons start rest ih =>
    have hlater : piece ∈ (if text.length ≤ start + s.size then [] else windowPieces T s text rest) →
        Clean T piece := by
      intro hmem
      split at hmem
      · cases hmem
      · exact ih hmem
    rw [windowPieces] at h
    split at h
    · rename_i hne
      rcases List.mem_cons.mp h with rfl | h
      · refine ⟨?_, T.strip_strip _, hne⟩
        intro hbreak
        have hmem := PyText.mem_of_mem_strip hbreak
        rw [String.toList_ofList] at hmem
        exact htext (List.mem_of_mem_drop (List.mem_of_mem_take hmem))
      · exact hlater h
    · exact hlater h

/-- **The pieces of a clean text are clean.** -/
theorem clean_of_mem_splitLongText {s : ChunkSettings} {text piece : String} (htext : Clean T text)
    (h : piece ∈ splitLongText T s text) : Clean T piece := by
  unfold splitLongText at h
  split at h
  · obtain rfl := List.mem_singleton.mp h
    exact htext
  · dsimp only at h
    split at h
    · refine clean_of_mem_sentencePieces ?_ ?_ ?_ h
      · simp
      · rfl
      · exact fun x hx => noBreak_of_mem_sentencesOf htext.noBreak hx
    · exact clean_of_mem_windowPieces htext.noBreak h

/-! ## Windows -/

theorem overlapLoop_suffix (overlap : Nat) (retained : List ParsedBlock) (retainedLength : Nat)
    (blocks : List ParsedBlock) :
    overlapLoop overlap retained retainedLength blocks <:+ blocks.reverse ++ retained := by
  induction blocks generalizing retained retainedLength with
  | nil => exact List.suffix_refl _
  | cons block rest ih =>
    have hnext : (block :: rest).reverse ++ retained = rest.reverse ++ (block :: retained) := by simp
    rw [overlapLoop, hnext]
    split
    · exact (List.suffix_cons block retained).trans (List.suffix_append _ _)
    · split
      · exact List.suffix_append _ _
      · exact ih _ _

/-- What one window leaves to the next is the end of it. -/
theorem overlapBlocks_suffix (blocks : List ParsedBlock) (overlap : Nat) :
    overlapBlocks blocks overlap <:+ blocks := by
  unfold overlapBlocks
  split
  · exact List.nil_suffix
  · simpa using overlapLoop_suffix overlap [] 0 blocks.reverse

theorem popUntilFits_suffix (s : ChunkSettings) (block : ParsedBlock) (current : List ParsedBlock) :
    popUntilFits s block current <:+ current := by
  induction current with
  | nil => exact List.suffix_refl _
  | cons b current ih =>
    rw [popUntilFits]
    split
    · exact ih.trans (List.suffix_cons b current)
    · exact List.suffix_refl _

/-- **The windows of a group hold exactly the pieces of its blocks.** -/
theorem mem_blockWindows_iff {s : ChunkSettings} {blocks : List ParsedBlock} {piece : ParsedBlock} :
    (∃ w ∈ blockWindows T s blocks, piece ∈ w.val) ↔ ∃ block ∈ blocks, piece ∈ expandBlock T s block := by
  have hcarry : ∀ (w : List ParsedBlock) (y x : ParsedBlock),
      x ∈ popUntilFits s y (overlapBlocks w s.overlap) → x ∈ w := by
    intro w y x hx
    exact (overlapBlocks_suffix w s.overlap).subset ((popUntilFits_suffix s y _).subset hx)
  unfold blockWindows
  rw [Segments.mem_windows_iff hcarry]
  simp

theorem mem_expandBlock {s : ChunkSettings} {block piece : ParsedBlock}
    (h : piece ∈ expandBlock T s block) :
    piece.text ∈ splitLongText T s block.text ∧ piece.page = block.page ∧
      piece.section_ = block.section_ ∧ piece.ocrUsed = block.ocrUsed := by
  obtain ⟨i, hi, rfl⟩ := List.mem_mapIdx.mp h
  exact ⟨List.getElem_mem hi, rfl, rfl, rfl⟩

theorem exists_mem_expandBlock {s : ChunkSettings} {block : ParsedBlock} {text : String}
    (h : text ∈ splitLongText T s block.text) :
    ∃ piece ∈ expandBlock T s block, piece.text = text := by
  obtain ⟨i, hi, rfl⟩ := List.getElem_of_mem h
  exact ⟨_, List.mem_mapIdx.mpr ⟨i, hi, rfl⟩, rfl⟩

/-- The windows of a page, before they become chunks. -/
def pageWindows (T : PyText) (s : ChunkSettings) (page : ParsedPage) :
    List (Segments.Window ParsedBlock) :=
  (sectionGroups page.blocks).flatMap (blockWindows T s)

theorem mem_pageWindows_iff {s : ChunkSettings} {page : ParsedPage} {piece : ParsedBlock} :
    (∃ w ∈ pageWindows T s page, piece ∈ w.val) ↔
      ∃ block ∈ page.blocks, piece ∈ expandBlock T s block := by
  have hgroups : page.blocks = (sectionGroups page.blocks).flatten := (List.flatten_splitBy _ _).symm
  constructor
  · rintro ⟨w, hw, hpiece⟩
    obtain ⟨group, hgroup, hw⟩ := List.mem_flatMap.mp hw
    obtain ⟨block, hblock, hmem⟩ := mem_blockWindows_iff.mp ⟨w, hw, hpiece⟩
    refine ⟨block, ?_, hmem⟩
    rw [hgroups]
    exact List.mem_flatten.mpr ⟨group, hgroup, hblock⟩
  · rintro ⟨block, hblock, hmem⟩
    rw [hgroups] at hblock
    obtain ⟨group, hgroup, hblock⟩ := List.mem_flatten.mp hblock
    obtain ⟨w, hw, hpiece⟩ := mem_blockWindows_iff.mpr ⟨block, hblock, hmem⟩
    exact ⟨w, List.mem_flatMap.mpr ⟨group, hgroup, hw⟩, hpiece⟩

/-- The chunks of a page's groups, taken together, are the chunks of its windows. -/
theorem foldl_chunkBlockGroup (s : ChunkSettings) (groups : List (List ParsedBlock))
    (chunks : List DocumentChunk) :
    groups.foldl (fun chunks group => chunks ++ chunkBlockGroup T s group chunks.length) chunks =
      chunks ++ (groups.flatMap (blockWindows T s)).mapIdx fun i w =>
        makeChunk w (chunks.length + i) := by
  induction groups generalizing chunks with
  | nil => simp
  | cons group groups ih =>
    have hlength : (chunkBlockGroup T s group chunks.length).length =
        (blockWindows T s group).length := List.length_mapIdx
    rw [List.foldl_cons, ih, List.flatMap_cons, List.mapIdx_append, List.append_assoc,
      List.length_append, hlength]
    congr 2
    refine List.mapIdx_eq_mapIdx_iff.mpr ?_
    intro i hi
    congr 1
    omega

theorem pageChunks_eq (s : ChunkSettings) (page : ParsedPage) :
    pageChunks T s page = mergeTinyPageChunks T (min minMergedChunkChars s.size)
      ((pageWindows T s page).mapIdx fun i w => makeChunk w i) := by
  unfold pageChunks
  rw [foldl_chunkBlockGroup]
  simp only [List.nil_append, List.length_nil, Nat.zero_add]
  rfl

/-! ## What a chunk is made of -/

/-- The paragraphs of a chunk. -/
def paragraphs (chunk : DocumentChunk) : List String := PyText.split "\n\n" chunk.text

/-- A chunk of page `number` that was made of these windows: its paragraphs are pieces of theirs, the
    content of every piece is in a paragraph, and it is marked as OCRed exactly if some piece is. -/
structure MadeOf (T : PyText) (number : Int) (windows : List (Segments.Window ParsedBlock))
    (chunk : DocumentChunk) : Prop where
  page : chunk.page = number
  clean : ∀ p ∈ paragraphs chunk, Clean T p
  fromPieces : ∀ p ∈ paragraphs chunk, ∃ w ∈ windows, ∃ piece ∈ w.val, piece.text = p
  kept : ∀ w ∈ windows, ∀ piece ∈ w.val,
    ∃ p ∈ paragraphs chunk, normalizeContent T p = normalizeContent T piece.text
  ocrUsed : chunk.ocrUsed = true ↔ ∃ w ∈ windows, ∃ piece ∈ w.val, piece.ocrUsed = true

theorem split_join_breaks {parts : List String} (hne : parts ≠ []) (hclean : ∀ p ∈ parts, Clean T p) :
    PyText.split "\n\n" (PyText.join "\n\n" parts) = parts :=
  PyText.split_join "\n\n" rfl hne fun p hp => (hclean p hp).noBreak

/-- A new chunk is made of its window. -/
theorem madeOf_makeChunk {number : Int} {w : Segments.Window ParsedBlock} (i : Nat)
    (hpage : ∀ piece ∈ w.val, piece.page = number) (hclean : ∀ piece ∈ w.val, Clean T piece.text) :
    MadeOf T number [w] (makeChunk w i) := by
  have hparagraphs : paragraphs (makeChunk w i) = w.val.map ParsedBlock.text := by
    refine split_join_breaks (T := T) ?_ ?_
    · exact fun hnil => w.property (List.map_eq_nil_iff.mp hnil)
    · intro p hp
      obtain ⟨piece, hpiece, rfl⟩ := List.mem_map.mp hp
      exact hclean piece hpiece
  constructor
  · exact hpage _ (List.head_mem w.property)
  · intro p hp
    rw [hparagraphs] at hp
    obtain ⟨piece, hpiece, rfl⟩ := List.mem_map.mp hp
    exact hclean piece hpiece
  · intro p hp
    rw [hparagraphs] at hp
    obtain ⟨piece, hpiece, rfl⟩ := List.mem_map.mp hp
    exact ⟨w, List.mem_singleton.mpr rfl, piece, hpiece, rfl⟩
  · intro w' hw' piece hpiece
    obtain rfl := List.mem_singleton.mp hw'
    rw [hparagraphs]
    exact ⟨piece.text, List.mem_map_of_mem hpiece, rfl⟩
  · show w.val.any ParsedBlock.ocrUsed = true ↔ _
    simp

@[simp] theorem page_mergeChunks (first second : DocumentChunk) :
    (mergeChunks T first second).page = first.page := by
  simp only [mergeChunks]

@[simp] theorem ocrUsed_mergeChunks (first second : DocumentChunk) :
    (mergeChunks T first second).ocrUsed = (first.ocrUsed || second.ocrUsed) := by
  simp only [mergeChunks]

/-- **Merging two chunks makes one of both their windows.** -/
theorem madeOf_mergeChunks (hT : T.Lawful) {number : Int}
    {windows windows' : List (Segments.Window ParsedBlock)} {first second : DocumentChunk}
    (hfirst : MadeOf T number windows first) (hsecond : MadeOf T number windows' second) :
    MadeOf T number (windows ++ windows') (mergeChunks T first second) := by
  have hclean : ∀ p ∈ paragraphs first ++ paragraphs second, Clean T p := by
    intro p hp
    rcases List.mem_append.mp hp with hp | hp
    · exact hfirst.clean p hp
    · exact hsecond.clean p hp
  -- no paragraph is blank, so none is passed over, and stripping changes none
  have hfilter : (paragraphs first ++ paragraphs second).filter
      (fun p => decide (normalizeContent T p ≠ "")) = paragraphs first ++ paragraphs second := by
    refine List.filter_eq_self.mpr ?_
    intro p hp
    simpa using normalizeContent_ne_empty hT (hclean p hp).inked
  have hmerged : mergedParagraphs T first second =
      PyList.keepFirst (normalizeContent T) [] (paragraphs first ++ paragraphs second) := by
    show (PyList.keepFirst (normalizeContent T) []
      (List.filter _ (paragraphs first ++ paragraphs second))).map _ = _
    rw [hfilter]
    refine (List.map_congr_left ?_).trans (List.map_id _)
    intro p hp
    exact (hclean p ((PyList.keepFirst_sublist _ _ _).mem hp)).stripped
  have hkept : ∀ p ∈ paragraphs first ++ paragraphs second,
      ∃ q ∈ mergedParagraphs T first second, normalizeContent T q = normalizeContent T p := by
    intro p hp
    obtain ⟨pre, suf, hsplit⟩ := List.append_of_mem hp
    rw [hmerged, hsplit]
    obtain ⟨q, hq, hkey, _⟩ :=
      PyList.exists_mem_keepFirst (normalizeContent T) pre suf (List.not_mem_nil (a := normalizeContent T p))
    exact ⟨q, hq, hkey⟩
  have hparagraphs : paragraphs (mergeChunks T first second) = mergedParagraphs T first second := by
    refine split_join_breaks (T := T) ?_ ?_
    · intro hnil
      obtain ⟨p, hp⟩ := List.exists_mem_of_ne_nil _ (PyText.split_ne_nil "\n\n" first.text)
      obtain ⟨q, hq, _⟩ := hkept p (List.mem_append_left _ hp)
      rw [hnil] at hq
      cases hq
    · intro p hp
      rw [hmerged] at hp
      exact hclean p ((PyList.keepFirst_sublist _ _ _).mem hp)
  have hsub : ∀ p ∈ paragraphs (mergeChunks T first second),
      p ∈ paragraphs first ++ paragraphs second := by
    intro p hp
    rw [hparagraphs, hmerged] at hp
    exact (PyList.keepFirst_sublist _ _ _).mem hp
  constructor
  · rw [page_mergeChunks]
    exact hfirst.page
  · exact fun p hp => hclean p (hsub p hp)
  · intro p hp
    rcases List.mem_append.mp (hsub p hp) with hp | hp
    · obtain ⟨w, hw, hpiece⟩ := hfirst.fromPieces p hp
      exact ⟨w, List.mem_append_left _ hw, hpiece⟩
    · obtain ⟨w, hw, hpiece⟩ := hsecond.fromPieces p hp
      exact ⟨w, List.mem_append_right _ hw, hpiece⟩
  · intro w hw piece hpiece
    have hold : ∃ p ∈ paragraphs first ++ paragraphs second,
        normalizeContent T p = normalizeContent T piece.text := by
      rcases List.mem_append.mp hw with hw | hw
      · obtain ⟨p, hp, hkey⟩ := hfirst.kept w hw piece hpiece
        exact ⟨p, List.mem_append_left _ hp, hkey⟩
      · obtain ⟨p, hp, hkey⟩ := hsecond.kept w hw piece hpiece
        exact ⟨p, List.mem_append_right _ hp, hkey⟩
    obtain ⟨p, hp, hkey⟩ := hold
    obtain ⟨q, hq, hkey'⟩ := hkept p hp
    rw [hparagraphs]
    exact ⟨q, hq, hkey'.trans hkey⟩
  · rw [ocrUsed_mergeChunks, Bool.or_eq_true, hfirst.ocrUsed, hsecond.ocrUsed]
    simp only [List.mem_append, or_and_right, exists_or]

/-! ## The contract -/

/-- The blocks of a page as the parser makes them. -/
def PageOk (T : PyText) (page : ParsedPage) : Prop :=
  ∀ block ∈ page.blocks, block.page = page.number ∧ Clean T block.text

theorem madeOf_window {s : ChunkSettings} {page : ParsedPage} (hpage : PageOk T page)
    {w : Segments.Window ParsedBlock} (hw : w ∈ pageWindows T s page) (i : Nat) :
    MadeOf T page.number [w] (makeChunk w i) := by
  have hpieces : ∀ piece ∈ w.val, ∃ block ∈ page.blocks, piece ∈ expandBlock T s block :=
    fun piece hpiece => mem_pageWindows_iff.mp ⟨w, hw, hpiece⟩
  refine madeOf_makeChunk i ?_ ?_
  · intro piece hpiece
    obtain ⟨block, hblock, hmem⟩ := hpieces piece hpiece
    rw [(mem_expandBlock hmem).2.1]
    exact (hpage block hblock).1
  · intro piece hpiece
    obtain ⟨block, hblock, hmem⟩ := hpieces piece hpiece
    exact clean_of_mem_splitLongText (hpage block hblock).2 (mem_expandBlock hmem).1

/-- **The merged chunks of a page are made of consecutive groups of its windows.** -/
theorem exists_groups_pageChunks (hT : T.Lawful) (s : ChunkSettings) {page : ParsedPage}
    (hpage : PageOk T page) :
    ∃ groups : List (List (Segments.Window ParsedBlock)), groups.flatten = pageWindows T s page ∧
      List.Forall₂ (MadeOf T page.number) groups (pageChunks T s page) := by
  have hnew : List.Forall₂ (MadeOf T page.number) ((pageWindows T s page).map fun w => [w])
      ((pageWindows T s page).mapIdx fun i w => makeChunk w i) := by
    rw [List.forall₂_iff_get]
    refine ⟨by simp, ?_⟩
    intro i hi hi'
    have hlt : i < (pageWindows T s page).length := by simpa using hi
    simp only [List.get_eq_getElem, List.getElem_map, List.getElem_mapIdx]
    exact madeOf_window hpage (List.getElem_mem hlt) i
  obtain ⟨groups, hflat, hgroups⟩ :=
    Segments.exists_groups (isTinyChunk T (min minMergedChunkChars s.size))
      (fun g g' x y => madeOf_mergeChunks hT) hnew
  refine ⟨groups, ?_, ?_⟩
  · rw [hflat, ← List.flatMap_def]
    exact List.flatMap_singleton' _
  · rw [pageChunks_eq]
    exact hgroups

/-- The chunks with their final numbers. -/
def numbered (chunks : List DocumentChunk) : List DocumentChunk :=
  chunks.mapIdx fun index chunk => { chunk with chunkIndex := index }

/-- A merged chunk that is among the document's chunks, under its number there. -/
def Emitted (chunks : List DocumentChunk) (chunk : DocumentChunk) : Prop :=
  ∃ index, chunks[index]? = some { chunk with chunkIndex := index }

/-- What the chunks of a document satisfy. -/
structure ChunkContract (T : PyText) (s : ChunkSettings) (document : ParsedDocument)
    (chunks : List DocumentChunk) : Prop where
  indices : chunks.map DocumentChunk.chunkIndex = List.range chunks.length
  distinct : (chunks.map fun c => normalizeContent T c.text).Nodup
  long : ∀ c ∈ chunks, 40 ≤ (normalizeContent T c.text).length
  notHeading : ∀ c ∈ chunks, normalizeContent T c.text ≠ normalizeContent T c.section_
  /-- The chunks are picked from those of the pages, in document order. -/
  inOrder : ∃ parts, chunks = numbered parts.flatten ∧
    List.Forall₂ (fun part page => part.Sublist (pageChunks T s page)) parts document.pages
  /-- The chunks of a page are made of its windows, each of a group of consecutive ones. -/
  madeOf : ∀ page ∈ document.pages, ∃ groups, groups.flatten = pageWindows T s page ∧
    List.Forall₂ (MadeOf T page.number) groups (pageChunks T s page)
  /-- The windows of a page hold pieces of its blocks. -/
  fromBlocks : ∀ page ∈ document.pages, ∀ w ∈ pageWindows T s page, ∀ piece ∈ w.val,
    ∃ block ∈ page.blocks, piece.text ∈ splitLongText T s block.text ∧
      piece.page = block.page ∧ piece.ocrUsed = block.ocrUsed
  nothingLost : ∀ before page after, document.pages = before ++ page :: after →
    ∀ block ∈ page.blocks, ∀ text ∈ splitLongText T s block.text,
      ∃ pre chunk suf, pageChunks T s page = pre ++ chunk :: suf ∧
        (∃ p ∈ paragraphs chunk, normalizeContent T p = normalizeContent T text) ∧
        (Emitted chunks chunk ∨ (normalizeContent T chunk.text).length < 40 ∨
          isHeadingOnlyChunk T chunk = true ∨
          ∃ earlier ∈ before.flatMap (pageChunks T s) ++ pre, Emitted chunks earlier ∧
            normalizeContent T earlier.text = normalizeContent T chunk.text)

theorem indices_numbered (chunks : List DocumentChunk) :
    (numbered chunks).map DocumentChunk.chunkIndex = List.range (numbered chunks).length := by
  refine List.ext_getElem (by simp) ?_
  intro i hi hi'
  simp [numbered]

/-- **No two chunks of a document have one number**: their ids in the vector store are different. -/
theorem nodup_chunkIndex {document : ParsedDocument} {chunkSize overlap : Int}
    {chunks : List DocumentChunk} (h : chunkDocument T document chunkSize overlap = .ok chunks) :
    (chunks.map DocumentChunk.chunkIndex).Nodup := by
  unfold chunkDocument at h
  cases hvalid : validateChunkSettings chunkSize overlap with
  | error e =>
    rw [hvalid] at h
    cases h
  | ok s =>
    rw [hvalid] at h
    obtain rfl := Except.ok.inj h
    exact (indices_numbered _) ▸ List.nodup_range

theorem emitted_numbered {chunks : List DocumentChunk} {chunk : DocumentChunk} (h : chunk ∈ chunks) :
    Emitted (numbered chunks) chunk := by
  obtain ⟨index, hindex, rfl⟩ := List.getElem_of_mem h
  refine ⟨index, ?_⟩
  unfold numbered
  rw [List.getElem?_mapIdx, List.getElem?_eq_getElem hindex]
  rfl

theorem mem_numbered {chunks : List DocumentChunk} {c : DocumentChunk} (h : c ∈ numbered chunks) :
    ∃ chunk ∈ chunks, ∃ index, c = { chunk with chunkIndex := index } := by
  obtain ⟨index, hindex, rfl⟩ := List.mem_mapIdx.mp h
  exact ⟨_, List.getElem_mem hindex, index, rfl⟩

theorem isIndexable_iff {chunk : DocumentChunk} :
    isIndexable T chunk = true ↔
      40 ≤ (normalizeContent T chunk.text).length ∧ isHeadingOnlyChunk T chunk = false := by
  unfold isIndexable minIndexableChunkChars
  rw [Bool.and_eq_true_iff, decide_eq_true_iff, Bool.not_eq_true']

/-- Every chunk is emitted, or dropped for one of three reasons. -/
theorem emitted_or_dropped {pre suf : List DocumentChunk} {chunk : DocumentChunk} :
    let chunks := numbered (deduplicateChunks T (pre ++ chunk :: suf))
    Emitted chunks chunk ∨ (normalizeContent T chunk.text).length < 40 ∨
      isHeadingOnlyChunk T chunk = true ∨
      ∃ earlier ∈ pre, Emitted chunks earlier ∧
        normalizeContent T earlier.text = normalizeContent T chunk.text := by
  intro chunks
  by_cases hindexable : isIndexable T chunk = true
  · have hfilter : (pre ++ chunk :: suf).filter (isIndexable T) =
        pre.filter (isIndexable T) ++ chunk :: suf.filter (isIndexable T) := by
      rw [List.filter_append, List.filter_cons_of_pos hindexable]
    obtain ⟨c, hc, hkey, hwhich⟩ := PyList.exists_mem_keepFirst
      (fun chunk : DocumentChunk => normalizeContent T chunk.text) (pre.filter (isIndexable T))
      (suf.filter (isIndexable T)) (List.not_mem_nil (a := normalizeContent T chunk.text))
    rw [← hfilter] at hc
    rcases hwhich with rfl | hearlier
    · exact Or.inl (emitted_numbered hc)
    · exact Or.inr (Or.inr (Or.inr ⟨c, (List.mem_filter.mp hearlier).1, emitted_numbered hc, hkey⟩))
  · rw [isIndexable_iff, not_and_or, not_le, Bool.not_eq_false] at hindexable
    rcases hindexable with hshort | hheading
    · exact Or.inr (Or.inl hshort)
    · exact Or.inr (Or.inr (Or.inl hheading))

/-- **The contract of `chunk_document`.** -/
theorem chunk_document_contract (T : PyText) (hT : T.Lawful) (document : ParsedDocument)
    (hpages : ∀ page ∈ document.pages, PageOk T page) {chunkSize overlap : Int}
    (hsize : 1 ≤ chunkSize) (hoverlap : 0 ≤ overlap) (hlt : overlap < chunkSize) :
    ∃ (s : ChunkSettings) (chunks : List DocumentChunk), (s.size : Int) = chunkSize ∧
      (s.overlap : Int) = overlap ∧ chunkDocument T document chunkSize overlap = .ok chunks ∧
      ChunkContract T s document chunks := by
  let s : ChunkSettings := ⟨chunkSize.toNat, overlap.toNat, by omega⟩
  have hvalid : validateChunkSettings chunkSize overlap = .ok s := by
    unfold validateChunkSettings
    rw [dif_neg (by omega), dif_neg (by omega), dif_neg (by omega)]
  let all := document.pages.flatMap (pageChunks T s)
  have hrun : chunkDocument T document chunkSize overlap =
      .ok (numbered (deduplicateChunks T all)) := by
    unfold chunkDocument
    rw [hvalid]
    rfl
  refine ⟨s, numbered (deduplicateChunks T all), Int.toNat_of_nonneg (by omega),
    Int.toNat_of_nonneg hoverlap, hrun, ?_⟩
  have hkeep : ∀ c ∈ deduplicateChunks T all, c ∈ all ∧ isIndexable T c = true := by
    intro c hc
    have hmem := (PyList.keepFirst_sublist _ _ _).mem hc
    exact List.mem_filter.mp hmem
  constructor
  · exact indices_numbered _
  · have hnodup := PyList.nodup_keepFirst (fun chunk => normalizeContent T chunk.text) []
      (all.filter (isIndexable T))
    have hkeys : (numbered (deduplicateChunks T all)).map (fun c => normalizeContent T c.text) =
        (deduplicateChunks T all).map fun c => normalizeContent T c.text := by
      refine List.ext_getElem (by simp [numbered]) ?_
      intro i hi hi'
      simp [numbered]
    rw [hkeys]
    exact hnodup
  · intro c hc
    obtain ⟨chunk, hchunk, index, rfl⟩ := mem_numbered hc
    exact (isIndexable_iff.mp (hkeep chunk hchunk).2).1
  · intro c hc
    obtain ⟨chunk, hchunk, index, rfl⟩ := mem_numbered hc
    have hheading := (isIndexable_iff.mp (hkeep chunk hchunk).2).2
    unfold isHeadingOnlyChunk at hheading
    exact beq_eq_false_iff_ne.mp hheading
  · have hsub : (deduplicateChunks T all).Sublist all :=
      (PyList.keepFirst_sublist _ _ _).trans List.filter_sublist
    obtain ⟨parts, hflat, hparts⟩ := PyList.sublist_flatMap hsub
    exact ⟨parts, by rw [hflat], hparts⟩
  · exact fun page hpage => exists_groups_pageChunks hT s (hpages page hpage)
  · intro page hpage w hw piece hpiece
    obtain ⟨block, hblock, hmem⟩ := mem_pageWindows_iff.mp ⟨w, hw, hpiece⟩
    obtain ⟨htext, hnumber, _, hocr⟩ := mem_expandBlock hmem
    exact ⟨block, hblock, htext, hnumber, hocr⟩
  · intro before page after hsplit block hblock text htext
    have hpage : page ∈ document.pages := by
      rw [hsplit]
      exact List.mem_append_right _ List.mem_cons_self
    -- the piece is in a window, the window in a group, the group is some chunk's
    obtain ⟨piece, hpiece, rfl⟩ := exists_mem_expandBlock htext
    obtain ⟨w, hw, hmem⟩ := mem_pageWindows_iff.mpr ⟨block, hblock, hpiece⟩
    obtain ⟨groups, hflat, hgroups⟩ := exists_groups_pageChunks hT s (hpages page hpage)
    rw [← hflat] at hw
    obtain ⟨group, hgroup, hw⟩ := List.mem_flatten.mp hw
    obtain ⟨chunk, hchunk, hmade⟩ := PyList.exists_of_forall₂ hgroups hgroup
    obtain ⟨pre, suf, hpre⟩ := List.append_of_mem hchunk
    refine ⟨pre, chunk, suf, hpre, hmade.kept w hw piece hmem, ?_⟩
    have hall : all = (before.flatMap (pageChunks T s) ++ pre) ++
        chunk :: (suf ++ after.flatMap (pageChunks T s)) := by
      show document.pages.flatMap (pageChunks T s) = _
      rw [hsplit, List.flatMap_append, List.flatMap_cons, hpre]
      simp
    rw [hall]
    exact emitted_or_dropped

/-- A heading and its paragraph on one page, an OCRed paragraph on the next. -/
def quarterlyReport : ParsedDocument where
  filename := "report.pdf"
  parserVersion := parserVersion
  pages :=
    [⟨1, [⟨"Revenue", 1, "Revenue", false, true⟩, ⟨"Up ten percent.", 1, "Revenue", false, false⟩], false⟩,
      ⟨2, [⟨"Net cash rose.", 2, "Revenue", true, false⟩], true⟩]

theorem quarterlyReport_contract :
    ∃ (s : ChunkSettings) (chunks : List DocumentChunk), (s.size : Int) = 100 ∧
      chunkDocument PyText.ascii quarterlyReport 100 10 = .ok chunks ∧
      ChunkContract PyText.ascii s quarterlyReport chunks := by
  have hpages : ∀ page ∈ quarterlyReport.pages, PageOk PyText.ascii page := by
    intro page hpage block hblock
    have hclean : block.page = page.number ∧ '\n' ∉ block.text.toList ∧
        PyText.ascii.strip block.text = block.text ∧ block.text ≠ "" := by
      revert block page
      decide +kernel
    exact ⟨hclean.1, hclean.2.1, hclean.2.2.1, hclean.2.2.2⟩
  obtain ⟨s, chunks, hsize, _, hrun, hcontract⟩ := chunk_document_contract PyText.ascii
    PyText.lawful_ascii quarterlyReport hpages (by decide : (1 : Int) ≤ 100)
    (by decide : (0 : Int) ≤ 10) (by decide)
  exact ⟨s, chunks, hsize, hrun, hcontract⟩

end FinancialRag.Ingestion
