/-
  Page-aware chunking (`document_loader.py`): from the parsed text blocks of a PDF to the chunks that are
  indexed.

  A page's blocks are grouped by section, every block is split into pieces that fit a chunk, the pieces
  of a group fill overlapping windows, each window becomes a chunk, short chunks are merged with a
  neighbour on the page, and at the end the document's chunks are filtered and numbered.

  `DocumentChunk` is defined with the task that indexes the chunks.  Parsing the PDF itself is not here.
-/
import FinancialRag.Lib.Regex
import FinancialRag.Lib.Segments
import FinancialRag.Tasks.KnowledgeTasks

set_option linter.unusedVariables false

namespace FinancialRag.Ingestion

open FinancialRag.Tasks (DocumentChunk)

def parserVersion : String := "pymupdf-blocks-ocr-v3"
def chunkerVersion : String := "page-block-section-v2"

def minMergedChunkChars : Nat := 80
def minIndexableChunkChars : Nat := 40

/-! ## Parsed documents -/

structure ParsedBlock where
  text : String
  page : Int
  section_ : String
  ocrUsed : Bool
  isHeading : Bool
  deriving DecidableEq, Repr

structure ParsedPage where
  number : Int
  blocks : List ParsedBlock
  ocrUsed : Bool
  deriving DecidableEq, Repr

structure ParsedDocument where
  filename : String
  pages : List ParsedPage
  parserVersion : String
  deriving DecidableEq, Repr

/-! ## Settings -/

/-- A chunk size and an overlap that `_validate_chunk_settings` lets through. -/
structure ChunkSettings where
  size : Nat
  overlap : Nat
  overlap_lt_size : overlap < size

/-- `_validate_chunk_settings`. -/
def validateChunkSettings (chunkSize overlap : Int) : Except String ChunkSettings :=
  if hsize : chunkSize < 1 then .error "CHUNK_SIZE must be positive"
  else if hoverlap : overlap < 0 then .error "CHUNK_OVERLAP must be non-negative"
  else if hlt : chunkSize ≤ overlap then .error "CHUNK_OVERLAP must be smaller than CHUNK_SIZE"
  else .ok ⟨chunkSize.toNat, overlap.toNat, by omega⟩

section Text

variable (T : PyText)

/-! ## Cleaning and comparing text -/

/-- `_HYPHENATED_LINE_BREAK`. -/
def hyphenatedLineBreak : Re :=
  Re.seqs [.group "1" (.cls T.isWord), .cls (· == '-'), .rep T.isSpace 0 none true, .cls (· == '\n'),
    .rep T.isSpace 0 none true, .group "2" (.cls T.isWord)]

/-- `_WHITESPACE`: white space, line breaks excepted. -/
def whitespace : Re := .rep (fun c => T.isSpace c && c != '\n') 1 none true

/-- `\s*\n\s*`. -/
def lineBreak : Re :=
  Re.seqs [.rep T.isSpace 0 none true, .cls (· == '\n'), .rep T.isSpace 0 none true]

/-- `clean_text`. -/
def cleanText (text : String) : String :=
  let normalized := (hyphenatedLineBreak T).sub (fun m => (m.group "1" ++ m.group "2").toList) text
  let normalized := (whitespace T).sub (fun _ => [' ']) normalized
  T.strip ((lineBreak T).sub (fun _ => [' ']) normalized)

/-- `_normalize_content`. -/
def normalizeContent (text : String) : String :=
  T.casefold (T.strip (String.ofList (PyText.squeeze T.isSpace ' ' (T.nfkc text).toList)))

/-! ## Splitting long text -/

/-- `[.!?。！？；;]`. -/
def isSentenceMark (c : Char) : Bool := ".!?。！？；;".toList.contains c

/-- `_SENTENCE_BOUNDARY.split`, `part` being read backwards behind the character `prev`: a part ends
    behind a sentence mark, and in the white space that may follow it (`gap`) is in no part. -/
def splitSentences (prev : Option Char) (gap : Bool) (part : List Char) :
    List Char → List (List Char)
  | [] => [part.reverse]
  | c :: cs =>
    if gap && T.isSpace c then splitSentences (some c) true part cs
    else if !gap && prev.any isSentenceMark then
      part.reverse ::
        if T.isSpace c then splitSentences (some c) true [] cs
        else splitSentences (some c) false [c] cs
    else splitSentences (some c) false (c :: part) cs

/-- The sentences of a text, stripped. -/
def sentencesOf (text : String) : List String :=
  ((splitSentences T none false [] text.toList).map fun part => T.strip (String.ofList part)).filter
    fun sentence => decide (sentence ≠ "")

/-- `current[-overlap:].lstrip() if overlap else ""`. -/
def overlapPrefix (overlap : Nat) (current : String) : String :=
  if overlap = 0 then ""
  else T.lstrip (String.ofList (current.toList.drop (current.length - overlap)))

/-- `f"{current} {sentence}".strip()`. -/
def appendSentence (current sentence : String) : String := T.strip (current ++ " " ++ sentence)

/-- The loop over the sentences. -/
def sentencePieces (s : ChunkSettings) (current : String) : List String → List String
  | [] => if current ≠ "" then [current] else []
  | sentence :: rest =>
    let proposed := appendSentence T current sentence
    if current ≠ "" ∧ s.size < proposed.length then
      current ::
        sentencePieces s (appendSentence T (overlapPrefix T s.overlap current) sentence) rest
    else sentencePieces s proposed rest

/-- `range(0, stop, step)`. -/
def rangeStep (stop step : Nat) : List Nat :=
  (List.range ((stop + step - 1) / step)).map fun i => i * step

/-- The loop over the windows of a text that has no usable sentences. -/
def windowPieces (s : ChunkSettings) (text : String) : List Nat → List String
  | [] => []
  | start :: rest =>
    let piece := T.strip (String.ofList ((text.toList.drop start).take s.size))
    let later := if text.length ≤ start + s.size then [] else windowPieces s text rest
    if piece ≠ "" then piece :: later else later

/-- `_split_long_text`. -/
def splitLongText (s : ChunkSettings) (text : String) : List String :=
  if text.length ≤ s.size then [text]
  else
    let sentences := sentencesOf T text
    if 1 < sentences.length ∧ ∀ sentence ∈ sentences, sentence.length ≤ s.size then
      sentencePieces T s "" sentences
    else windowPieces T s text (rangeStep text.length (s.size - s.overlap))

/-- `chunk_text`. -/
def chunkText (text : String) (chunkSize overlap : Int) : Except String (List String) :=
  (validateChunkSettings chunkSize overlap).map fun s =>
    if cleanText T text = "" then [] else splitLongText T s (cleanText T text)

/-! ## Windows of blocks -/

/-- `_joined_length`. -/
def joinedLength (blocks : List ParsedBlock) : Nat :=
  if blocks = [] then 0 else (blocks.map fun b => b.text.length).sum + 2 * (blocks.length - 1)

/-- The loop of `_overlap_blocks`, over the blocks backwards. -/
def overlapLoop (overlap : Nat) (retained : List ParsedBlock) (retainedLength : Nat) :
    List ParsedBlock → List ParsedBlock
  | [] => retained
  | block :: rest =>
    if retained ≠ [] ∧ overlap < retainedLength + block.text.length then retained
    else if overlap ≤ retainedLength + block.text.length then block :: retained
    else overlapLoop overlap (block :: retained) (retainedLength + block.text.length) rest

/-- `_overlap_blocks`. -/
def overlapBlocks (blocks : List ParsedBlock) (overlap : Nat) : List ParsedBlock :=
  if overlap = 0 then [] else overlapLoop overlap [] 0 blocks.reverse

/-- Blocks are popped from the front until the next one fits. -/
def popUntilFits (s : ChunkSettings) (block : ParsedBlock) : List ParsedBlock → List ParsedBlock
  | [] => []
  | b :: current =>
    if s.size < joinedLength (b :: current ++ [block]) then popUntilFits s block current
    else b :: current

/-- The pieces of a block, as blocks. -/
def expandBlock (s : ChunkSettings) (block : ParsedBlock) : List ParsedBlock :=
  (splitLongText T s block.text).mapIdx fun index part =>
    { block with text := part, isHeading := block.isHeading && index == 0 }

/-- The windows that `_chunk_block_group` fills with the pieces of a group's blocks. -/
def blockWindows (s : ChunkSettings) (blocks : List ParsedBlock) :
    List (Segments.Window ParsedBlock) :=
  Segments.windows (fun current block => decide (s.size < joinedLength (current ++ [block])))
    (fun current block => popUntilFits s block (overlapBlocks current s.overlap)) []
    (blocks.flatMap (expandBlock T s))

/-- `_make_chunk`. -/
def makeChunk (window : Segments.Window ParsedBlock) (chunkIndex : Nat) : DocumentChunk where
  text := PyText.join "\n\n" (window.val.map ParsedBlock.text)
  page := (window.val.head window.property).page
  section_ := (window.val.head window.property).section_
  ocrUsed := window.val.any ParsedBlock.ocrUsed
  chunkIndex := chunkIndex
  parserVersion := parserVersion
  chunkerVersion := chunkerVersion

/-- `_chunk_block_group`. -/
def chunkBlockGroup (s : ChunkSettings) (blocks : List ParsedBlock) (startIndex : Nat) :
    List DocumentChunk :=
  (blockWindows T s blocks).mapIdx fun i window => makeChunk window (startIndex + i)

/-! ## Merging and filtering chunks -/

/-- `_is_heading_only_chunk`. -/
def isHeadingOnlyChunk (chunk : DocumentChunk) : Bool :=
  normalizeContent T chunk.text == normalizeContent T chunk.section_

/-- The paragraphs of two chunks, the first of each normalized content. -/
def mergedParagraphs (first second : DocumentChunk) : List String :=
  let paragraphs := PyText.split "\n\n" first.text ++ PyText.split "\n\n" second.text
  (PyList.keepFirst (normalizeContent T) []
    (paragraphs.filter fun paragraph => decide (normalizeContent T paragraph ≠ ""))).map T.strip

/-- `_merge_chunks`. -/
def mergeChunks (first second : DocumentChunk) : DocumentChunk :=
  { first with
    text := PyText.join "\n\n" (mergedParagraphs T first second)
    section_ :=
      if isHeadingOnlyChunk T first && !isHeadingOnlyChunk T second then second.section_
      else first.section_
    ocrUsed := first.ocrUsed || second.ocrUsed }

/-- A chunk that `_merge_tiny_page_chunks` merges with a neighbour. -/
def isTinyChunk (minimumChars : Nat) (chunk : DocumentChunk) : Bool :=
  decide ((normalizeContent T chunk.text).length < minimumChars) || isHeadingOnlyChunk T chunk

/-- `_merge_tiny_page_chunks`. -/
def mergeTinyPageChunks (minimumChars : Nat) (chunks : List DocumentChunk) : List DocumentChunk :=
  Segments.mergeSmall (isTinyChunk T minimumChars) (mergeChunks T) chunks

/-- A chunk that `_deduplicate_chunks` does not drop for what it is. -/
def isIndexable (chunk : DocumentChunk) : Bool :=
  decide (minIndexableChunkChars ≤ (normalizeContent T chunk.text).length) &&
    !isHeadingOnlyChunk T chunk

/-- `_deduplicate_chunks`. -/
def deduplicateChunks (chunks : List DocumentChunk) : List DocumentChunk :=
  PyList.keepFirst (fun chunk => normalizeContent T chunk.text) [] (chunks.filter (isIndexable T))

/-! ## The document -/

/-- Consecutive blocks of one section. -/
def sectionGroups (blocks : List ParsedBlock) : List (List ParsedBlock) :=
  blocks.splitBy fun a b => a.section_ == b.section_

/-- The merged chunks of one page. -/
def pageChunks (s : ChunkSettings) (page : ParsedPage) : List DocumentChunk :=
  mergeTinyPageChunks T (min minMergedChunkChars s.size)
    ((sectionGroups page.blocks).foldl
      (fun chunks group => chunks ++ chunkBlockGroup T s group chunks.length) [])

/-- `chunk_document`. -/
def chunkDocument (document : ParsedDocument) (chunkSize overlap : Int) :
    Except String (List DocumentChunk) :=
  (validateChunkSettings chunkSize overlap).map fun s =>
    (deduplicateChunks T (document.pages.flatMap (pageChunks T s))).mapIdx fun index chunk =>
      { chunk with chunkIndex := index }

end Text

end FinancialRag.Ingestion
