/-
  From the text blocks of a PDF's pages to a parsed document (`parse_pdf` of `document_loader.py`).

  The blocks are what the PDF library extracts from a page or, where the page has too little text, what
  OCR reads on it; they are the input here.  Each is cleaned; one that reads like a heading opens a
  section, which runs on over the pages, and before the first heading the section of a page is its label.

  `parsePdf_sections` says which section a block is given, `pageOk_parsePdf` that the pages are as chunking
  expects them.
-/
import FinancialRag.Ingestion.Chunking

set_option linter.unusedVariables false

namespace FinancialRag.Ingestion

variable (T : PyText)

/-! ## Headings -/

/-- What `str.isalpha`, `str.isupper` and `str.isdigit` say of one character; a character with a case that
    is not upper is `isLower`. -/
structure CaseTable where
  isAlpha : Char → Bool
  isUpper : Char → Bool
  isLower : Char → Bool
  isDigit : Char → Bool

/-- The tables restricted to ASCII. -/
def CaseTable.ascii : CaseTable := ⟨Char.isAlpha, Char.isUpper, Char.isLower, Char.isDigit⟩

def knownSingleWordHeadings : List String :=
  ["conclusion", "financials", "liquidity", "operations", "outlook", "overview", "results", "revenue", "risks",
    "strategy"]

def caselessText (s : String) : Re := Re.lit T.sameCaseless s

/-- `re.match` of a pattern. -/
def matchesStart (r : Re) (text : String) : Bool := !(r.ends ⟨none, text.toList, []⟩).isEmpty

/-- `re.fullmatch` of a pattern. -/
def matchesFully (r : Re) (text : String) : Bool := (r.ends ⟨none, text.toList, []⟩).any fun e => e.rest.isEmpty

/-- `_SECTION_PREFIX`, for a text of at most `n` characters. -/
def sectionPrefix (n : Nat) : Re :=
  Re.seqs [Re.opt (.seq (caselessText T "section") (.rep T.isSpace 1 none true)),
    .alt
      (.seq (.rep T.isDecimal 1 none true)
        (Re.upTo (.seq (.cls (· == '.')) (.rep T.isDecimal 1 none true)) n))
      (.rep (fun c => "ivxlcdm".toList.any fun x => T.sameCaseless x c) 1 none true),
    Re.opt (Re.oneOf ".)"), .rep T.isSpace 1 none true, .cls fun c => !T.isSpace c]

/-- `_QUARTER_TABLE_CELL`. -/
def quarterTableCell : Re :=
  .seq
    (.alt (.seq (caselessText T "q") (Re.oneOf "1234")) (.seq (Re.oneOf "1234") (caselessText T "q")))
    (Re.opt (Re.seqs [Re.opt (Re.oneOf "-_/ "), Re.opt (caselessText T "fy"),
      .rep T.isDecimal 2 (some 4) true]))

/-- A month, whole or by its first letters. -/
def monthName (short rest : String) : Re := .seq (caselessText T short) (Re.opt (caselessText T rest))

/-- `_DATE_TABLE_CELL`. -/
def dateTableCell : Re :=
  Re.seqs [
    .alt (monthName T "jan" "uary") <| .alt (monthName T "feb" "ruary") <| .alt (monthName T "mar" "ch") <|
      .alt (monthName T "apr" "il") <| .alt (caselessText T "may") <| .alt (monthName T "jun" "e") <|
      .alt (monthName T "jul" "y") <| .alt (monthName T "aug" "ust") <| .alt (monthName T "sep" "tember") <|
      .alt (monthName T "oct" "ober") <| .alt (monthName T "nov" "ember") <| monthName T "dec" "ember",
    .rep T.isSpace 1 none true, .rep T.isDecimal 1 (some 2) true, Re.opt (.cls (· == ','))]

/-- `_looks_like_table_cell`. -/
def looksLikeTableCell (C : CaseTable) (text : String) : Bool :=
  let compact := T.strip text
  matchesFully (quarterTableCell T) compact || matchesFully (dateTableCell T) compact ||
    (decide (compact.length ≤ 40) && compact.toList.any C.isDigit)

/-- What `str.splitlines` splits at. -/
def isLineBoundary (c : Char) : Bool :=
  "\n\r\u000b\u000c\u001c\u001d\u001e\u0085\u2028\u2029".toList.contains c

/-- The lines of a raw text that are not blank. -/
def inkedLines (raw : String) : List (List Char) :=
  (raw.toList.splitOnP isLineBoundary).filter fun line => line.any fun c => !T.isSpace c

def isCjk (c : Char) : Bool := decide ('\u3400' ≤ c ∧ c ≤ '\u9fff')

/-- `text.endswith` of one of these characters. -/
def endsWithOneOf (marks text : String) : Bool := text.toList.getLast?.any marks.toList.contains

/-- `letters.isupper()`, for letters of which there is one. -/
def allUpper (C : CaseTable) (letters : List Char) : Bool :=
  letters.any C.isUpper && letters.all fun c => !C.isLower c

/-- `_looks_like_heading`. -/
def looksLikeHeading (C : CaseTable) (raw text : String) : Bool :=
  let words := PyText.runs (fun c => !T.isSpace c) text
  let letters := text.toList.filter C.isAlpha
  let titleWords := words.filter fun word => word.toList.any C.isAlpha
  if 140 < text.length then false
  else if 2 < (inkedLines T raw).length then false
  else if endsWithOneOf ".?!。？！;；,，" text then false
  else if 16 < words.length then false
  else if matchesStart (sectionPrefix T text.length) text then true
  else if looksLikeTableCell T C text then false
  else if endsWithOneOf ":：" text then true
  else if allUpper C letters && !text.toList.any C.isDigit &&
      (decide (6 ≤ letters.length) || knownSingleWordHeadings.contains (T.casefold text)) then true
  else if text.toList.any isCjk then decide (4 ≤ text.length ∧ text.length ≤ 30)
  else decide (2 ≤ titleWords.length) && titleWords.all fun word => word.toList.head?.any C.isUpper

/-! ## The loop over the pages -/

/-- The text blocks of a page, and whether OCR read them. -/
structure RawPage where
  blocks : List String
  ocrUsed : Bool

/-- `active_section or f"Page {page_number}"` -/
def sectionOr (active : String) (number : Int) : String := if active = "" then s!"Page {number}" else active

/-- The blocks of a page, and the section that is open behind them. -/
def parseBlocks (C : CaseTable) (number : Int) (ocrUsed : Bool) (active : String) :
    List String → List ParsedBlock × String
  | [] => ([], active)
  | raw :: rest =>
    let text := cleanText T raw
    if text = "" then parseBlocks C number ocrUsed active rest
    else
      let isHeading := looksLikeHeading T C raw text
      let active := if isHeading then text else active
      let later := parseBlocks C number ocrUsed active rest
      ({ text := text, page := number, section_ := sectionOr active number, ocrUsed := ocrUsed,
         isHeading := isHeading } :: later.1, later.2)

/-- The pages from the one numbered `number` on. -/
def parsePages (C : CaseTable) (active : String) (number : Int) : List RawPage → List ParsedPage
  | [] => []
  | page :: rest =>
    let parsed := parseBlocks T C number page.ocrUsed active page.blocks
    { number := number, blocks := parsed.1, ocrUsed := page.ocrUsed } ::
      parsePages C parsed.2 (number + 1) rest

/-- `parse_pdf`, from the extracted pages on. -/
def parsePdf (C : CaseTable) (filename : String) (pages : List RawPage) : Except String ParsedDocument :=
  if pages = [] then .error "PDF contains no pages"
  else
    let parsed := parsePages T C "" 1 pages
    if parsed.all fun page => page.blocks.isEmpty then .error "PDF contains no extractable text"
    else .ok { filename := filename, pages := parsed, parserVersion := parserVersion }

/-! ## The sections -/

variable {T} {C : CaseTable}

/-- The text of the last heading among the blocks, or what was open before them. -/
def lastHeading (active : String) (blocks : List ParsedBlock) : String :=
  blocks.foldl (fun active block => if block.isHeading then block.text else active) active

/-- The section of a block is its own text if it is a heading, else the last heading or the page's label. -/
def SectionOf (active : String) (before : List ParsedBlock) (block : ParsedBlock) : Prop :=
  block.section_ = if block.isHeading then block.text else sectionOr (lastHeading active before) block.page

theorem parseBlocks_open (number : Int) (ocrUsed : Bool) (active : String) (raws : List String) :
    (parseBlocks T C number ocrUsed active raws).2 =
      lastHeading active (parseBlocks T C number ocrUsed active raws).1 := by
  induction raws generalizing active with
  | nil => rfl
  | cons raw rest ih =>
    rw [parseBlocks]
    dsimp only
    split
    · exact ih active
    · generalize looksLikeHeading T C raw (cleanText T raw) = isHeading
      exact ih _

theorem parseBlocks_sections {number : Int} {ocrUsed : Bool} {active : String} {raws : List String}
    {pre post : List ParsedBlock} {block : ParsedBlock}
    (h : (parseBlocks T C number ocrUsed active raws).1 = pre ++ block :: post) :
    SectionOf active pre block := by
  induction raws generalizing active pre with
  | nil => cases pre <;> cases h
  | cons raw rest ih =>
    rw [parseBlocks] at h
    dsimp only at h
    split at h
    · exact ih h
    · rename_i htext
      cases pre with
      | nil =>
        obtain ⟨rfl, -⟩ := List.cons.inj h
        unfold SectionOf
        dsimp only
        split
        · exact if_neg htext
        · rfl
      | cons first pre =>
        obtain ⟨rfl, hrest⟩ := List.cons.inj h
        generalize looksLikeHeading T C raw (cleanText T raw) = isHeading at hrest ⊢
        have hsection := ih hrest
        exact hsection

theorem parseBlocks_clean {number : Int} {ocrUsed : Bool} {active : String} {raws : List String} :
    ∀ block ∈ (parseBlocks T C number ocrUsed active raws).1, block.page = number ∧ Clean T block.text := by
  induction raws generalizing active with
  | nil =>
    intro block hblock
    cases hblock
  | cons raw rest ih =>
    intro block hblock
    rw [parseBlocks] at hblock
    dsimp only at hblock
    split at hblock
    · exact ih block hblock
    · rename_i htext
      rcases List.mem_cons.mp hblock with rfl | hblock
      · exact ⟨rfl, clean_cleanText htext⟩
      · exact ih block hblock

theorem pageOk_parsePages {active : String} {number : Int} {pages : List RawPage} :
    ∀ page ∈ parsePages T C active number pages, PageOk T page := by
  induction pages generalizing active number with
  | nil =>
    intro page hpage
    cases hpage
  | cons raw rest ih =>
    intro page hpage
    rcases List.mem_cons.mp hpage with rfl | hpage
    · exact parseBlocks_clean
    · exact ih page hpage

theorem parsePages_sections {active : String} {number : Int} {pages : List RawPage}
    {before after : List ParsedPage} {page : ParsedPage} {pre post : List ParsedBlock} {block : ParsedBlock}
    (hpages : parsePages T C active number pages = before ++ page :: after)
    (hblocks : page.blocks = pre ++ block :: post) :
    SectionOf active (before.flatMap ParsedPage.blocks ++ pre) block := by
  induction pages generalizing active number before with
  | nil => cases before <;> cases hpages
  | cons raw rest ih =>
    cases before with
    | nil =>
      obtain ⟨rfl, -⟩ := List.cons.inj hpages
      exact parseBlocks_sections hblocks
    | cons first before =>
      obtain ⟨rfl, hrest⟩ := List.cons.inj hpages
      have hsection := ih hrest
      rw [parseBlocks_open] at hsection
      unfold SectionOf lastHeading at hsection ⊢
      rw [← List.foldl_append] at hsection
      rw [List.flatMap_cons, List.append_assoc]
      exact hsection

theorem parsePdf_pages {filename : String} {pages : List RawPage} {document : ParsedDocument}
    (h : parsePdf T C filename pages = .ok document) : document.pages = parsePages T C "" 1 pages := by
  unfold parsePdf at h
  dsimp only at h
  split at h
  · cases h
  · split at h
    · cases h
    · obtain rfl := Except.ok.inj h
      rfl

/-- The pages of a parsed document are as chunking expects them. -/
theorem pageOk_parsePdf {filename : String} {pages : List RawPage} {document : ParsedDocument}
    (h : parsePdf T C filename pages = .ok document) : ∀ page ∈ document.pages, PageOk T page := by
  rw [parsePdf_pages h]
  exact pageOk_parsePages

/-- **The section of a parsed block** is its own text if it is a heading; else that of the last heading before
    it in the document, or the label of its page. -/
theorem parsePdf_sections {filename : String} {pages : List RawPage} {document : ParsedDocument}
    (h : parsePdf T C filename pages = .ok document) {before after : List ParsedPage} {page : ParsedPage}
    {pre post : List ParsedBlock} {block : ParsedBlock} (hpages : document.pages = before ++ page :: after)
    (hblocks : page.blocks = pre ++ block :: post) :
    SectionOf "" (before.flatMap ParsedPage.blocks ++ pre) block :=
  parsePages_sections ((parsePdf_pages h).symm.trans hpages) hblocks

end FinancialRag.Ingestion
