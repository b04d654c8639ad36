/-
  Reading the reports of the agent in the browser (`reportPresentation.ts`).

  `parseRestrictedMarkdown` cuts a text into blocks, one round of its loop after another;
  `splitResearchReport` finds the headings of a report and returns the text between them.

  `lower` is the browser's `toLowerCase`.
-/
import FinancialRag.Lib.JsText
import FinancialRag.Lib.Machine

set_option linter.unusedVariables false

namespace FinancialRag.Frontend

open JsString

inductive MarkdownBlock where
  | heading (level : Nat) (text : JsString)
  | label (text : JsString)
  | paragraph (text : JsString)
  | unorderedList (items : List JsString)
  | orderedList (items : List JsString)
  | blockquote (text : JsString)
  | horizontalRule
  deriving DecidableEq, Repr

structure ResearchReportParts where
  question : JsString
  modelAnswer : JsString
  evidenceUsed : JsString
  agentAnalysis : JsString
  deriving DecidableEq, Repr

/-! ## Headings -/

def modelSectionLabels : List JsString :=
  ["summary", "key findings", "risks", "evidence used", "摘要", "主要发现", "风险", "使用的证据"].map ofString

def agentSectionHeadings : List JsString :=
  ["key facts", "risk signals", "opportunity signals", "ai conclusion", "source coverage", "关键事实",
    "风险信号", "机会信号", "ai 结论", "来源覆盖"].map ofString

def reportTitleHeadings : List JsString := ["research report", "研究报告"].map ofString
def questionHeadings : List JsString := ["question", "问题"].map ofString
def answerHeadings : List JsString :=
  ["answer", "answer (llm answer)", "回答", "回答（llm 模型回答）"].map ofString
def agentBoundaryHeadings : List JsString := ["agent evidence analysis", "智能体证据分析"].map ofString
def evidenceUsedHeadings : List JsString := ["evidence used", "使用的证据", "引用证据"].map ofString

section Lower

variable (lower : JsString → JsString)

/-! ## `parseRestrictedMarkdown` -/

def isSectionLabel (trimmed : JsString) : Bool := modelSectionLabels.contains (lower trimmed)

/-- `/^(#{1,4})\s+(.+)$/`. -/
def heading (trimmed : JsString) : Option (Nat × JsString) :=
  (hashes 1 4 trimmed).bind fun (level, rest) => (spacedRest rest).map fun text => (level, trim text)

/-- `/^[-*+]\s+\S/` and `/^[-*+]\s+(.+)$/`. -/
def startsBulleted (trimmed : JsString) : Bool := (afterBullet trimmed).any spacedStart
def bulletedItem (trimmed : JsString) : Option JsString := (afterBullet trimmed).bind spacedRest

/-- `/^\d+[.)]\s+\S/` and `/^\d+[.)]\s+(.+)$/`. -/
def startsNumbered (trimmed : JsString) : Bool := (afterNumber trimmed).any spacedStart
def numberedItem (trimmed : JsString) : Option JsString := (afterNumber trimmed).bind spacedRest

/-- `/^>\s?/` and `/^>\s?(.*)$/`. -/
def startsQuoted (trimmed : JsString) : Bool := (afterQuote trimmed).isSome
def quotedLine (trimmed : JsString) : Option JsString := (afterQuote trimmed).bind quotedRest

def isBlockStart (line : JsString) : Bool :=
  let trimmed := trim line
  (hashes 1 4 trimmed).any (fun marks => spacedStart marks.2) || startsBulleted trimmed ||
    startsNumbered trimmed || startsQuoted trimmed || isRule trimmed || isSectionLabel lower trimmed

/-- The inner loops of lists and quotes: the items of the lines that match, and the other lines. -/
def takeItems (item : JsString → Option JsString) : List JsString → List JsString × List JsString
  | [] => ([], [])
  | line :: rest =>
    match item (trim line) with
    | some text => (text :: (takeItems item rest).1, (takeItems item rest).2)
    | none => ([], line :: rest)

/-- A line that a paragraph goes on with. -/
def continuesParagraph (line : JsString) : Bool := !(trim line).isEmpty && !isBlockStart lower line

/-- One round of the loop: the first line opens a block, `lines` being those from `index` on. -/
def parseRound (lines : List JsString) (blocks : List MarkdownBlock) :
    Option (List JsString × List MarkdownBlock) :=
  match lines with
  | [] => none
  | line :: rest =>
    let trimmed := trim line
    if trimmed.isEmpty then some (rest, blocks)
    else if let some (level, text) := heading trimmed then
      some (rest, blocks ++ [.heading level text])
    else if isSectionLabel lower trimmed then some (rest, blocks ++ [.label trimmed])
    else if isRule trimmed then some (rest, blocks ++ [.horizontalRule])
    else if startsBulleted trimmed then
      let (items, left) := takeItems bulletedItem (line :: rest)
      some (left, blocks ++ [.unorderedList (items.map trim)])
    else if startsNumbered trimmed then
      let (items, left) := takeItems numberedItem (line :: rest)
      some (left, blocks ++ [.orderedList (items.map trim)])
    else if startsQuoted trimmed then
      let (quoteLines, left) := takeItems quotedLine (line :: rest)
      some (left, blocks ++ [.blockquote (unlines quoteLines)])
    else
      let paragraphLines := trimmed :: (rest.takeWhile (continuesParagraph lower)).map trim
      some (rest.dropWhile (continuesParagraph lower), blocks ++ [.paragraph (unlines paragraphLines)])

/-- The body of the loop of `parseRestrictedMarkdown`. -/
def parseBody (state : List JsString × List MarkdownBlock) :
    Option (List JsString × List MarkdownBlock) :=
  parseRound lower state.1 state.2

/-! ## `splitResearchReport` -/

/-- The line is one of these headings, of this level or a deeper one. -/
def isHeadingOf (headings : List JsString) (minimumLevel : Nat) (line : JsString) : Bool :=
  ((hashes 1 6 (trim line)).bind fun (level, rest) =>
    (spacedRest rest).map fun text =>
      decide (minimumLevel ≤ level) && headings.contains (lower (trim text))).getD false

/-- `lines.findIndex`, from an index on. -/
def findFrom (p : JsString → Bool) (start : Nat) (lines : List JsString) : Option Nat :=
  ((lines.drop start).findIdx? p).map (start + ·)

def findMarkdownHeadingIndex (lines headings : List JsString) (minimumLevel start : Nat) : Option Nat :=
  findFrom (isHeadingOf lower headings minimumLevel) start lines

/-- The line without a heading's marks: `replace(/^#{1,6}\s+/, '')`. -/
def withoutMarks (trimmed : JsString) : JsString :=
  match hashes 1 6 trimmed with
  | some (_, c :: rest) => if isSpace c then rest.dropWhile isSpace else trimmed
  | _ => trimmed

def isEvidenceHeading (line : JsString) : Bool :=
  evidenceUsedHeadings.contains (lower (trim (withoutMarks (trim line))))

/-- `lines.slice(start, stop).join('\n').trim()`. -/
def textBetween (lines : List JsString) (start stop : Nat) : JsString :=
  trim (unlines ((lines.drop start).take (stop - start)))

/-- The parts of a report whose headings were found at these lines. -/
def reportParts (lines : List JsString) (answerIndex : Nat)
    (questionIndex explicitAgentBoundaryIndex legacyAgentStartIndex : Option Nat) :
    Option ResearchReportParts :=
  let agentStartIndex := explicitAgentBoundaryIndex.or legacyAgentStartIndex
  let agentContentStartIndex := (explicitAgentBoundaryIndex.map (· + 1)).or legacyAgentStartIndex
  let modelEndIndex := agentStartIndex.getD lines.length
  let evidenceUsedIndex := findFrom (isEvidenceHeading lower) (answerIndex + 1) (lines.take modelEndIndex)
  let question := ((questionIndex.filter fun index => decide (index < answerIndex)).map fun index =>
    textBetween lines (index + 1) answerIndex).getD []
  let modelAnswer := textBetween lines (answerIndex + 1) (evidenceUsedIndex.getD modelEndIndex)
  let evidenceUsed := (evidenceUsedIndex.map fun index =>
    textBetween lines (index + 1) modelEndIndex).getD []
  let agentAnalysis := (agentContentStartIndex.map fun index =>
    textBetween lines index lines.length).getD []
  if modelAnswer.isEmpty then none else some ⟨question, modelAnswer, evidenceUsed, agentAnalysis⟩

def splitResearchReport (report : JsString) : Option ResearchReportParts :=
  let lines := JsString.lines report
  (findMarkdownHeadingIndex lower lines reportTitleHeadings 1 0).bind fun reportTitleIndex =>
  (findMarkdownHeadingIndex lower lines answerHeadings 2 reportTitleIndex).bind fun answerIndex =>
  reportParts lower lines answerIndex
    (findMarkdownHeadingIndex lower lines questionHeadings 2 reportTitleIndex)
    (findMarkdownHeadingIndex lower lines agentBoundaryHeadings 2 (answerIndex + 1))
    (findMarkdownHeadingIndex lower lines agentSectionHeadings 2 (answerIndex + 1))

end Lower

end FinancialRag.Frontend
