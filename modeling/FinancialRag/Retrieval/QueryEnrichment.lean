/-
  `retrieval/query_enrichment.py`: the query that is searched for is the user's question, stripped,
  with the terms of English filings appended that it suggests.

  The hints are OFFERED in a fixed order (company, aliases, quarters, glossary); one is appended when
  it is not there yet, compared caselessly with the question and with the hints before it.
-/
import FinancialRag.Lib.PyText
import FinancialRag.Lib.Regex

set_option linter.unusedVariables false

namespace FinancialRag.Retrieval

/-! ## The patterns -/

section Patterns

variable (T : PyText)

/-- A literal, as it stands. -/
def exactly (s : String) : Re := Re.lit (· == ·) s

/-- A literal under `re.IGNORECASE`. -/
def caseless (s : String) : Re := Re.lit T.sameCaseless s

/-- `\s*` -/
def spaces : Re := .rep T.isSpace 0 none true

/-- `\s+` -/
def someSpaces : Re := .rep T.isSpace 1 none true

/-- `20\d{2}` -/
def centuryYear : Re := .seq (exactly "20") (.rep T.isDecimal 2 (some 2) true)

/-- `_CJK_PATTERN`: `[\u3400-\u9fff]`. -/
def cjkPattern : Re := .cls fun c => decide (0x3400 ≤ c.toNat) && decide (c.toNat ≤ 0x9fff)

/-- A year, `unit`, at most eight characters, and `第…季度`. -/
def chineseQuarterPattern (unit : String) : Re :=
  .seqs [.group "year" (centuryYear T), spaces T, exactly unit,
    .rep (· != '\n') 0 (some 8) false, exactly "第", .group "quarter" (.oneOf "一二三四"),
    exactly "季度"]

/-- `_FISCAL_QUARTER_PATTERN` -/
def fiscalQuarterPattern : Re := chineseQuarterPattern T "财年"

/-- `_CALENDAR_QUARTER_PATTERN` -/
def calendarQuarterPattern : Re := chineseQuarterPattern T "年"

/-- `_ENGLISH_QUARTER_PATTERN` -/
def englishQuarterPattern : Re :=
  .seqs [.boundary T.isWord, caseless T "Q", .group "quarter" (.oneOf "1234"),
    .alt (.seqs [spaces T, .oneOf "-/'’", spaces T]) (someSpaces T),
    .group "year" (.alt (centuryYear T) (.rep T.isDecimal 2 (some 2) true)), .boundary T.isWord]

/-- `revenue(?:s)?` -/
def revenuePattern : Re := .seq (caseless T "revenue") (.opt (caseless T "s"))

/-- `automotive\s+(?:business\s+)?revenue(?:s)?` and its sibling for services: `head` is what stands
    before the first blank. -/
def segmentRevenuePattern (head : Re) : Re :=
  .seqs [.boundary T.isWord, head, someSpaces T, .opt (.seq (caseless T "business") (someSpaces T)),
    revenuePattern T, .boundary T.isWord]

/-- `growth|trend` -/
def growthPattern : Re := .alt (caseless T "growth") (caseless T "trend")

/-- `_ENGLISH_FINANCIAL_HINTS` -/
def englishFinancialHints : List (Re × String) :=
  [ (segmentRevenuePattern T (caseless T "automotive"), "total automotive revenues"),
    (segmentRevenuePattern T (.seq (caseless T "service") (.opt (caseless T "s"))),
      "services and other revenue"),
    (.alt
      (.seqs [.boundary T.isWord, revenuePattern T, someSpaces T, growthPattern T,
        .boundary T.isWord])
      (.seqs [.boundary T.isWord, growthPattern T, someSpaces T,
        .opt (.seq (caseless T "in") (someSpaces T)), revenuePattern T, .boundary T.isWord]),
      "quarterly total revenues") ]

end Patterns

/-! ## The glossaries -/

/-- `_QUARTER_NUMBER`, on the four characters the patterns read. -/
def quarterNumber : String → Nat
  | "一" => 1
  | "二" => 2
  | "三" => 3
  | _ => 4

/-- `_COMPANY_HINTS` -/
def companyHints : List (String × String) :=
  [("apple", "Apple"), ("nvidia", "NVIDIA"), ("tesla", "Tesla")]

/-- `_ALIASES` -/
def aliases : List (String × String) :=
  [("英伟达", "NVIDIA"), ("辉达", "NVIDIA"), ("特斯拉", "Tesla"), ("苹果", "Apple")]

/-- `_FINANCIAL_HINTS`, the most specific first. -/
def financialHints : List (String × String) :=
  [ ("经营活动现金流", "operating cash flow"),
    ("自由现金流", "free cash flow"),
    ("汽车业务", "automotive"),
    ("服务业务", "services"),
    ("营业利润", "operating income"),
    ("净利润", "net income"),
    ("毛利率", "gross margin"),
    ("毛利润", "gross profit"),
    ("总收入", "total revenue"),
    ("第一季度", "Q1 first quarter"),
    ("第二季度", "Q2 second quarter"),
    ("第三季度", "Q3 third quarter"),
    ("第四季度", "Q4 fourth quarter"),
    ("现金流", "cash flow"),
    ("毛利", "gross profit"),
    ("营收", "revenue"),
    ("收入", "revenue"),
    ("利润", "profit"),
    ("财年", "fiscal year"),
    ("同比", "year over year"),
    ("环比", "quarter over quarter"),
    ("增速", "growth rate"),
    ("增长", "growth"),
    ("下降", "decline") ]

/-! ## The hints a question suggests -/

/-- `s[-2:]` -/
def lastTwo (s : String) : String := String.ofList (s.toList.drop (s.toList.length - 2))

/-- The hints of the glossary entries that occur in the text. -/
def occurring (glossary : List (String × String)) (text : String) : List String :=
  (glossary.filter fun entry => PyText.isIn entry.1 text).map Prod.snd

/-- `company_hint` -/
def companyHint (T : PyText) : Option String → List String
  | none => []
  | some company =>
    if company = "" then [] else (companyHints.lookup (T.casefold (T.strip company))).toList

def fiscalQuarterHints (m : Re.Cursor) : List String :=
  let year := m.group "year"
  let short := lastTwo year
  let quarter := quarterNumber (m.group "quarter")
  [s!"Q{quarter} FY{short}", s!"Q{quarter} Fiscal {year}"]

def calendarQuarterHints (m : Re.Cursor) : List String :=
  let year := m.group "year"
  let quarter := quarterNumber (m.group "quarter")
  [s!"Q{quarter} {year}", s!"Q{quarter}-{year}"]

def englishQuarterHints (m : Re.Cursor) : List String :=
  let quarter := m.group "quarter"
  let year := m.group "year"
  let fullYear := if year.length = 4 then year else s!"20{year}"
  let short := lastTwo fullYear
  [s!"Q{quarter}-{fullYear}", s!"Q{quarter}'{short}"]

/-- The hints of a question in Chinese. -/
def chineseHints (T : PyText) (normalized : String) : List String :=
  if cjkPattern.search normalized then
    occurring aliases normalized
      ++ ((fiscalQuarterPattern T).finditer normalized).flatMap fiscalQuarterHints
      ++ ((calendarQuarterPattern T).finditer normalized).flatMap calendarQuarterHints
      ++ occurring financialHints normalized
  else []

/-- Every hint passed to `add_hint`, in order. -/
def offeredHints (T : PyText) (normalized : String) (company : Option String) : List String :=
  companyHint T company
    ++ chineseHints T normalized
    ++ ((englishQuarterPattern T).finditer normalized).flatMap englishQuarterHints
    ++ ((englishFinancialHints T).filter fun entry => entry.1.search normalized).map Prod.snd

/-- `add_hint`; the keys `seen` are the case-folded `hints`. -/
def addHint (T : PyText) (normalized : String) (hints : List String) (hint : String) : List String :=
  let key := T.casefold hint
  if (hints.map T.casefold).contains key || PyText.isIn key (T.casefold normalized) then hints
  else hints ++ [hint]

/-- `enrich_financial_query`. -/
def enrichFinancialQuery (T : PyText) (question : String) (company : Option String) : String :=
  let normalized := T.strip question
  if normalized = "" then normalized
  else
    let hints := (offeredHints T normalized company).foldl (addHint T normalized) []
    if hints.isEmpty then normalized
    else
      let suffix := " ".intercalate hints
      s!"{normalized} {suffix}"

example : enrichFinancialQuery .ascii " automotive revenue q3'24 " (some "Tesla") =
    "automotive revenue q3'24 Tesla Q3-2024 total automotive revenues" := by decide +kernel

example : enrichFinancialQuery .ascii "2024 财年的第二季度净利润" none =
    "2024 财年的第二季度净利润 Q2 FY24 Q2 Fiscal 2024 net income Q2 second quarter profit fiscal year" := by
  decide +kernel

end FinancialRag.Retrieval
