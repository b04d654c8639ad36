/-
  `agent/planning/financial_metric_parser.py`: a question that asks for one governed calculation.

  Each pattern says what stands before each of its numbers, what the number is called, and what stands
  behind the last one.  A match is accepted when the question has as many numeric tokens as the pattern
  has numbers; the tokens are counted apart from the match, by `findall`.

  The thousands groups of a number, `(?:,\d{3})+`, are bounded by the length of the text.  What `int` and
  `float` make of a value is left open, and so are the values of the decimal digits.
-/
import Mathlib.Data.Rat.Defs
import FinancialRag.Retrieval.QueryEnrichment

set_option linter.unusedVariables false

namespace FinancialRag.Agent

open FinancialRag.Retrieval

/-! ## The patterns -/

inductive FinancialMetricOperation where
  | growthRate
  | margin
  | ratio
  | cagr
  deriving DecidableEq

structure MetricPattern where
  operation : FinancialMetricOperation
  regex : Re
  parameterNames : List String

section Patterns

variable (T : PyText)

/-- `,\d{3}` -/
def thousands : Re := .seq (.cls (· == ',')) (.rep T.isDecimal 3 (some 3) true)

/-- `\d{1,3}(?:,\d{3})+|\d+` -/
def integerPart (n : Nat) : Re :=
  .alt (.seq (.rep T.isDecimal 1 (some 3) true) (.seq (thousands T) (.upTo (thousands T) n)))
    (.rep T.isDecimal 1 none true)

/-- `(?:\.\d+)?` -/
def fraction : Re := .opt (.seq (.cls (· == '.')) (.rep T.isDecimal 1 none true))

/-- `_NUMBER`, with at most `n + 1` thousands groups. -/
def number (n : Nat) : Re := .seq (.opt (.oneOf "-+")) (.seq (integerPart T n) (fraction T))

/-- `.*?` -/
def anything : Re := .rep (· != '\n') 0 none false

/-- `\b` -/
def wordBoundary : Re := .boundary T.isWord

/-- Named numbers, each after what leads to it, and what stands behind the last. -/
def numbers (number trail : Re) : List (Re × String) → Re
  | [] => trail
  | (lead, name) :: more => .seq lead (.seq (.group name number) (numbers number trail more))

/-- A pattern made of named numbers. -/
def metricPattern (operation : FinancialMetricOperation) (n : Nat) (trail : Re)
    (spec : List (Re × String)) : MetricPattern where
  operation := operation
  regex := numbers (number T n) trail spec
  parameterNames := spec.map Prod.snd

/-- `\s+\b…\s+`: a word between two numbers. -/
def linkWord (word : String) : Re := .seqs [someSpaces T, wordBoundary T, caseless T word, someSpaces T]

/-- `\bfrom\s+`, `\bof\s+`: the word before the first number. -/
def leadWord (word : String) : Re := .seqs [wordBoundary T, caseless T word, someSpaces T]

def cagrPattern (n : Nat) : MetricPattern :=
  metricPattern T .cagr n
    (.seqs [someSpaces T,
      .alt (.seq (caseless T "period") (.opt (caseless T "s")))
        (.seq (caseless T "year") (.opt (caseless T "s"))),
      wordBoundary T])
    [ (.seqs [wordBoundary T, caseless T "cagr", wordBoundary T, anything, leadWord T "from"],
        "starting_value"),
      (linkWord T "to", "ending_value"),
      (linkWord T "over", "periods") ]

def growthRatePattern (n : Nat) : MetricPattern :=
  metricPattern T .growthRate n (wordBoundary T)
    [ (.seqs [wordBoundary T,
          .alt (caseless T "growth")
            (.alt (.seqs [caseless T "growth", someSpaces T, caseless T "rate"])
              (.alt (.seqs [caseless T "percentage", someSpaces T, caseless T "growth"])
                (.seqs [caseless T "revenue", someSpaces T, caseless T "growth"]))),
          wordBoundary T, anything, leadWord T "from"],
        "previous"),
      (linkWord T "to", "current") ]

/-- The pattern for a question in Chinese: nothing stands behind its last number. -/
def chineseGrowthRatePattern (n : Nat) : MetricPattern :=
  metricPattern T .growthRate n .eps
    [ (.seqs [.alt (exactly "增长率") (exactly "增长百分比"), anything, exactly "从", spaces T],
        "previous"),
      (.seqs [spaces T, .opt (exactly "增长"), exactly "到", spaces T], "current") ]

/-- The two patterns for a numerator and a denominator. -/
def quotientPattern (operation : FinancialMetricOperation) (metric link : String) (n : Nat) :
    MetricPattern :=
  metricPattern T operation n (wordBoundary T)
    [ (.seqs [wordBoundary T, caseless T metric, wordBoundary T, anything, leadWord T "of"],
        "numerator"),
      (linkWord T link, "denominator") ]

def marginPattern (n : Nat) : MetricPattern := quotientPattern T .margin "margin" "on" n

def ratioPattern (n : Nat) : MetricPattern := quotientPattern T .ratio "ratio" "to" n

/-- `_PATTERNS` -/
def metricPatterns (n : Nat) : List MetricPattern :=
  [cagrPattern T n, growthRatePattern T n, chineseGrowthRatePattern T n, marginPattern T n,
    ratioPattern T n]

/-- `_NUMBER_TOKEN` -/
def numberToken (n : Nat) : Re := .group "token" (number T n)

end Patterns

/-! ## Numbers -/

variable {V : Type}

/-- What numbers are made with: the value of a decimal digit, `int` of an integral value and `float` of
    any other. -/
structure Numerals (V : Type) where
  digit : Char → Nat
  int : Int → V
  float : ℚ → V

/-- The number written by some digits. -/
def Numerals.natural (N : Numerals V) (digits : List Char) : Nat :=
  digits.foldl (fun n c => 10 * n + N.digit c) 0

/-- `Decimal(text)`, for a text without exponent. -/
def Numerals.decimal (T : PyText) (N : Numerals V) (text : List Char) : Except String ℚ :=
  let signed := text.head?.any fun c => c == '-' || c == '+'
  let unsigned := if signed then text.tail else text
  let whole := unsigned.takeWhile T.isDecimal
  let point := unsigned.dropWhile T.isDecimal
  let fractional := point.tail
  if (point.isEmpty || (point.head? == some '.' && fractional.all T.isDecimal)) &&
      !(whole ++ fractional).isEmpty then
    let magnitude : ℚ := (N.natural (whole ++ fractional) : ℚ) / 10 ^ fractional.length
    .ok (if text.head? == some '-' then -magnitude else magnitude)
  else .error "InvalidOperation"

/-- `_decimal_to_number`; a value without exponent is finite. -/
def Numerals.decimalToNumber (T : PyText) (N : Numerals V) (rawValue : String) : Except String V := do
  let value ← N.decimal T (rawValue.toList.filter (· != ','))
  return if value.den = 1 then N.int value.num else N.float value

/-! ## The parser -/

/-- `FinancialMetricInvocation`; `parameters` without the operation it repeats. -/
structure FinancialMetricInvocation (V : Type) where
  operation : FinancialMetricOperation
  parameters : List (String × V)

/-- `" ".join(question.strip().split())` -/
def normalizedQuestion (T : PyText) (question : String) : String :=
  PyText.join " " (PyText.runs (fun c => !T.isSpace c) (T.strip question))

/-- `_NUMBER_TOKEN.findall`, with the places where the tokens end. -/
def numericTokens (T : PyText) (text : String) : List Re.Cursor :=
  (numberToken T text.toList.length).finditer text

/-- The text of a token. -/
def tokenText (token : Re.Cursor) : String := token.group "token"

/-- The body of the `try`. -/
def readParameters (T : PyText) (N : Numerals V) (m : Re.Cursor) (names : List String) :
    Except String (List (String × V)) :=
  names.mapM fun name => do return (name, ← N.decimalToNumber T (m.group name))

/-- The loop over the patterns. -/
def firstMetric (T : PyText) (N : Numerals V) (text : String) :
    List MetricPattern → Option (FinancialMetricInvocation V)
  | [] => none
  | p :: ps =>
    match p.regex.find text with
    | none => firstMetric T N text ps
    | some m =>
      if (numericTokens T text).length ≠ p.parameterNames.length then firstMetric T N text ps
      else
        match readParameters T N m p.parameterNames with
        | .ok parameters => some { operation := p.operation, parameters := parameters }
        | .error _ => none

/-- `parse_financial_metric_query`. -/
def parseFinancialMetricQuery (T : PyText) (N : Numerals V) (question : String) :
    Option (FinancialMetricInvocation V) :=
  let normalized := normalizedQuestion T question
  if normalized = "" then none
  else firstMetric T N normalized (metricPatterns T normalized.toList.length)

end FinancialRag.Agent
