/-
  `agent/tools/implementations/financial_metrics_tool.py`: growth rate, margin, ratio and CAGR of explicit
  numbers.

  `execute` catches `InvalidOperation`, `TypeError`, `ValueError` and `ZeroDivisionError` and answers with
  a failed result; any other exception leaves it.  `repr` of a float and `math.pow` are parameters.
-/
import FinancialRag.Lib.Decimal

set_option linter.unusedVariables false

namespace FinancialRag.Agent.FinancialMetricsTool

/-! ## Parameters -/

/-- A value of the parameter mapping. -/
inductive MetricParameter where
  | none
  | bool (b : Bool)
  | int (n : Int)
  | float (x : Double)
  | decimal (d : Decimal)
  | str (s : String)
  | other (hashable : Bool)

/-- `context.parameters`. -/
abbrev MetricParameters := String → Option MetricParameter

/-- What the tool takes from the library. -/
structure MathLibrary where
  /-- the decimal value of the numeral that `repr` writes for a float -/
  repr : ℚ → ℚ
  /-- `math.pow` -/
  pow : Double → Double → Except PyException Double

/-- `SUPPORTED_FINANCIAL_METRIC_OPERATIONS`, sorted. -/
def supportedFinancialMetricOperations : List String := ["cagr", "growth_rate", "margin", "ratio"]

/-- `operation`, checked.  What cannot be hashed is no member of a set. -/
def operationOf (parameters : MetricParameters) : Except PyException String :=
  let unsupported := PyException.valueError
    ("operation must be one of: " ++ ", ".intercalate supportedFinancialMetricOperations)
  match parameters "operation" with
  | some (.str s) => if supportedFinancialMetricOperations.contains s then .ok s else .error unsupported
  | some (.other false) | some (.decimal (.nan true)) => .error .typeError
  | _ => .error unsupported

/-- `precision`, checked. -/
def precisionOf (parameters : MetricParameters) : Except PyException Nat :=
  match (parameters "precision").getD (.int 4) with
  | .int n =>
    if 0 ≤ n ∧ n ≤ 10 then .ok n.toNat else .error (.valueError "precision must be between 0 and 10")
  | _ => .error (.valueError "precision must be an integer")

/-- `_number`: the decimal of `str(value)`.  An `int` of more than 4300 digits is not written. -/
def metricNumber (E : MathLibrary) (parameters : MetricParameters) (name : String) :
    Except PyException Decimal :=
  match parameters name with
  | some (.int n) =>
    if n.natAbs < 10 ^ 4300 then .ok (.finite n)
    else .error (.valueError "Exceeds the limit (4300 digits) for integer string conversion")
  | some (.float (.finite q)) => .ok (.finite (E.repr q))
  | some (.float .negativeZero) => .ok (.finite 0)
  | some (.float _) => .error (.valueError s!"{name} must be finite")
  | some (.decimal d) => .ok d
  | _ => .error (.valueError s!"{name} must be a number")

/-! ## The calculations -/

/-- What `_calculate` returns. -/
structure Calculation where
  value : Double
  unit : String
  inputs : List (String × Double)

/-- A result and the inputs as floats. -/
def report (value : Double) (unit : String) (inputs : List (String × Decimal)) :
    Except PyException Calculation := do
  let inputs ← inputs.mapM fun input => do return (input.1, ← input.2.toFloat)
  return { value := value, unit := unit, inputs := inputs }

/-- `((current - previous) / abs(previous)) * 100` -/
def growthRate (current previous : Decimal) : Except PyException Calculation := do
  let zero ← previous.isZero
  if zero then .error (.valueError "previous must be non-zero")
  else do
    let difference ← current.sub previous
    let size ← previous.abs
    let quotient ← difference.div size
    let result ← quotient.mul (.finite 100)
    let value ← result.toFloat
    report value "percent" [("current", current), ("previous", previous)]

/-- `numerator / denominator`, scaled. -/
def quotientMetric (unit : String) (scale : Decimal → Except PyException Decimal)
    (numerator denominator : Decimal) : Except PyException Calculation := do
  let zero ← denominator.isZero
  if zero then .error (.valueError "denominator must be non-zero")
  else do
    let quotient ← numerator.div denominator
    let result ← scale quotient
    let value ← result.toFloat
    report value unit [("numerator", numerator), ("denominator", denominator)]

def margin : Decimal → Decimal → Except PyException Calculation :=
  quotientMetric "percent" fun quotient => quotient.mul (.finite 100)

def ratio : Decimal → Decimal → Except PyException Calculation := quotientMetric "ratio" .ok

/-- `math.pow(ending / starting, 1 / periods)`, less one, in percent. -/
def cagr (E : MathLibrary) (startingValue endingValue periods : Decimal) :
    Except PyException Calculation := do
  let nonPos ← startingValue.isNonPos
  let nonPos ← if nonPos then .ok true else endingValue.isNonPos
  if nonPos then .error (.valueError "starting_value and ending_value must be positive")
  else do
    let nonPos ← periods.isNonPos
    if nonPos then .error (.valueError "periods must be positive")
    else do
      let quotient ← endingValue.div startingValue
      let base ← quotient.toFloat
      let years ← periods.toFloat
      let exponent ← years.inverse
      let power ← E.pow base exponent
      let result := power.minusOne.timesHundred
      if result.isFinite = false then .error (.valueError "calculation produced a non-finite result")
      else
        report result "percent"
          [("starting_value", startingValue), ("ending_value", endingValue), ("periods", periods)]

/-- `_calculate`. -/
def calculate (E : MathLibrary) (operation : String) (parameters : MetricParameters) :
    Except PyException Calculation :=
  if operation = "growth_rate" then do
    let current ← metricNumber E parameters "current"
    let previous ← metricNumber E parameters "previous"
    growthRate current previous
  else if operation = "margin" then do
    let numerator ← metricNumber E parameters "numerator"
    let denominator ← metricNumber E parameters "denominator"
    margin numerator denominator
  else if operation = "ratio" then do
    let numerator ← metricNumber E parameters "numerator"
    let denominator ← metricNumber E parameters "denominator"
    ratio numerator denominator
  else do
    let startingValue ← metricNumber E parameters "starting_value"
    let endingValue ← metricNumber E parameters "ending_value"
    let periods ← metricNumber E parameters "periods"
    cagr E startingValue endingValue periods

/-! ## The tool -/

/-- The output of a successful call. -/
structure MetricOutput where
  operation : String
  value : Double
  unit : String
  precision : Nat
  inputs : List (String × Double)
  deriving DecidableEq

/-- A `ToolResult`: a failed one has the text of the exception as its error and the failure code
    `invalid_input`. -/
inductive MetricResult where
  | success (output : MetricOutput)
  | failed (error : PyException)
  deriving DecidableEq

/-- The exceptions `execute` catches. -/
def isCaught : PyException → Bool
  | .valueError _ | .typeError | .invalidOperation | .zeroDivisionError => true
  | .decimalOverflow | .overflowError => false

/-- The body of the `try`, and the output built from it. -/
def attempt (E : MathLibrary) (parameters : MetricParameters) : Except PyException MetricOutput := do
  let operation ← operationOf parameters
  let precision ← precisionOf parameters
  let calculation ← calculate E operation parameters
  let rounded ← calculation.value.roundTo precision
  return { operation := operation, value := rounded, unit := calculation.unit, precision := precision,
           inputs := calculation.inputs }

/-- `FinancialMetricsTool.execute`. -/
def execute (E : MathLibrary) (parameters : MetricParameters) : Except PyException MetricResult :=
  match attempt E parameters with
  | .ok output => .ok (.success output)
  | .error e => if isCaught e then .ok (.failed e) else .error e

end FinancialRag.Agent.FinancialMetricsTool
