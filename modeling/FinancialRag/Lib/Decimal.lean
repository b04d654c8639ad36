/-
  **Decimals and floats as Python computes with them** — a small library of its own.

  A `Decimal` is a number of the `decimal` module by its value; its exponent and the sign of a zero are
  left out.  An operation rounds its exact result in the default context, which traps `InvalidOperation`,
  `DivisionByZero` and `Overflow`: they are raised.  A quiet NaN goes through an operation, a signaling
  one is invalid.

  A `Double` is a float.  Nothing is raised where a float overflows: it becomes an infinity.
-/
import FinancialRag.Lib.FloatFormat
import FinancialRag.Lib.Json

set_option linter.unusedVariables false

/-- What arithmetic raises. -/
inductive PyException where
  | valueError (message : String)
  | typeError
  | invalidOperation
  /-- `ZeroDivisionError`, and `decimal.DivisionByZero`, which is one -/
  | zeroDivisionError
  /-- `decimal.Overflow`, an `ArithmeticError` -/
  | decimalOverflow
  /-- `OverflowError` -/
  | overflowError
  deriving DecidableEq

inductive Decimal where
  | finite (q : ℚ)
  | infinity (negative : Bool)
  | nan (signaling : Bool)
  deriving DecidableEq

namespace Decimal

def isNan : Decimal → Bool
  | .nan _ => true
  | _ => false

def isSignaling : Decimal → Bool
  | .nan signaling => signaling
  | _ => false

/-- An exact result in the context. -/
def finish (q : ℚ) : Except PyException Decimal :=
  if FloatFormat.decimal28.Overflows q then .error .decimalOverflow
  else .ok (.finite (FloatFormat.decimal28.round q))

/-- An operation on two operands, NaNs first. -/
def withNan (a b : Decimal) (op : Except PyException Decimal) : Except PyException Decimal :=
  if a.isSignaling || b.isSignaling then .error .invalidOperation
  else if a.isNan || b.isNan then .ok (.nan false)
  else op

/-- `a - b` -/
def sub (a b : Decimal) : Except PyException Decimal :=
  withNan a b <|
    match a, b with
    | .infinity s, .infinity t => if s = t then .error .invalidOperation else .ok (.infinity s)
    | .infinity s, _ => .ok (.infinity s)
    | _, .infinity t => .ok (.infinity (!t))
    | .finite x, .finite y => finish (x - y)
    | _, _ => .error .invalidOperation

/-- `a * b` -/
def mul (a b : Decimal) : Except PyException Decimal :=
  withNan a b <|
    match a, b with
    | .infinity s, .infinity t => .ok (.infinity (s != t))
    | .infinity s, .finite y => if y = 0 then .error .invalidOperation else .ok (.infinity (s != decide (y < 0)))
    | .finite x, .infinity t => if x = 0 then .error .invalidOperation else .ok (.infinity (t != decide (x < 0)))
    | .finite x, .finite y => finish (x * y)
    | _, _ => .error .invalidOperation

/-- `a / b` -/
def div (a b : Decimal) : Except PyException Decimal :=
  withNan a b <|
    match a, b with
    | .infinity _, .infinity _ => .error .invalidOperation
    | .infinity s, .finite y => .ok (.infinity (s != decide (y < 0)))
    | .finite _, .infinity _ => .ok (.finite 0)
    | .finite x, .finite y =>
      if y = 0 then
        if x = 0 then .error .invalidOperation else .error .zeroDivisionError
      else finish (x / y)
    | _, _ => .error .invalidOperation

/-- `abs(a)`, which rounds too -/
def abs : Decimal → Except PyException Decimal
  | .nan true => .error .invalidOperation
  | .nan false => .ok (.nan false)
  | .infinity _ => .ok (.infinity false)
  | .finite q => finish |q|

/-- `a == 0` -/
def isZero : Decimal → Except PyException Bool
  | .nan true => .error .invalidOperation
  | .finite q => .ok (decide (q = 0))
  | _ => .ok false

/-- `a <= 0`; no NaN is compared -/
def isNonPos : Decimal → Except PyException Bool
  | .nan _ => .error .invalidOperation
  | .infinity negative => .ok negative
  | .finite q => .ok (decide (q ≤ 0))

end Decimal

namespace Double

/-- The float nearest to a value. -/
def ofRat (q : ℚ) : Double :=
  if FloatFormat.binary64.Overflows q then .infinity (decide (q < 0))
  else if FloatFormat.binary64.round q = 0 ∧ q < 0 then .negativeZero
  else .finite (FloatFormat.binary64.round q)

/-- `math.isfinite` -/
def isFinite : Double → Bool
  | .finite _ | .negativeZero => true
  | _ => false

/-- `1 / x` -/
def inverse : Double → Except PyException Double
  | .finite q => if q = 0 then .error .zeroDivisionError else .ok (ofRat (1 / q))
  | .negativeZero => .error .zeroDivisionError
  | .infinity negative => .ok (if negative then .negativeZero else .finite 0)
  | .nan => .ok .nan

/-- `x - 1` -/
def minusOne : Double → Double
  | .finite q => ofRat (q - 1)
  | .negativeZero => ofRat (-1)
  | x => x

/-- `x * 100` -/
def timesHundred : Double → Double
  | .finite q => ofRat (q * 100)
  | x => x

/-- `round(x, digits)`: a rounded value out of range is raised. -/
def roundTo (x : Double) (digits : Nat) : Except PyException Double :=
  match x with
  | .finite q =>
    if FloatFormat.binary64.Overflows (roundHalfEven q digits) then .error .overflowError
    else if roundHalfEven q digits = 0 ∧ q < 0 then .ok .negativeZero
    else .ok (ofRat (roundHalfEven q digits))
  | x => .ok x

theorem isFinite_ofRat (q : ℚ) : (ofRat q).isFinite = true ↔ ¬ FloatFormat.binary64.Overflows q := by
  unfold ofRat
  split
  · rename_i hover
    exact iff_of_false (by simp [isFinite]) (not_not.mpr hover)
  · rename_i hover
    refine iff_of_true ?_ hover
    split <;> rfl

/-- The greatest float is an integer. -/
theorem exists_greatest : ∃ n : ℤ, FloatFormat.binary64.greatest = n := by
  obtain ⟨n, hn⟩ := FloatFormat.exists_greatest_eq (f := FloatFormat.binary64) (e := 0) (by decide)
  refine ⟨n, hn.trans ?_⟩
  rw [FloatFormat.unit, zpow_zero, mul_one]

/-- **Rounding a float to some digits keeps it in range.** -/
theorem roundTo_ofRat {q : ℚ} (h : ¬ FloatFormat.binary64.Overflows q) (digits : Nat) :
    ∃ x, (ofRat q).roundTo digits = .ok x ∧ x.isFinite = true := by
  unfold ofRat
  rw [if_neg h]
  split
  · exact ⟨.negativeZero, rfl, rfl⟩
  · have hle := FloatFormat.abs_round_le_greatest (by decide) h
    obtain ⟨n, hn⟩ := exists_greatest
    rw [hn] at hle
    obtain ⟨hlow, hhigh⟩ := abs_le.mp hle
    have hpow : (0 : ℚ) < 10 ^ digits := by positivity
    have hdigits : |roundHalfEven (FloatFormat.binary64.round q) digits| ≤ FloatFormat.binary64.greatest := by
      have hm : ((-n * 10 ^ digits : ℤ) : ℚ) ≤ FloatFormat.binary64.round q * 10 ^ digits := by
        push_cast
        exact mul_le_mul_of_nonneg_right hlow hpow.le
      have hn' : FloatFormat.binary64.round q * 10 ^ digits ≤ ((n * 10 ^ digits : ℤ) : ℚ) := by
        push_cast
        exact mul_le_mul_of_nonneg_right hhigh hpow.le
      obtain ⟨hlow', hhigh'⟩ := roundHalfEven_mem hm hn'
      push_cast at hlow' hhigh'
      rw [mul_div_cancel_right₀ _ hpow.ne'] at hlow' hhigh'
      rw [hn]
      exact abs_le.mpr ⟨hlow', hhigh'⟩
    have hrange := FloatFormat.not_overflows_of_le (f := FloatFormat.binary64) (by decide) hdigits
    unfold roundTo
    dsimp only
    rw [if_neg hrange]
    split
    · exact ⟨.negativeZero, rfl, rfl⟩
    · exact ⟨_, rfl, (isFinite_ofRat _).mpr hrange⟩

end Double

/-- `float(d)` -/
def Decimal.toFloat : Decimal → Except PyException Double
  | .finite q => .ok (Double.ofRat q)
  | .infinity negative => .ok (.infinity negative)
  | .nan true => .error (.valueError "cannot convert signaling NaN to float")
  | .nan false => .ok .nan
