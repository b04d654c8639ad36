/-
  **Arithmetic as Python code uses it**, kept abstract — a small library of its own.

  `PyFloat F` lists the operations a program performs on its `float` values and NO law about them:
  a result proved for every `PyFloat` holds for IEEE doubles (rounding, NaN and infinities included)
  as much as for exact arithmetic.  `ℚ` is the exact instance, used wherever a statement is about
  exact values and wherever a definition has to be evaluated.

  `roundHalfEven` is the documented behaviour of the built-in `round(x, digits)`: to the nearest
  multiple of `10 ^ -digits`, ties to the even neighbour.
-/
import FinancialRag.Lib.Rounding
import Mathlib.Data.Rat.Floor
import Mathlib.Tactic.Linarith
import Mathlib.Tactic.Positivity

set_option linter.unusedVariables false

/-- `round(x, digits)` in exact arithmetic. -/
def roundHalfEven (x : ℚ) (digits : Nat) : ℚ :=
  let scaled := x * 10 ^ digits
  let below := scaled.floor
  let rest := scaled - below
  let nearest :=
    if rest < 1 / 2 then below
    else if 1 / 2 < rest then below + 1
    else if below % 2 = 0 then below
    else below + 1
  (nearest : ℚ) / 10 ^ digits

theorem roundHalfEven_eq (x : ℚ) (digits : Nat) : roundHalfEven x digits = Rounding.roundEven x digits := by
  unfold roundHalfEven Rounding.roundEven Rounding.nearestEven
  rfl

/-- Rounding stays between two integers. -/
theorem roundHalfEven_mem {x : ℚ} {digits : Nat} {m n : ℤ} (hm : (m : ℚ) ≤ x * 10 ^ digits)
    (hn : x * 10 ^ digits ≤ n) :
    (m : ℚ) / 10 ^ digits ≤ roundHalfEven x digits ∧ roundHalfEven x digits ≤ (n : ℚ) / 10 ^ digits := by
  rw [roundHalfEven_eq]
  exact Rounding.roundEven_mem hm hn

/-- A share stays a share. -/
theorem roundHalfEven_unit {x : ℚ} (hx : 0 ≤ x) (hx' : x ≤ 1) (digits : Nat) :
    0 ≤ roundHalfEven x digits ∧ roundHalfEven x digits ≤ 1 := by
  have hpow : (0 : ℚ) < 10 ^ digits := by positivity
  have hlow : ((0 : ℤ) : ℚ) ≤ x * 10 ^ digits := by
    rw [Int.cast_zero]
    positivity
  have hhigh : x * 10 ^ digits ≤ ((10 ^ digits : ℤ) : ℚ) := by
    push_cast
    exact mul_le_of_le_one_left hpow.le hx'
  have hround := roundHalfEven_mem hlow hhigh
  push_cast at hround
  rwa [zero_div, div_self hpow.ne'] at hround

/-- The operations on `float` values; no laws. -/
class PyFloat (F : Type) extends Add F, Mul F, Div F, Neg F, IntCast F where
  /-- `x < y` -/
  lt : F → F → Bool
  /-- `x <= y` -/
  le : F → F → Bool
  /-- `x == y` -/
  eq : F → F → Bool
  /-- `round(x, digits)` -/
  round : F → Nat → F
  /-- `str(x)` -/
  str : F → String

instance : PyFloat ℚ where
  lt x y := decide (x < y)
  le x y := decide (x ≤ y)
  eq x y := decide (x = y)
  round := roundHalfEven
  str := toString
