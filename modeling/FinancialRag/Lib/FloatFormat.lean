/-
  **Floating-point formats** — a small library of its own, over arbitrary radix, precision and range.

  A format keeps `precision` digits: a value is rounded, half to even, to a multiple of the UNIT that its
  magnitude calls for, and the units of a format have exponents between `leastExponent` and
  `greatestExponent`.  What rounds to `limit` or beyond overflows.  What does not overflow is at most
  `greatest` (`abs_round_le_greatest`), and what is at most `greatest` does not overflow
  (`not_overflows_of_le`).

  `binary64` is the format of a `float`, `decimal28` that of the default context of `decimal`.
-/
import Mathlib.Data.Int.Log
import Mathlib.Tactic.Positivity
import FinancialRag.Lib.PyFloat

set_option linter.unusedVariables false

structure FloatFormat where
  radix : ℕ
  precision : ℕ
  leastExponent : ℤ
  greatestExponent : ℤ
  radix_gt : 1 < radix
  precision_pos : 0 < precision

namespace FloatFormat

variable (f : FloatFormat)

/-- The exponent of the unit for a magnitude. -/
def exponent (q : ℚ) : ℤ := max f.leastExponent (Int.log f.radix |q| - (f.precision - 1))

/-- The unit of an exponent. -/
def unit (e : ℤ) : ℚ := (f.radix : ℚ) ^ e

/-- A value to the nearest multiple of its unit, half to even. -/
def round (q : ℚ) : ℚ := roundHalfEven (q / f.unit (f.exponent q)) 0 * f.unit (f.exponent q)

/-- The first magnitude that is out of range. -/
def limit : ℚ := f.unit (f.greatestExponent + f.precision)

/-- The greatest magnitude of the format. -/
def greatest : ℚ := ((f.radix : ℚ) ^ f.precision - 1) * f.unit f.greatestExponent

/-- A value is out of range when it rounds out of range. -/
def Overflows (q : ℚ) : Prop := f.limit ≤ |f.round q|

instance (q : ℚ) : Decidable (f.Overflows q) := inferInstanceAs (Decidable (_ ≤ _))

section

variable {f}

theorem radix_pos : (0 : ℚ) < f.radix := by
  have h := f.radix_gt
  positivity

theorem one_lt_radix : (1 : ℚ) < f.radix := by exact_mod_cast f.radix_gt

theorem unit_pos (e : ℤ) : 0 < f.unit e := zpow_pos radix_pos e

theorem unit_add (e d : ℤ) : f.unit (e + d) = f.unit e * f.unit d := zpow_add₀ radix_pos.ne' e d

theorem unit_le_unit {e e' : ℤ} (h : e ≤ e') : f.unit e ≤ f.unit e' :=
  zpow_le_zpow_right₀ one_lt_radix.le h

theorem unit_lt_unit {e e' : ℤ} : f.unit e < f.unit e' ↔ e < e' := zpow_lt_zpow_iff_right₀ one_lt_radix

/-- A power of the radix that is a natural number. -/
theorem unit_natCast (n : ℕ) : f.unit n = ((f.radix ^ n : ℤ) : ℚ) := by
  unfold unit
  push_cast
  exact zpow_natCast _ n

/-- Rounding to an integer stays between two integers. -/
theorem roundHalfEven_between {z : ℚ} {m n : ℤ} (hm : (m : ℚ) ≤ z) (hn : z ≤ n) :
    (m : ℚ) ≤ roundHalfEven z 0 ∧ roundHalfEven z 0 ≤ n := by
  have hm' : (m : ℚ) ≤ z * 10 ^ 0 := by rwa [pow_zero, mul_one]
  have hn' : z * 10 ^ 0 ≤ n := by rwa [pow_zero, mul_one]
  have hmem := roundHalfEven_mem hm' hn'
  rwa [pow_zero, div_one, div_one] at hmem

theorem abs_roundHalfEven_le {z : ℚ} {n : ℤ} (h : |z| ≤ n) : |roundHalfEven z 0| ≤ n := by
  obtain ⟨hlow, hhigh⟩ := abs_le.mp h
  have hlow' : ((-n : ℤ) : ℚ) ≤ z := by rwa [Int.cast_neg]
  obtain ⟨hm, hn⟩ := roundHalfEven_between hlow' hhigh
  rw [Int.cast_neg] at hm
  exact abs_le.mpr ⟨hm, hn⟩

theorem le_abs_roundHalfEven {z : ℚ} {n : ℤ} (h : (n : ℚ) ≤ |z|) : (n : ℚ) ≤ |roundHalfEven z 0| := by
  rcases le_abs.mp h with h | h
  · exact (roundHalfEven_between h (Int.le_ceil z)).1.trans (le_abs_self _)
  · have h' : z ≤ ((-n : ℤ) : ℚ) := by
      rw [Int.cast_neg]
      exact le_neg.mpr h
    have hmem := (roundHalfEven_between (Int.floor_le z) h').2
    rw [Int.cast_neg] at hmem
    exact (le_neg.mp hmem).trans (neg_le_abs _)

theorem exists_roundHalfEven (z : ℚ) : ∃ k : ℤ, roundHalfEven z 0 = k := by
  unfold roundHalfEven
  rw [pow_zero, div_one]
  exact ⟨_, rfl⟩

theorem abs_round (q : ℚ) :
    |f.round q| = |roundHalfEven (q / f.unit (f.exponent q)) 0| * f.unit (f.exponent q) := by
  unfold round
  rw [abs_mul, abs_of_pos (unit_pos _)]

theorem abs_div_unit (q : ℚ) (e : ℤ) : |q / f.unit e| = |q| / f.unit e := by
  rw [abs_div, abs_of_pos (unit_pos e)]

/-- A magnitude has at most `precision` digits before its unit. -/
theorem abs_lt_unit (q : ℚ) : |q| < f.unit (f.exponent q + f.precision) := by
  have hlog := Int.lt_zpow_succ_log_self f.radix_gt |q|
  refine lt_of_lt_of_le hlog (unit_le_unit ?_)
  have hexp : Int.log f.radix |q| - (f.precision - 1) ≤ f.exponent q := le_max_right _ _
  linarith

/-- What is in range has a unit of the format. -/
theorem exponent_le {q : ℚ} (hq : q ≠ 0) (hleast : f.leastExponent ≤ f.greatestExponent)
    (h : |q| < f.limit) : f.exponent q ≤ f.greatestExponent := by
  have hlog := (Int.zpow_log_le_self f.radix_gt (abs_pos.mpr hq)).trans_lt h
  have hlt : Int.log f.radix |q| < f.greatestExponent + f.precision := unit_lt_unit.mp hlog
  exact max_le hleast (by omega)

theorem limit_eq : f.limit = (f.radix : ℚ) ^ f.precision * f.unit f.greatestExponent := by
  have hdigits : f.unit f.precision = (f.radix : ℚ) ^ f.precision := zpow_natCast _ _
  unfold limit
  rw [unit_add, hdigits, mul_comm]

theorem greatest_eq : f.greatest = f.limit - f.unit f.greatestExponent := by
  rw [limit_eq, greatest, sub_one_mul]

theorem greatest_lt_limit : f.greatest < f.limit := by
  rw [greatest_eq]
  linarith [unit_pos (f := f) f.greatestExponent]

/-- A step below the greatest unit the range is at least halved. -/
theorem unit_le_greatest {e : ℤ} (he : e < f.greatestExponent + f.precision) : f.unit e ≤ f.greatest := by
  have hp : (1 : ℤ) ≤ f.precision := by exact_mod_cast f.precision_pos
  have htwo : (2 : ℚ) ≤ f.radix := by exact_mod_cast f.radix_gt
  have hstep : f.limit = f.unit (f.greatestExponent + f.precision - 1) * f.radix := by
    have hexp : f.greatestExponent + f.precision = (f.greatestExponent + f.precision - 1) + 1 := by omega
    unfold limit
    conv_lhs => rw [hexp, unit_add]
    congr 1
    exact zpow_one _
  have hle : f.unit e ≤ f.unit (f.greatestExponent + f.precision - 1) := unit_le_unit (by omega)
  have hunit : f.unit f.greatestExponent ≤ f.unit (f.greatestExponent + f.precision - 1) :=
    unit_le_unit (by omega)
  have hpos := unit_pos (f := f) (f.greatestExponent + f.precision - 1)
  rw [greatest_eq, hstep]
  nlinarith

theorem greatest_nonneg : 0 ≤ f.greatest := by
  have hp : (1 : ℤ) ≤ f.precision := by exact_mod_cast f.precision_pos
  have hunit : f.unit f.greatestExponent ≤ f.greatest := unit_le_greatest (by omega)
  exact (unit_pos _).le.trans hunit

/-- The greatest magnitude is a multiple of every unit. -/
theorem exists_greatest_eq {e : ℤ} (he : e ≤ f.greatestExponent) : ∃ n : ℤ, f.greatest = n * f.unit e := by
  obtain ⟨d, hd⟩ := Int.eq_ofNat_of_zero_le (sub_nonneg.mpr he)
  refine ⟨(f.radix ^ f.precision - 1) * f.radix ^ d, ?_⟩
  have hunit : f.unit f.greatestExponent = f.unit d * f.unit e := by
    rw [← unit_add]
    congr 1
    omega
  rw [greatest, hunit, unit_natCast]
  push_cast
  ring

theorem round_zero : f.round 0 = 0 := by
  have h : |roundHalfEven (0 / f.unit (f.exponent 0)) 0| ≤ ((0 : ℤ) : ℚ) :=
    abs_roundHalfEven_le (by rw [zero_div, abs_zero, Int.cast_zero])
  have hzero : roundHalfEven (0 / f.unit (f.exponent 0)) 0 = 0 := by
    rw [Int.cast_zero] at h
    exact abs_eq_zero.mp (le_antisymm h (abs_nonneg _))
  unfold round
  rw [hzero, zero_mul]

/-- A share is rounded to a share. -/
theorem round_mem_unit (hleast : f.leastExponent ≤ 0) {q : ℚ} (hq : 0 ≤ q) (hq' : q ≤ 1) :
    0 ≤ f.round q ∧ f.round q ≤ 1 := by
  have hlog : Int.log f.radix |q| ≤ 0 := by
    rcases hq.eq_or_lt with rfl | hpos
    · rw [abs_zero, Int.log_zero_right]
    · have hmono : Int.log f.radix |q| ≤ Int.log f.radix (1 : ℚ) :=
        Int.log_mono_right (abs_pos.mpr hpos.ne') (by rwa [abs_of_pos hpos])
      rwa [Int.log_one_right] at hmono
  have hexp : f.exponent q ≤ 0 := by
    have hp := f.precision_pos
    exact max_le hleast (by omega)
  obtain ⟨d, hd⟩ := Int.eq_ofNat_of_zero_le (neg_nonneg.mpr hexp)
  -- one is a multiple of the unit
  have hone : ((f.radix ^ d : ℤ) : ℚ) * f.unit (f.exponent q) = 1 := by
    rw [← unit_natCast, ← unit_add]
    have hsum : (d : ℤ) + f.exponent q = 0 := by omega
    rw [hsum]
    exact zpow_zero _
  have hpos := unit_pos (f := f) (f.exponent q)
  have hlow : ((0 : ℤ) : ℚ) ≤ q / f.unit (f.exponent q) := by
    rw [Int.cast_zero]
    exact div_nonneg hq hpos.le
  have hhigh : q / f.unit (f.exponent q) ≤ ((f.radix ^ d : ℤ) : ℚ) := by
    rw [div_le_iff₀ hpos, hone]
    exact hq'
  obtain ⟨hm, hn⟩ := roundHalfEven_between hlow hhigh
  rw [Int.cast_zero] at hm
  refine ⟨mul_nonneg hm hpos.le, ?_⟩
  rw [← hone]
  exact mul_le_mul_of_nonneg_right hn hpos.le

/-- **What is at most the greatest magnitude is rounded to such.** -/
theorem abs_round_le_of_le (hleast : f.leastExponent ≤ f.greatestExponent) {q : ℚ} (h : |q| ≤ f.greatest) :
    |f.round q| ≤ f.greatest := by
  by_cases hq : q = 0
  · rw [hq, round_zero, abs_zero]
    exact greatest_nonneg
  · obtain ⟨n, hn⟩ := exists_greatest_eq (exponent_le hq hleast (h.trans_lt greatest_lt_limit))
    have hscaled : |q / f.unit (f.exponent q)| ≤ n := by
      rw [abs_div_unit, div_le_iff₀ (unit_pos _), ← hn]
      exact h
    rw [abs_round, hn]
    exact mul_le_mul_of_nonneg_right (abs_roundHalfEven_le hscaled) (unit_pos _).le

theorem not_overflows_of_le (hleast : f.leastExponent ≤ f.greatestExponent) {q : ℚ} (h : |q| ≤ f.greatest) :
    ¬ f.Overflows q :=
  not_le.mpr ((abs_round_le_of_le hleast h).trans_lt greatest_lt_limit)

/-- **What is out of range overflows.** -/
theorem overflows_of_limit_le (hleast : f.leastExponent ≤ f.greatestExponent) {q : ℚ} (h : f.limit ≤ |q|) :
    f.Overflows q := by
  have hpos : 0 < |q| := (unit_pos _).trans_le h
  have hlog : f.greatestExponent + f.precision ≤ Int.log f.radix |q| :=
    (Int.zpow_le_iff_le_log f.radix_gt hpos).mp h
  have hexp : f.exponent q = Int.log f.radix |q| - (f.precision - 1) := max_eq_right (by omega)
  have hp : ((f.precision - 1 : ℕ) : ℤ) = f.precision - 1 := by
    have hpos := f.precision_pos
    omega
  -- the digits of its unit are all there before it is rounded
  have hdigits : ((f.radix ^ (f.precision - 1) : ℤ) : ℚ) ≤ |q / f.unit (f.exponent q)| := by
    rw [abs_div_unit, le_div_iff₀ (unit_pos _), ← unit_natCast, ← unit_add, hp]
    have hself := Int.zpow_log_le_self f.radix_gt hpos
    have hsum : (f.precision : ℤ) - 1 + f.exponent q = Int.log f.radix |q| := by omega
    rw [hsum]
    exact hself
  unfold Overflows
  calc f.limit ≤ f.unit (Int.log f.radix |q|) := unit_le_unit hlog
    _ = f.unit ((f.precision - 1 : ℕ) : ℤ) * f.unit (f.exponent q) := by
        rw [← unit_add]
        congr 1
        omega
    _ ≤ |roundHalfEven (q / f.unit (f.exponent q)) 0| * f.unit (f.exponent q) := by
        rw [unit_natCast]
        exact mul_le_mul_of_nonneg_right (le_abs_roundHalfEven hdigits) (unit_pos _).le
    _ = |f.round q| := (abs_round q).symm

/-- **What does not overflow is at most the greatest magnitude.** -/
theorem abs_round_le_greatest (hleast : f.leastExponent ≤ f.greatestExponent) {q : ℚ}
    (h : ¬ f.Overflows q) : |f.round q| ≤ f.greatest := by
  by_cases hq : q = 0
  · rw [hq, round_zero, abs_zero]
    exact greatest_nonneg
  · have hrange : |q| < f.limit := by
      by_contra hlimit
      exact h (overflows_of_limit_le hleast (not_lt.mp hlimit))
    have hexp := exponent_le hq hleast hrange
    rcases Int.lt_or_eq_of_le hexp with hlt | heq
    · -- below the greatest unit even the digits all greatest are in range
      have hdigits : |q / f.unit (f.exponent q)| ≤ ((f.radix ^ f.precision : ℤ) : ℚ) := by
        rw [abs_div_unit, div_le_iff₀ (unit_pos _), ← unit_natCast, ← unit_add, add_comm]
        exact (abs_lt_unit q).le
      calc |f.round q| = |roundHalfEven (q / f.unit (f.exponent q)) 0| * f.unit (f.exponent q) := abs_round q
        _ ≤ ((f.radix ^ f.precision : ℤ) : ℚ) * f.unit (f.exponent q) :=
            mul_le_mul_of_nonneg_right (abs_roundHalfEven_le hdigits) (unit_pos _).le
        _ = f.unit (f.precision + f.exponent q) := by rw [← unit_natCast, ← unit_add]
        _ ≤ f.greatest := unit_le_greatest (by omega)
    · -- a multiple of the greatest unit below the limit is a unit below it
      obtain ⟨k, hk⟩ := exists_roundHalfEven (q / f.unit (f.exponent q))
      have hround : |f.round q| = (|k| : ℤ) * f.unit f.greatestExponent := by
        rw [abs_round, hk, heq, Int.cast_abs]
      have hlt : ((|k| : ℤ) : ℚ) * f.unit f.greatestExponent <
          ((f.radix ^ f.precision : ℤ) : ℚ) * f.unit f.greatestExponent := by
        rw [← hround]
        refine lt_of_lt_of_eq (not_le.mp h) ?_
        rw [limit_eq]
        push_cast
        rfl
      have hk' : |k| ≤ f.radix ^ f.precision - 1 :=
        Int.le_sub_one_of_lt (by exact_mod_cast lt_of_mul_lt_mul_right hlt (unit_pos _).le)
      have hcast : ((|k| : ℤ) : ℚ) ≤ (f.radix : ℚ) ^ f.precision - 1 := by exact_mod_cast hk'
      rw [hround, greatest]
      exact mul_le_mul_of_nonneg_right hcast (unit_pos _).le

end

/-- The format of a `float`. -/
def binary64 : FloatFormat where
  radix := 2
  precision := 53
  leastExponent := -1074
  greatestExponent := 971
  radix_gt := by decide
  precision_pos := by decide

/-- The default context of `decimal`: 28 digits, `Emin` and `Emax` 999999. -/
def decimal28 : FloatFormat where
  radix := 10
  precision := 28
  leastExponent := -1000026
  greatestExponent := 999972
  radix_gt := by decide
  precision_pos := by decide

end FloatFormat
