/-
  **Rounding to the nearest, ties to even** — a small library of its own, over any ordered field with a floor.

  `nearestEven` rounds to an integer and `roundEven` to a number of digits.  An EVEN integer draws both ties
  towards itself, so comparing a rounded value with one is comparing the value with a half more or less
  (`nearestEven_le_iff`, `le_nearestEven_iff`).
-/
import Mathlib.Algebra.Order.Floor.Ring
import Mathlib.Algebra.Order.Round
import Mathlib.Tactic.Linarith
import Mathlib.Tactic.Positivity

set_option linter.unusedVariables false

namespace Rounding

variable {F : Type} [Field F] [LinearOrder F] [IsStrictOrderedRing F] [FloorRing F]

/-- The nearest integer, and the even one of two that are as near. -/
def nearestEven (x : F) : ℤ :=
  if x - ⌊x⌋ < 1 / 2 then ⌊x⌋
  else if 1 / 2 < x - ⌊x⌋ then ⌊x⌋ + 1
  else if ⌊x⌋ % 2 = 0 then ⌊x⌋
  else ⌊x⌋ + 1

/-- To the nearest multiple of `10 ^ -digits`. -/
def roundEven (x : F) (digits : ℕ) : F := (nearestEven (x * 10 ^ digits) : F) / 10 ^ digits

omit [IsStrictOrderedRing F] in
theorem nearestEven_floor (x : F) : nearestEven x = ⌊x⌋ ∨ nearestEven x = ⌊x⌋ + 1 := by
  unfold nearestEven
  split_ifs
  · exact Or.inl rfl
  · exact Or.inr rfl
  · exact Or.inl rfl
  · exact Or.inr rfl

/-- Up to an even integer the half is rounded down. -/
theorem nearestEven_le_iff {x : F} {n : ℤ} (hn : n % 2 = 0) : nearestEven x ≤ n ↔ x ≤ n + 1 / 2 := by
  have hfloor := Int.floor_le x
  have hceil := Int.lt_floor_add_one x
  rcases lt_trichotomy ⌊x⌋ n with hlt | heq | hgt
  · -- the integer above is not more than `n`
    have hcast : (⌊x⌋ : F) + 1 ≤ n := by exact_mod_cast hlt
    refine iff_of_true ?_ (by linarith)
    rcases nearestEven_floor x with h | h
    · omega
    · omega
  · subst heq
    unfold nearestEven
    split_ifs with hbelow habove
    · exact iff_of_true le_rfl (by linarith)
    · exact iff_of_false (by omega) (by linarith)
    · exact iff_of_true le_rfl (by linarith)
  · have hcast : (n : F) + 1 ≤ ⌊x⌋ := by exact_mod_cast hgt
    refine iff_of_false ?_ (by linarith)
    rcases nearestEven_floor x with h | h
    · omega
    · omega

/-- Down to an even integer it is rounded up. -/
theorem le_nearestEven_iff {x : F} {n : ℤ} (hn : n % 2 = 0) : n ≤ nearestEven x ↔ (n : F) - 1 / 2 ≤ x := by
  have hfloor := Int.floor_le x
  have hceil := Int.lt_floor_add_one x
  rcases lt_trichotomy (⌊x⌋ + 1) n with hlt | heq | hgt
  · have hcast : (⌊x⌋ : F) + 1 + 1 ≤ n := by exact_mod_cast hlt
    refine iff_of_false ?_ (by linarith)
    rcases nearestEven_floor x with h | h
    · omega
    · omega
  · -- `n` is the integer above, and the one below is odd
    have hcast : (⌊x⌋ : F) + 1 = n := by exact_mod_cast heq
    unfold nearestEven
    split_ifs with hbelow habove heven
    · exact iff_of_false (by omega) (by linarith)
    · exact iff_of_true (by omega) (by linarith)
    · omega
    · exact iff_of_true (by omega) (by linarith)
  · have hcast : (n : F) ≤ ⌊x⌋ := by exact_mod_cast (by omega : n ≤ ⌊x⌋)
    refine iff_of_true ?_ (by linarith)
    rcases nearestEven_floor x with h | h
    · omega
    · omega

/-- Rounding stays between two integers. -/
theorem nearestEven_mem {x : F} {m n : ℤ} (hm : (m : F) ≤ x) (hn : x ≤ n) :
    m ≤ nearestEven x ∧ nearestEven x ≤ n := by
  have hbelow : m ≤ ⌊x⌋ := Int.le_floor.mpr hm
  have habove : ⌊x⌋ ≤ n := by exact_mod_cast (Int.floor_le x).trans hn
  -- the integer above is needed only where `x` is not an integer itself
  have hnext : 0 < x - ⌊x⌋ → ⌊x⌋ + 1 ≤ n := by
    intro hrest
    have hlt : (⌊x⌋ : F) < n := by linarith
    exact_mod_cast hlt
  unfold nearestEven
  split_ifs with hhalf hhalf' heven
  · omega
  · have hsucc := hnext (by linarith)
    omega
  · omega
  · have hsucc := hnext (by linarith [not_lt.mp hhalf])
    omega

theorem roundEven_mem {x : F} {digits : ℕ} {m n : ℤ} (hm : (m : F) ≤ x * 10 ^ digits) (hn : x * 10 ^ digits ≤ n) :
    (m : F) / 10 ^ digits ≤ roundEven x digits ∧ roundEven x digits ≤ (n : F) / 10 ^ digits := by
  have hpow : (0 : F) < 10 ^ digits := by positivity
  obtain ⟨hlow, hhigh⟩ := nearestEven_mem hm hn
  rw [roundEven, div_le_div_iff_of_pos_right hpow, div_le_div_iff_of_pos_right hpow, Int.cast_le, Int.cast_le]
  exact ⟨hlow, hhigh⟩

end Rounding
