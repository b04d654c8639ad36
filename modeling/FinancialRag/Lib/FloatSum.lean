/-
  **Sums of rounded numbers** — a small library of its own, over any rounding of an ordered field.

  `Rounds fl ε B` is all that is known of the rounding: up to the magnitude `B` it is off by at most `ε`.
  `compensatedSum` is Neumaier's sum, which carries what every addition loses and adds it at the end.  It
  is near the exact sum (`abs_sumCompensated_sub_le`): every step loses a rounding in the total and four
  in the compensation.

  A comparison with a computed value is decided by the exact value when that is clear of the threshold,
  which is what such a bound is for.
-/
import Mathlib.Algebra.Order.AbsoluteValue.Basic
import Mathlib.Algebra.Order.BigOperators.Group.List
import Mathlib.Algebra.Order.Field.Basic
import Mathlib.Tactic.Linarith
import Mathlib.Tactic.NormNum
import Mathlib.Tactic.Ring
import FinancialRag.Lib.FloatFormat

set_option linter.unusedVariables false

namespace FloatSum

variable {K : Type} [Field K] [LinearOrder K]

/-- Up to the magnitude `B`, rounding is off by at most `ε`. -/
def Rounds (fl : K → K) (ε B : K) : Prop := ∀ q, |q| ≤ B → |fl q - q| ≤ ε

/-- What an addition loses, as computed from the greater of the two. -/
def lostBy (fl : K → K) (total x : K) : K :=
  let t := fl (total + x)
  if |x| ≤ |total| then fl (fl (total - t) + x) else fl (fl (x - t) + total)

/-- Neumaier's sum: the total and the compensation `c` so far. -/
def compensatedSum (fl : K → K) : K → K → List K → K
  | total, c, [] => if c = 0 then total else fl (total + c)
  | total, c, x :: xs => compensatedSum fl (fl (total + x)) (fl (c + lostBy fl total x)) xs

/-- The sum of a list, whose first number is taken as it is. -/
def sumCompensated (fl : K → K) : List K → K
  | [] => 0
  | x :: xs => compensatedSum fl x 0 xs

theorem compensatedSum_nil (fl : K → K) (total c : K) :
    compensatedSum fl total c [] = if c = 0 then total else fl (total + c) := rfl

theorem compensatedSum_cons (fl : K → K) (total c x : K) (xs : List K) :
    compensatedSum fl total c (x :: xs) =
      compensatedSum fl (fl (total + x)) (fl (c + lostBy fl total x)) xs := rfl

/-- The magnitudes of a list, added. -/
def mass (xs : List K) : K := (xs.map fun x => |x|).sum

theorem mass_cons (x : K) (xs : List K) : mass (x :: xs) = |x| + mass xs := by
  simp [mass]

section

variable [IsStrictOrderedRing K] {fl : K → K} {ε B : K}

theorem mass_nonneg (xs : List K) : 0 ≤ mass xs := by
  refine List.sum_nonneg fun y hy => ?_
  obtain ⟨x, -, rfl⟩ := List.mem_map.mp hy
  exact abs_nonneg x

/-- Rounding adds at most `ε` to an error. -/
theorem Rounds.near (hfl : Rounds fl ε B) {q r d : K} (hq : |q| ≤ B) (hd : |q - r| ≤ d) :
    |fl q - r| ≤ d + ε := by
  have hround := hfl q hq
  calc |fl q - r| = |(fl q - q) + (q - r)| := by congr 1; ring
    _ ≤ |fl q - q| + |q - r| := abs_add_le _ _
    _ ≤ d + ε := by linarith

/-- A product of two rounded numbers of at most one, rounded. -/
theorem Rounds.near_mul (hfl : Rounds fl ε B) (hε : 0 ≤ ε) (hε' : 4 * ε ≤ 1) (hB : 2 ≤ B) {a b : K}
    (ha : |a| ≤ 1) (hb : |b| ≤ 1) : |fl (fl a * fl b) - a * b| ≤ 4 * ε := by
  have hna := hfl a (by linarith)
  have hnb := hfl b (by linarith)
  have herror : |fl a * fl b - a * b| ≤ 2 * ε + ε * ε := by
    calc |fl a * fl b - a * b|
        = |(fl a - a) * (fl b - b) + ((fl a - a) * b + a * (fl b - b))| := by congr 1; ring
      _ ≤ |(fl a - a) * (fl b - b)| + |(fl a - a) * b + a * (fl b - b)| := abs_add_le _ _
      _ ≤ |(fl a - a) * (fl b - b)| + (|(fl a - a) * b| + |a * (fl b - b)|) := by
          linarith [abs_add_le ((fl a - a) * b) (a * (fl b - b))]
      _ = |fl a - a| * |fl b - b| + (|fl a - a| * |b| + |a| * |fl b - b|) := by
          rw [abs_mul, abs_mul, abs_mul]
      _ ≤ ε * ε + (ε * 1 + 1 * ε) := by gcongr
      _ = 2 * ε + ε * ε := by ring
  have hsquare : ε * ε ≤ ε := mul_le_of_le_one_left hε (by linarith)
  have hproduct : |a * b| ≤ 1 := by
    rw [abs_mul]
    exact mul_le_one₀ ha (abs_nonneg b) hb
  have hsize : |fl a * fl b| ≤ B := by
    have htri := abs_sub_abs_le_abs_sub (fl a * fl b) (a * b)
    linarith
  have hnear := hfl.near hsize (herror.trans (by linarith : 2 * ε + ε * ε ≤ 3 * ε))
  linarith

theorem abs_lostBy_le (hfl : Rounds fl ε B) (hε : 0 ≤ ε) {total x : K}
    (hB : |total| + |x| + 2 * ε ≤ B) : |lostBy fl total x| ≤ 3 * ε := by
  have hx := abs_nonneg x
  have htotal := abs_nonneg total
  have hsum : |fl (total + x) - (total + x)| ≤ ε :=
    hfl _ ((abs_add_le total x).trans (by linarith))
  -- the remainder of one addition, whichever way it is computed
  have hrest : ∀ a b : K, a + b = total + x → |b| ≤ B - 2 * ε →
      |fl (fl (a - fl (total + x)) + b)| ≤ 3 * ε := by
    intro a b hab hb
    have hgap : |(a - fl (total + x)) - -b| ≤ ε := by
      have heq : (a - fl (total + x)) - -b = -(fl (total + x) - (total + x)) := by
        rw [← hab]
        ring
      rwa [heq, abs_neg]
    have hfirst : |a - fl (total + x)| ≤ B := by
      have htri := abs_sub_abs_le_abs_sub (a - fl (total + x)) (-b)
      rw [abs_neg] at htri
      linarith
    have hsecond : |fl (a - fl (total + x)) + b| ≤ 2 * ε := by
      have hnear := hfl.near hfirst hgap
      rw [sub_neg_eq_add] at hnear
      linarith
    have hlast := hfl.near (r := 0) (d := 2 * ε) (hsecond.trans (by linarith)) (by rwa [sub_zero])
    rw [sub_zero] at hlast
    linarith
  unfold lostBy
  dsimp only
  split
  · exact hrest total x rfl (by linarith)
  · exact hrest x total (add_comm x total) (by linarith)

/-- **The computed sum is near the exact one**, for a compensation of at most `k` so far. -/
theorem abs_compensatedSum_sub_le (hfl : Rounds fl ε B) (hε : 0 ≤ ε) :
    ∀ (xs : List K) (total c k : K), |c| ≤ k →
      |total| + mass xs + k + (5 * xs.length + 1) * ε ≤ B →
      |compensatedSum fl total c xs - (total + xs.sum)| ≤ k + (5 * xs.length + 1) * ε := by
  intro xs
  induction xs with
  | nil =>
    intro total c k hc hB
    rw [compensatedSum_nil, List.sum_nil, add_zero]
    simp only [mass, List.map_nil, List.sum_nil, List.length_nil, Nat.cast_zero, mul_zero, zero_add,
      one_mul, add_zero] at hB ⊢
    split
    · rw [sub_self, abs_zero]
      linarith [abs_nonneg c]
    · have hlast : |total + c| ≤ B := (abs_add_le total c).trans (by linarith)
      have hnear : |total + c - total| ≤ k := by rwa [add_sub_cancel_left]
      exact hfl.near hlast hnear
  | cons x xs ih =>
    intro total c k hc hB
    rw [mass_cons] at hB
    rw [compensatedSum_cons, List.sum_cons]
    have hlength : ((x :: xs).length : K) = xs.length + 1 := by
      rw [List.length_cons, Nat.cast_add, Nat.cast_one]
    rw [hlength] at hB ⊢
    have hmass := mass_nonneg xs
    have hk : 0 ≤ k := (abs_nonneg c).trans hc
    have hroundings : 0 ≤ (xs.length : K) * ε := mul_nonneg (Nat.cast_nonneg _) hε
    have hadd : |total + x| ≤ B := (abs_add_le total x).trans (by linarith [abs_nonneg x])
    have hround : |fl (total + x) - (total + x)| ≤ ε := hfl _ hadd
    have hlost : |lostBy fl total x| ≤ 3 * ε := abs_lostBy_le hfl hε (by linarith)
    have hcarry : |c + lostBy fl total x| ≤ k + 3 * ε := (abs_add_le _ _).trans (by linarith)
    have hc' : |fl (c + lostBy fl total x)| ≤ k + 4 * ε := by
      have hnear := hfl.near (r := 0) (d := k + 3 * ε)
        (hcarry.trans (by linarith [abs_nonneg total, abs_nonneg x])) (by rwa [sub_zero])
      rw [sub_zero] at hnear
      linarith
    have htotal : |fl (total + x)| ≤ |total| + |x| + ε := by
      have htri := abs_sub_abs_le_abs_sub (fl (total + x)) (total + x)
      linarith [abs_add_le total x]
    have hrest := ih (fl (total + x)) (fl (c + lostBy fl total x)) (k + 4 * ε) hc' (by linarith)
    calc |compensatedSum fl (fl (total + x)) (fl (c + lostBy fl total x)) xs - (total + (x + xs.sum))|
        = |(compensatedSum fl (fl (total + x)) (fl (c + lostBy fl total x)) xs -
              (fl (total + x) + xs.sum)) + (fl (total + x) - (total + x))| := by congr 1; ring
      _ ≤ |compensatedSum fl (fl (total + x)) (fl (c + lostBy fl total x)) xs -
              (fl (total + x) + xs.sum)| + |fl (total + x) - (total + x)| := abs_add_le _ _
      _ ≤ k + (5 * (xs.length + 1) + 1) * ε := by linarith

/-- **A compensated sum is near the exact sum.** -/
theorem abs_sumCompensated_sub_le (hfl : Rounds fl ε B) (hε : 0 ≤ ε) (xs : List K)
    (hB : mass xs + (5 * xs.length + 1) * ε ≤ B) :
    |sumCompensated fl xs - xs.sum| ≤ (5 * xs.length + 1) * ε := by
  match xs with
  | [] =>
    show |(0 : K) - [].sum| ≤ _
    rw [List.sum_nil, sub_self, abs_zero]
    positivity
  | x :: xs =>
    have hlength : ((x :: xs).length : K) = xs.length + 1 := by
      rw [List.length_cons, Nat.cast_add, Nat.cast_one]
    rw [hlength, mass_cons] at hB
    rw [hlength, List.sum_cons]
    have hsum := abs_compensatedSum_sub_le hfl hε xs x 0 0 (abs_zero.le) (by linarith)
    show |compensatedSum fl x 0 xs - (x + xs.sum)| ≤ _
    linarith

/-- Sums of numbers that are near each other, and their magnitudes. -/
theorem abs_sum_sub_le {ι : Type} {f g : ι → K} {d : K} {is : List ι}
    (h : ∀ i ∈ is, |f i - g i| ≤ d) :
    |(is.map f).sum - (is.map g).sum| ≤ is.length * d ∧
      mass (is.map f) ≤ mass (is.map g) + is.length * d := by
  induction is with
  | nil => simp [mass]
  | cons i is ih =>
    obtain ⟨hsum, hmass⟩ := ih fun j hj => h j (List.mem_cons_of_mem i hj)
    have hi := h i List.mem_cons_self
    have hlength : ((i :: is).length : K) = is.length + 1 := by
      rw [List.length_cons, Nat.cast_add, Nat.cast_one]
    rw [hlength]
    simp only [List.map_cons, List.sum_cons, mass_cons]
    constructor
    · calc |f i + (is.map f).sum - (g i + (is.map g).sum)|
          = |(f i - g i) + ((is.map f).sum - (is.map g).sum)| := by congr 1; ring
        _ ≤ |f i - g i| + |(is.map f).sum - (is.map g).sum| := abs_add_le _ _
        _ ≤ (is.length + 1) * d := by linarith
    · have htri := abs_sub_abs_le_abs_sub (f i) (g i)
      linarith

/-- **A weighted sum of numbers of at most one**: the numbers and weights, the products and the sum are
    all rounded. -/
theorem abs_weighted_sub_le (hfl : Rounds fl ε B) (hε : 0 ≤ ε) (hε' : 4 * ε ≤ 1) (hB : 2 ≤ B)
    {terms : List (K × K)} (hterms : ∀ p ∈ terms, |p.1| ≤ 1 ∧ |p.2| ≤ 1)
    (hmass : mass (terms.map fun p => p.1 * p.2) + (9 * terms.length + 1) * ε ≤ B) :
    |sumCompensated fl (terms.map fun p => fl (fl p.1 * fl p.2)) - (terms.map fun p => p.1 * p.2).sum| ≤
      (9 * terms.length + 1) * ε := by
  have hproducts : ∀ p ∈ terms, |fl (fl p.1 * fl p.2) - p.1 * p.2| ≤ 4 * ε := fun p hp =>
    hfl.near_mul hε hε' hB (hterms p hp).1 (hterms p hp).2
  obtain ⟨hsum, hmass'⟩ := abs_sum_sub_le hproducts
  have hadd := abs_sumCompensated_sub_le hfl hε (terms.map fun p => fl (fl p.1 * fl p.2))
    (by rw [List.length_map]; linarith)
  rw [List.length_map] at hadd
  have htri := abs_add_le
    (sumCompensated fl (terms.map fun p => fl (fl p.1 * fl p.2)) -
      (terms.map fun p => fl (fl p.1 * fl p.2)).sum)
    ((terms.map fun p => fl (fl p.1 * fl p.2)).sum - (terms.map fun p => p.1 * p.2).sum)
  rw [sub_add_sub_cancel] at htri
  linarith

end

/-! ## Formats -/

theorem abs_nearestEven_sub_le (x : ℚ) : |(Rounding.nearestEven x : ℚ) - x| ≤ 1 / 2 := by
  have hfloor := Int.floor_le x
  have hceil := Int.lt_floor_add_one x
  unfold Rounding.nearestEven
  rw [abs_le]
  split_ifs with hbelow habove
  · constructor
    · linarith
    · linarith
  · push_cast
    constructor
    · linarith
    · linarith
  · constructor
    · linarith
    · linarith
  · push_cast
    constructor
    · linarith
    · linarith

/-- **A format rounds up to a power of its radix by at most half of the unit there.** -/
theorem rounds_format (f : FloatFormat) {m : ℤ} (hm : f.leastExponent ≤ m - (f.precision - 1)) :
    Rounds f.round (f.unit (m - (f.precision - 1)) / 2) (f.unit m) := by
  intro q hq
  by_cases hzero : q = 0
  · rw [hzero, FloatFormat.round_zero, sub_zero, abs_zero]
    exact (half_pos (FloatFormat.unit_pos _)).le
  have hpos := FloatFormat.unit_pos (f := f) (f.exponent q)
  have hlog : Int.log f.radix |q| ≤ m := by
    have hmono := Int.log_mono_right (b := f.radix) (abs_pos.mpr hzero) hq
    rwa [FloatFormat.unit, Int.log_zpow f.radix_gt] at hmono
  have hexp : f.exponent q ≤ m - (f.precision - 1) := max_le hm (by omega)
  have heq : f.round q - q =
      ((Rounding.nearestEven (q / f.unit (f.exponent q)) : ℚ) - q / f.unit (f.exponent q)) *
        f.unit (f.exponent q) := by
    have hcancel : q / f.unit (f.exponent q) * f.unit (f.exponent q) = q := div_mul_cancel₀ q hpos.ne'
    rw [sub_mul, hcancel, FloatFormat.round, roundHalfEven_eq, Rounding.roundEven, pow_zero, mul_one,
      div_one]
  rw [heq, abs_mul, abs_of_pos hpos]
  calc |(Rounding.nearestEven (q / f.unit (f.exponent q)) : ℚ) - q / f.unit (f.exponent q)| *
        f.unit (f.exponent q)
      ≤ 1 / 2 * f.unit (m - (f.precision - 1)) :=
        mul_le_mul (abs_nearestEven_sub_le _) (FloatFormat.unit_le_unit hexp) hpos.le (by norm_num)
    _ = f.unit (m - (f.precision - 1)) / 2 := by ring

end FloatSum
