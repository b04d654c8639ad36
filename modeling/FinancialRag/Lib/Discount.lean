/-
  **Sums under a discount** — a small library of its own, over any ordered field.

  A DISCOUNT is a positive strictly decreasing sequence of weights.  Which sums `∑ weight i * a i` are not
  positive under EVERY discount?  Those whose plain sums `∑ a i` up to each place are not: summation by parts
  gives one direction, and a discount that is nearly one up to a place and nearly zero behind it the other.
-/
import Mathlib.Algebra.BigOperators.Module
import Mathlib.Algebra.BigOperators.Ring.Finset
import Mathlib.Algebra.Order.BigOperators.Group.Finset
import Mathlib.Algebra.Order.Field.Basic
import Mathlib.Tactic.Linarith
import Mathlib.Tactic.Positivity
import Mathlib.Tactic.Ring

set_option linter.unusedVariables false

/-- Weights of the places, counted from zero. -/
structure Discount (F : Type) [Field F] [LinearOrder F] where
  weight : ℕ → F
  pos : ∀ i, 0 < weight i
  strictAnti : StrictAnti weight

namespace Discount

variable {F : Type} [Field F] [LinearOrder F]

/-- The discounted sum of the first `n` places. -/
def total (d : Discount F) (a : ℕ → F) (n : ℕ) : F := ∑ i ∈ Finset.range n, d.weight i * a i

omit [LinearOrder F] in
/-- What counts before a cut only. -/
theorem sum_before {a : ℕ → F} {n cut : ℕ} (hcut : cut ≤ n) :
    (∑ i ∈ Finset.range n, if i < cut then a i else 0) = ∑ i ∈ Finset.range cut, a i := by
  rw [← Finset.sum_filter]
  refine Finset.sum_congr ?_ fun _ _ => rfl
  ext i
  simp only [Finset.mem_filter, Finset.mem_range]
  omega

/-! ## Summation by parts -/

/-- By how much the weight drops behind a place; behind the last one it drops to zero. -/
def drop (d : Discount F) (n i : ℕ) : F := d.weight i - if i + 1 < n then d.weight (i + 1) else 0

section Ordered

variable [IsStrictOrderedRing F]

theorem drop_pos (d : Discount F) (n i : ℕ) : 0 < d.drop n i := by
  unfold drop
  split
  · exact sub_pos.mpr (d.strictAnti (Nat.lt_succ_self i))
  · rw [sub_zero]
    exact d.pos i

omit [IsStrictOrderedRing F] in
theorem total_eq_sum_drop (d : Discount F) (a : ℕ → F) (n : ℕ) :
    d.total a n = ∑ i ∈ Finset.range n, d.drop n i * ∑ j ∈ Finset.range (i + 1), a j := by
  cases n with
  | zero => rfl
  | succ n =>
    have hparts := Finset.sum_range_by_parts d.weight a (n + 1)
    simp only [smul_eq_mul, Nat.add_sub_cancel] at hparts
    have hlast : d.drop (n + 1) n = d.weight n := by rw [drop, if_neg (lt_irrefl _), sub_zero]
    have hrest : ∀ i ∈ Finset.range n, d.drop (n + 1) i * (∑ j ∈ Finset.range (i + 1), a j) =
        -((d.weight (i + 1) - d.weight i) * ∑ j ∈ Finset.range (i + 1), a j) := by
      intro i hi
      rw [drop, if_pos (Nat.succ_lt_succ (Finset.mem_range.mp hi)), ← neg_mul, neg_sub]
    have hsplit := Finset.sum_range_succ (fun i => d.drop (n + 1) i * ∑ j ∈ Finset.range (i + 1), a j) n
    rw [hlast, Finset.sum_congr rfl hrest, Finset.sum_neg_distrib] at hsplit
    rw [total, hparts, hsplit, sub_eq_add_neg, add_comm]

/-- Sums that are never positive stay so under a discount. -/
theorem total_nonpos {a : ℕ → F} {n : ℕ} (h : ∀ j ≤ n, ∑ i ∈ Finset.range j, a i ≤ 0) (d : Discount F) :
    d.total a n ≤ 0 := by
  rw [total_eq_sum_drop]
  refine Finset.sum_nonpos fun i hi => ?_
  exact mul_nonpos_of_nonneg_of_nonpos (d.drop_pos n i).le (h (i + 1) (Finset.mem_range.mp hi))

theorem total_neg {a : ℕ → F} {n : ℕ} (h : ∀ j ≤ n, ∑ i ∈ Finset.range j, a i ≤ 0)
    (hneg : ∃ j ≤ n, ∑ i ∈ Finset.range j, a i < 0) (d : Discount F) : d.total a n < 0 := by
  obtain ⟨j, hj, hsum⟩ := hneg
  -- an empty sum is not negative, so `j` is behind some place
  obtain ⟨i, rfl⟩ : ∃ i, j = i + 1 := by
    cases j with
    | zero => exact absurd hsum (lt_irrefl 0)
    | succ i => exact ⟨i, rfl⟩
  rw [total_eq_sum_drop]
  refine Finset.sum_neg' (fun i hi => ?_) ⟨i, Finset.mem_range.mpr hj, ?_⟩
  · exact mul_nonpos_of_nonneg_of_nonpos (d.drop_pos n i).le (h (i + 1) (Finset.mem_range.mp hi))
  · exact mul_neg_of_pos_of_neg (d.drop_pos n i) hsum

/-! ## A discount close to a cut -/

/-- Nearly one before a place and nearly zero from it on. -/
def near (cut : ℕ) (ε : F) (hε : 0 < ε) : Discount F where
  weight i := (if i < cut then 1 else 0) + ε / (i + 1)
  pos i := by
    have hshare : 0 < ε / (i + 1) := by positivity
    split
    · linarith
    · linarith
  strictAnti i k hik := by
    have hcast : (i : F) + 1 < k + 1 := by exact_mod_cast Nat.succ_lt_succ hik
    have hshare : ε / (k + 1) < ε / (i + 1) := div_lt_div_of_pos_left hε (by positivity) hcast
    have hstep : (if k < cut then 1 else 0 : F) ≤ if i < cut then 1 else 0 := by
      by_cases hk : k < cut
      · rw [if_pos hk, if_pos (hik.trans hk)]
      · rw [if_neg hk]
        split
        · exact zero_le_one
        · exact le_rfl
    exact add_lt_add_of_le_of_lt hstep hshare

theorem total_near {a : ℕ → F} {n cut : ℕ} (hcut : cut ≤ n) (ε : F) (hε : 0 < ε) :
    (near cut ε hε).total a n =
      (∑ i ∈ Finset.range cut, a i) + ε * ∑ i ∈ Finset.range n, a i / (i + 1) := by
  have hterm : ∀ i ∈ Finset.range n, (near cut ε hε).weight i * a i =
      (if i < cut then a i else 0) + ε * (a i / (i + 1)) := by
    intro i hi
    show ((if i < cut then 1 else 0) + ε / (i + 1)) * a i = _
    rw [add_mul, ite_mul, one_mul, zero_mul, div_mul_eq_mul_div, mul_div_assoc]
  rw [total, Finset.sum_congr rfl hterm, Finset.sum_add_distrib, sum_before hcut, Finset.mul_sum]

/-- A sum that is positive somewhere is positive under some discount. -/
theorem exists_total_pos {a : ℕ → F} {n cut : ℕ} (hcut : cut ≤ n) (h : 0 < ∑ i ∈ Finset.range cut, a i) :
    ∃ d : Discount F, 0 < d.total a n := by
  obtain ⟨rest, hrest⟩ : ∃ rest, rest = ∑ i ∈ Finset.range n, a i / ((i : F) + 1) := ⟨_, rfl⟩
  have hbound : (0 : F) < |rest| + 1 := by positivity
  refine ⟨near cut ((∑ i ∈ Finset.range cut, a i) / (|rest| + 1)) (div_pos h hbound), ?_⟩
  rw [total_near hcut, ← hrest, div_mul_eq_mul_div, ← mul_one_div, mul_assoc, ← mul_one_add]
  refine mul_pos h ?_
  have habs := neg_abs_le rest
  rw [mul_one_div, ← neg_lt_iff_pos_add', lt_div_iff₀ hbound]
  linarith

/-- **Which sums are not positive under every discount.** -/
theorem forall_total_nonpos_iff (a : ℕ → F) (n : ℕ) :
    (∀ d : Discount F, d.total a n ≤ 0) ↔ ∀ j ≤ n, ∑ i ∈ Finset.range j, a i ≤ 0 := by
  constructor
  · intro h j hj
    refine not_lt.mp fun hpos => ?_
    obtain ⟨d, hd⟩ := exists_total_pos hj hpos
    exact absurd (h d) (not_le.mpr hd)
  · exact total_nonpos

/-- **Which sums are negative under every discount.** -/
theorem forall_total_neg_iff (a : ℕ → F) (n : ℕ) :
    (∀ d : Discount F, d.total a n < 0) ↔
      (∀ j ≤ n, ∑ i ∈ Finset.range j, a i ≤ 0) ∧ ∃ j ≤ n, ∑ i ∈ Finset.range j, a i < 0 := by
  constructor
  · intro h
    have hsums := (forall_total_nonpos_iff a n).mp fun d => (h d).le
    refine ⟨hsums, ?_⟩
    by_contra hnone
    -- all sums are zero, and so is every discounted one
    have hzero : ∀ j ≤ n, ∑ i ∈ Finset.range j, a i = 0 := fun j hj =>
      le_antisymm (hsums j hj) (not_lt.mp fun hneg => hnone ⟨j, hj, hneg⟩)
    have htotal := h (near 0 1 one_pos)
    rw [total_eq_sum_drop] at htotal
    refine absurd htotal (not_lt.mpr (Finset.sum_nonneg fun i hi => ?_))
    rw [hzero (i + 1) (Finset.mem_range.mp hi), mul_zero]
  · rintro ⟨hsums, hneg⟩
    exact total_neg hsums hneg

end Ordered

end Discount
