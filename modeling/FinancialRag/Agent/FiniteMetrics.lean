/-
  **When the metrics tool answers, and answers with a finite number.**

  Two things go wrong.  `decimal.Overflow` and the `OverflowError` of `math.pow` are not among the
  exceptions `execute` catches; and only CAGR checks its result: growth rate, margin and ratio answer with
  a NaN or an infinity where a decimal is one, or is out of the range of a float.

  Everything is read off the code through one rule, `PyList.settles_bind`: a sequence settles when what
  follows settles on the results of its first part (`settles_calculate`).
-/
import FinancialRag.Agent.FinancialMetricsTool
import FinancialRag.Lib.PyList

set_option linter.unusedVariables false

namespace FinancialRag.Agent.FinancialMetricsTool

open FloatFormat (binary64 decimal28)
open PyList (Settles settles_ok settles_error settles_bind settles_ite)

/-! ## What arithmetic settles to -/

/-- `execute` catches it. -/
def Caught (e : PyException) : Prop := isCaught e = true

/-- A float that rounds to a finite float. -/
def Rounds (digits : Nat) (x : Double) : Prop := Settles Caught (x.roundTo digits) fun rounded => rounded.isFinite = true

/-- A float as arithmetic computes one. -/
def Computed (x : Double) : Prop := x = .nan ∨ (∃ s, x = .infinity s) ∨ x = .negativeZero ∨ ∃ q, x = .ofRat q

/-- **Rounding keeps a float finite, and does not make it so.** -/
theorem rounds_iff_isFinite {digits : Nat} {x : Double} (hx : Computed x) :
    Rounds digits x ↔ x.isFinite = true := by
  unfold Rounds
  rcases hx with rfl | ⟨s, rfl⟩ | rfl | ⟨q, rfl⟩
  · exact settles_ok
  · exact settles_ok
  · exact settles_ok
  · by_cases hover : binary64.Overflows q
    · have hinf : Double.ofRat q = .infinity (decide (q < 0)) := if_pos hover
      rw [hinf]
      exact settles_ok
    · obtain ⟨x, hx, hfinite⟩ := Double.roundTo_ofRat hover digits
      rw [hx]
      exact iff_of_true (settles_ok.mpr hfinite) ((Double.isFinite_ofRat q).mpr hover)

theorem settles_finish {q : ℚ} {P : Decimal → Prop} :
    Settles Caught (Decimal.finish q) P ↔ ¬ decimal28.Overflows q ∧ P (.finite (decimal28.round q)) := by
  unfold Decimal.finish
  rw [settles_ite, settles_ok, settles_error]
  constructor
  · rintro ⟨hover, hok⟩
    have hnot : ¬ decimal28.Overflows q := fun h => Bool.false_ne_true (hover h)
    exact ⟨hnot, hok hnot⟩
  · rintro ⟨hnot, hP⟩
    exact ⟨fun h => absurd h hnot, fun _ => hP⟩

/-- Every decimal but a signaling NaN is a float. -/
theorem exists_toFloat {d : Decimal} (h : d.isSignaling = false) : ∃ x, d.toFloat = .ok x := by
  cases d with
  | finite q => exact ⟨_, rfl⟩
  | infinity s => exact ⟨_, rfl⟩
  | nan signaling =>
    cases signaling with
    | true => cases h
    | false => exact ⟨_, rfl⟩

/-- The inputs of a report are floats. -/
theorem settles_report {value : Double} {unit : String} {inputs : List (String × Decimal)} {digits : Nat}
    (hinputs : ∀ input ∈ inputs, input.2.isSignaling = false) :
    Settles Caught (report value unit inputs) (fun c => Rounds digits c.value) ↔ Rounds digits value := by
  have hall : ∀ input ∈ inputs, ∃ y : String × Double,
      (do return (input.1, ← input.2.toFloat) : Except PyException (String × Double)) = .ok y := by
    intro input hinput
    obtain ⟨x, hx⟩ := exists_toFloat (hinputs input hinput)
    exact ⟨(input.1, x), by rw [hx]; rfl⟩
  obtain ⟨floats, hfloats⟩ := PyList.exists_mapM_eq_ok hall
  unfold report
  rw [hfloats]
  exact settles_ok

/-- **A decimal result is answered with when it is finite and in the range of a float.** -/
theorem settles_answer {result : Decimal} {unit : String} {inputs : List (String × Decimal)} {digits : Nat}
    (hresult : result.isSignaling = false) (hinputs : ∀ input ∈ inputs, input.2.isSignaling = false) :
    Settles Caught (result.toFloat >>= fun value => report value unit inputs) (fun c => Rounds digits c.value) ↔
      ∃ q, result = .finite q ∧ ¬ binary64.Overflows q := by
  rw [settles_bind]
  cases result with
  | finite q =>
    rw [Decimal.toFloat, settles_ok, settles_report hinputs,
      rounds_iff_isFinite (.inr (.inr (.inr ⟨q, rfl⟩))), Double.isFinite_ofRat]
    simp
  | infinity s =>
    rw [Decimal.toFloat, settles_ok, settles_report hinputs,
      rounds_iff_isFinite (.inr (.inl ⟨s, rfl⟩))]
    simp [Double.isFinite]
  | nan signaling =>
    cases signaling with
    | true => cases hresult
    | false =>
      rw [Decimal.toFloat, settles_ok, settles_report hinputs, rounds_iff_isFinite (.inl rfl)]
      simp [Double.isFinite]

/-! ## Growth rate, margin and ratio -/

/-- A value times 100 is in the range of the context and of a float. -/
def PercentInRange (q : ℚ) : Prop := ¬ decimal28.Overflows (q * 100) ∧ ¬ binary64.Overflows (decimal28.round (q * 100))

/-- The steps of a growth rate stay in range; a previous value so small that its magnitude rounds to zero is
    divided by, and caught. -/
def GrowthInRange (current previous : ℚ) : Prop :=
  ¬ decimal28.Overflows (current - previous) ∧ ¬ decimal28.Overflows |previous| ∧
    (decimal28.round |previous| = 0 ∨
      ¬ decimal28.Overflows (decimal28.round (current - previous) / decimal28.round |previous|) ∧
      PercentInRange (decimal28.round (decimal28.round (current - previous) / decimal28.round |previous|)))

/-- **When a growth rate is answered well.** -/
def GrowthAnswers (current previous : Decimal) : Prop :=
  current.isSignaling = true ∨ previous.isSignaling = true ∨ previous = .finite 0 ∨
    (current.isNan = false ∧ ∃ s, previous = .infinity s) ∨
    ∃ x y, current = .finite x ∧ previous = .finite y ∧ GrowthInRange x y

/-- The check for a zero. -/
theorem settles_unless_zero {α : Type} {d : Decimal} {message : String} {rest : Except PyException α}
    {P : α → Prop} :
    Settles Caught (d.isZero >>= fun zero => if zero then .error (.valueError message) else rest) P ↔
      d.isSignaling = true ∨ d = .finite 0 ∨ Settles Caught rest P := by
  rw [settles_bind]
  cases d with
  | finite q =>
    by_cases hq : q = 0
    · subst hq
      exact iff_of_true (settles_ok.mpr (settles_error.mpr rfl)) (.inr (.inl rfl))
    · have hzero : Decimal.isZero (.finite q) = .ok false := congrArg Except.ok (decide_eq_false hq)
      rw [hzero, settles_ok, if_neg Bool.false_ne_true]
      simp [Decimal.isSignaling, hq]
  | infinity s =>
    have hzero : Decimal.isZero (.infinity s) = .ok false := rfl
    rw [hzero, settles_ok, if_neg Bool.false_ne_true]
    simp [Decimal.isSignaling]
  | nan signaling =>
    cases signaling with
    | true => exact iff_of_true (settles_error.mpr rfl) (.inl rfl)
    | false =>
      have hzero : Decimal.isZero (.nan false) = .ok false := rfl
      rw [hzero, settles_ok, if_neg Bool.false_ne_true]
      simp [Decimal.isSignaling]

/-- A signaling NaN is caught by the first operation. -/
theorem withNan_signaling {a b : Decimal} {op : Except PyException Decimal}
    (h : a.isSignaling = true ∨ b.isSignaling = true) : Decimal.withNan a b op = .error .invalidOperation := by
  unfold Decimal.withNan
  rw [if_pos ((Bool.or_eq_true _ _).mpr h)]

/-- A quiet NaN goes through. -/
theorem withNan_quiet {a b : Decimal} {op : Except PyException Decimal} (ha : a.isSignaling = false)
    (hb : b.isSignaling = false) (h : a = .nan false ∨ b = .nan false) :
    Decimal.withNan a b op = .ok (.nan false) := by
  have hnan : (a.isNan || b.isNan) = true := by
    rcases h with rfl | rfl
    · rfl
    · rw [Bool.or_eq_true]
      exact .inr rfl
  unfold Decimal.withNan
  rw [ha, hb, Bool.or_self, if_neg Bool.false_ne_true, if_pos hnan]

section Percent

variable {digits : Nat} {unit : String} {inputs : List (String × Decimal)}
  (hinputs : ∀ input ∈ inputs, input.2.isSignaling = false)

include hinputs

/-- A quotient in percent. -/
theorem settles_percent {quotient : Decimal} (hquotient : quotient.isSignaling = false) :
    Settles Caught (quotient.mul (.finite 100) >>= fun result => result.toFloat >>= fun value =>
      report value unit inputs) (fun c => Rounds digits c.value) ↔
      ∃ q, quotient = .finite q ∧ PercentInRange q := by
  rw [settles_bind]
  cases quotient with
  | finite q =>
    have hmul : Decimal.mul (.finite q) (.finite 100) = Decimal.finish (q * 100) := rfl
    rw [hmul, settles_finish, settles_answer rfl hinputs]
    simp [PercentInRange]
  | infinity s =>
    have hmul : Decimal.mul (.infinity s) (.finite 100) = .ok (.infinity (s != decide ((100 : ℚ) < 0))) := rfl
    rw [hmul, settles_ok, settles_answer rfl hinputs]
    simp
  | nan signaling =>
    cases signaling with
    | true => cases hquotient
    | false =>
      have hmul : Decimal.mul (.nan false) (.finite 100) = .ok (.nan false) := rfl
      rw [hmul, settles_ok, settles_answer rfl hinputs]
      simp

/-- A difference that is no number is divided to none, and answered with. -/
theorem not_settles_special {difference previous : Decimal}
    (habs : ∀ e, previous.abs = .error e → ¬ Caught e)
    (hdiv : ∀ size, previous.abs = .ok size → ∃ quotient, difference.div size = .ok quotient ∧
      quotient.isSignaling = false ∧ ∀ q, quotient ≠ .finite q) :
    ¬ Settles Caught (previous.abs >>= fun size => difference.div size >>= fun quotient =>
      quotient.mul (.finite 100) >>= fun result => result.toFloat >>= fun value => report value unit inputs)
      (fun c => Rounds digits c.value) := by
  rw [settles_bind]
  cases hsize : previous.abs with
  | error e =>
    rw [settles_error]
    exact habs e hsize
  | ok size =>
    obtain ⟨quotient, hquotient, hsignaling, hne⟩ := hdiv size hsize
    rw [settles_ok, settles_bind, hquotient, settles_ok, settles_percent hinputs hsignaling]
    rintro ⟨q, hq, -⟩
    exact hne q hq

end Percent

theorem abs_not_caught {d : Decimal} (hd : d.isSignaling = false) {e : PyException} (h : d.abs = .error e) :
    ¬ Caught e := by
  cases d with
  | finite q =>
    have hfinish : Decimal.finish |q| = .error e := h
    unfold Decimal.finish at hfinish
    split at hfinish
    · obtain rfl := Except.error.inj hfinish
      exact Bool.false_ne_true
    · cases hfinish
  | infinity s => cases h
  | nan signaling =>
    cases signaling with
    | true => cases hd
    | false => cases h

theorem abs_not_signaling {d size : Decimal} (h : d.abs = .ok size) : size.isSignaling = false := by
  cases d with
  | finite q =>
    have hfinish : Decimal.finish |q| = .ok size := h
    unfold Decimal.finish at hfinish
    split at hfinish
    · cases hfinish
    · obtain rfl := Except.ok.inj hfinish
      rfl
  | infinity s =>
    obtain rfl := Except.ok.inj h
    rfl
  | nan signaling =>
    cases signaling with
    | true => cases h
    | false =>
      obtain rfl := Except.ok.inj h
      rfl

/-- A signaling NaN is no input of a report. -/
theorem not_signaling_inputs {a b : Decimal} (ha : a.isSignaling = false) (hb : b.isSignaling = false)
    (first second : String) : ∀ input ∈ [(first, a), (second, b)], input.2.isSignaling = false := by
  intro input hinput
  rcases List.mem_cons.mp hinput with rfl | hinput
  · exact ha
  · obtain rfl := List.mem_singleton.mp hinput
    exact hb

/-- **A growth rate settles exactly when it is answered well.** -/
theorem settles_growthRate (digits : Nat) (current previous : Decimal) :
    Settles Caught (growthRate current previous) (fun c => Rounds digits c.value) ↔
      GrowthAnswers current previous := by
  unfold growthRate GrowthAnswers
  rw [settles_unless_zero]
  by_cases hprevious : previous.isSignaling = true
  · exact iff_of_true (.inl hprevious) (.inr (.inl hprevious))
  by_cases hcurrent : current.isSignaling = true
  · refine iff_of_true (.inr (.inr ?_)) (.inl hcurrent)
    unfold Decimal.sub
    rw [settles_bind, withNan_signaling (.inl hcurrent)]
    exact settles_error.mpr rfl
  by_cases hzero : previous = .finite 0
  · exact iff_of_true (.inr (.inl hzero)) (.inr (.inr (.inl hzero)))
  simp only [hprevious, hcurrent, hzero, Bool.false_eq_true, false_or]
  rw [Bool.not_eq_true] at hprevious hcurrent
  have hinputs := not_signaling_inputs hcurrent hprevious "current" "previous"
  rw [settles_bind]
  by_cases hquiet : current = .nan false ∨ previous = .nan false
  · -- a quiet NaN goes through to the answer
    unfold Decimal.sub
    rw [withNan_quiet hcurrent hprevious hquiet, settles_ok]
    refine iff_of_false (not_settles_special hinputs (fun e he => abs_not_caught hprevious he) ?_) ?_
    · intro size hsize
      refine ⟨.nan false, ?_, rfl, by simp⟩
      unfold Decimal.div
      exact withNan_quiet rfl (abs_not_signaling hsize) (.inl rfl)
    · rintro (⟨hnan, s, rfl⟩ | ⟨x, y, rfl, rfl, -⟩)
      · rcases hquiet with rfl | habs
        · cases hnan
        · cases habs
      · rcases hquiet with habs | habs <;> cases habs
  obtain ⟨hnotCurrent, hnotPrevious⟩ := not_or.mp hquiet
  rcases previous with y | t | signaling
  · have hy : y ≠ 0 := fun h => hzero (h ▸ rfl)
    rcases current with x | s | signaling
    · -- two numbers: every step rounds
      have hsub : Decimal.sub (.finite x) (.finite y) = Decimal.finish (x - y) := rfl
      have habs : Decimal.abs (.finite y) = Decimal.finish |y| := rfl
      have hdiv : ∀ d z, Decimal.div (.finite d) (.finite z) =
          if z = 0 then if d = 0 then .error .invalidOperation else .error .zeroDivisionError
          else Decimal.finish (d / z) := fun d z => rfl
      have hrhs : ((Decimal.finite x).isNan = false ∧ ∃ s, Decimal.finite y = .infinity s) ∨
          (∃ x' y', Decimal.finite x = .finite x' ∧ Decimal.finite y = .finite y' ∧ GrowthInRange x' y') ↔
          GrowthInRange x y := by simp
      rw [hsub, settles_finish, settles_bind, habs, settles_finish, settles_bind, hdiv, hrhs]
      refine and_congr_right fun _ => and_congr_right fun _ => ?_
      by_cases hsize : decimal28.round |y| = 0
      · rw [if_pos hsize]
        refine iff_of_true ?_ (.inl hsize)
        split <;> exact settles_error.mpr rfl
      · rw [if_neg hsize, settles_finish, settles_percent hinputs rfl, or_iff_right hsize]
        simp
    · -- an infinity stays one
      have hsub : Decimal.sub (.infinity s) (.finite y) = .ok (.infinity s) := rfl
      rw [hsub, settles_ok]
      refine iff_of_false (not_settles_special hinputs (fun e he => abs_not_caught hprevious he) ?_) (by simp)
      intro size hsize
      have hfinish : Decimal.finish |y| = .ok size := hsize
      unfold Decimal.finish at hfinish
      split at hfinish
      · cases hfinish
      · obtain rfl := Except.ok.inj hfinish
        exact ⟨_, rfl, rfl, by simp⟩
    · cases signaling with
      | true => cases hcurrent
      | false => exact absurd rfl hnotCurrent
  · -- infinite: the division is invalid
    have habs : Decimal.abs (.infinity t) = .ok (.infinity false) := rfl
    rcases current with x | s | signaling
    · have hsub : Decimal.sub (.finite x) (.infinity t) = .ok (.infinity (!t)) := rfl
      have hdiv : Decimal.div (.infinity (!t)) (.infinity false) = .error .invalidOperation := rfl
      rw [hsub, settles_ok, settles_bind, habs, settles_ok, settles_bind, hdiv]
      exact iff_of_true (settles_error.mpr rfl) (.inl ⟨rfl, t, rfl⟩)
    · have hsub : Decimal.sub (.infinity s) (.infinity t) =
          if s = t then .error .invalidOperation else .ok (.infinity s) := rfl
      have hdiv : Decimal.div (.infinity s) (.infinity false) = .error .invalidOperation := rfl
      refine iff_of_true ?_ (.inl ⟨rfl, t, rfl⟩)
      rw [hsub]
      split
      · exact settles_error.mpr rfl
      · rw [settles_ok, settles_bind, habs, settles_ok, settles_bind, hdiv]
        exact settles_error.mpr rfl
    · cases signaling with
      | true => cases hcurrent
      | false => exact absurd rfl hnotCurrent
  · cases signaling with
    | true => cases hprevious
    | false => exact absurd rfl hnotPrevious

/-- The steps of a quotient stay in range, `InRange` says of what is made of it. -/
def QuotientAnswers (InRange : ℚ → Prop) (numerator denominator : Decimal) : Prop :=
  numerator.isSignaling = true ∨ denominator.isSignaling = true ∨ denominator = .finite 0 ∨
    (numerator.isNan = false ∧ ∃ s, denominator = .infinity s) ∨
    ∃ x y, numerator = .finite x ∧ denominator = .finite y ∧ ¬ decimal28.Overflows (x / y) ∧
      InRange (decimal28.round (x / y))

/-- What is made of a quotient is answered with when the quotient is a number `InRange`; zero is. -/
structure Scales (digits : Nat) (unit : String) (scale : Decimal → Except PyException Decimal)
    (InRange : ℚ → Prop) : Prop where
  settles : ∀ quotient inputs, quotient.isSignaling = false →
    (∀ input ∈ inputs, input.2.isSignaling = false) →
    (Settles Caught (scale quotient >>= fun result => result.toFloat >>= fun value =>
      report value unit inputs) (fun c => Rounds digits c.value) ↔ ∃ q, quotient = .finite q ∧ InRange q)
  zero : InRange 0

theorem not_overflows_zero (f : FloatFormat) : ¬ f.Overflows 0 := by
  unfold FloatFormat.Overflows
  rw [FloatFormat.round_zero, abs_zero, not_le]
  exact FloatFormat.unit_pos _

theorem scales_margin (digits : Nat) :
    Scales digits "percent" (fun quotient => quotient.mul (.finite 100)) PercentInRange where
  settles quotient inputs hquotient hinputs := settles_percent hinputs hquotient
  zero := by
    unfold PercentInRange
    rw [zero_mul, FloatFormat.round_zero]
    exact ⟨not_overflows_zero _, not_overflows_zero _⟩

theorem scales_ratio (digits : Nat) :
    Scales digits "ratio" .ok fun q => ¬ binary64.Overflows q where
  settles quotient inputs hquotient hinputs := by
    rw [settles_bind, settles_ok]
    exact settles_answer hquotient hinputs
  zero := not_overflows_zero _

/-- **A quotient settles exactly when it is answered well.** -/
theorem settles_quotientMetric {digits : Nat} {unit : String}
    {scale : Decimal → Except PyException Decimal} {InRange : ℚ → Prop}
    (hscale : Scales digits unit scale InRange) (numerator denominator : Decimal) :
    Settles Caught (quotientMetric unit scale numerator denominator) (fun c => Rounds digits c.value) ↔
      QuotientAnswers InRange numerator denominator := by
  unfold quotientMetric QuotientAnswers
  rw [settles_unless_zero]
  by_cases hdenominator : denominator.isSignaling = true
  · exact iff_of_true (.inl hdenominator) (.inr (.inl hdenominator))
  by_cases hnumerator : numerator.isSignaling = true
  · refine iff_of_true (.inr (.inr ?_)) (.inl hnumerator)
    unfold Decimal.div
    rw [settles_bind, withNan_signaling (.inl hnumerator)]
    exact settles_error.mpr rfl
  by_cases hzero : denominator = .finite 0
  · exact iff_of_true (.inr (.inl hzero)) (.inr (.inr (.inl hzero)))
  simp only [hdenominator, hnumerator, hzero, Bool.false_eq_true, false_or]
  rw [Bool.not_eq_true] at hdenominator hnumerator
  have hinputs := not_signaling_inputs hnumerator hdenominator "numerator" "denominator"
  rw [settles_bind]
  by_cases hquiet : numerator = .nan false ∨ denominator = .nan false
  · unfold Decimal.div
    rw [withNan_quiet hnumerator hdenominator hquiet, settles_ok, hscale.settles _ _ rfl hinputs]
    refine iff_of_false (by simp) ?_
    rintro (⟨hnan, s, rfl⟩ | ⟨x, y, rfl, rfl, -⟩)
    · rcases hquiet with rfl | habs
      · cases hnan
      · cases habs
    · rcases hquiet with habs | habs <;> cases habs
  obtain ⟨hnotNumerator, hnotDenominator⟩ := not_or.mp hquiet
  rcases denominator with y | t | signaling
  · have hy : y ≠ 0 := fun h => hzero (h ▸ rfl)
    rcases numerator with x | s | signaling
    · have hdiv : Decimal.div (.finite x) (.finite y) = Decimal.finish (x / y) := if_neg hy
      rw [hdiv, settles_finish, hscale.settles _ _ rfl hinputs]
      simp
    · have hdiv : Decimal.div (.infinity s) (.finite y) = .ok (.infinity (s != decide (y < 0))) := rfl
      rw [hdiv, settles_ok, hscale.settles _ _ rfl hinputs]
      simp
    · cases signaling with
      | true => cases hnumerator
      | false => exact absurd rfl hnotNumerator
  · rcases numerator with x | s | signaling
    · have hdiv : Decimal.div (.finite x) (.infinity t) = .ok (.finite 0) := rfl
      rw [hdiv, settles_ok, hscale.settles _ _ rfl hinputs]
      exact iff_of_true ⟨0, rfl, hscale.zero⟩ (.inl ⟨rfl, t, rfl⟩)
    · have hdiv : Decimal.div (.infinity s) (.infinity t) = .error .invalidOperation := rfl
      rw [hdiv]
      exact iff_of_true (settles_error.mpr rfl) (.inl ⟨rfl, t, rfl⟩)
    · cases signaling with
      | true => cases hnumerator
      | false => exact absurd rfl hnotNumerator
  · cases signaling with
    | true => cases hdenominator
    | false => exact absurd rfl hnotDenominator

/-! ## CAGR -/

/-- A number above zero, or infinity. -/
def Positive (d : Decimal) : Prop := d = .infinity false ∨ ∃ q, d = .finite q ∧ 0 < q

theorem isNonPos_cases (d : Decimal) :
    d.isNonPos = .ok false ∧ Positive d ∨ d.isNonPos = .ok true ∧ ¬ Positive d ∨
      d.isNonPos = .error .invalidOperation ∧ ¬ Positive d := by
  unfold Positive
  cases d with
  | finite q =>
    by_cases hq : q ≤ 0
    · refine .inr (.inl ⟨congrArg Except.ok (decide_eq_true hq), ?_⟩)
      simpa using hq
    · refine .inl ⟨congrArg Except.ok (decide_eq_false hq), .inr ⟨q, rfl, ?_⟩⟩
      linarith
  | infinity negative =>
    cases negative with
    | true => exact .inr (.inl ⟨rfl, by simp⟩)
    | false => exact .inl ⟨rfl, .inl rfl⟩
  | nan signaling => exact .inr (.inr ⟨rfl, by simp⟩)

theorem Positive.not_signaling {d : Decimal} (h : Positive d) : d.isSignaling = false := by
  rcases h with rfl | ⟨q, rfl, -⟩
  · rfl
  · rfl

/-- **When a CAGR is answered**: the quotient is in the range of the context, and the power raises nothing
    but what is caught. -/
def CagrAnswers (E : MathLibrary) (startingValue endingValue periods : Decimal) : Prop :=
  Positive startingValue → Positive endingValue → Positive periods →
    (∀ x y, startingValue = .finite x → endingValue = .finite y → ¬ decimal28.Overflows (y / x)) ∧
    ∀ base exponent, (endingValue.div startingValue >>= Decimal.toFloat) = .ok base →
      (periods.toFloat >>= Double.inverse) = .ok exponent →
      ∀ e, E.pow base exponent = .error e → Caught e

theorem computed_percent (x : Double) : Computed x.minusOne.timesHundred := by
  cases x.minusOne with
  | finite q => exact .inr (.inr (.inr ⟨_, rfl⟩))
  | negativeZero => exact .inr (.inr (.inl rfl))
  | infinity s => exact .inr (.inl ⟨s, rfl⟩)
  | nan => exact .inl rfl

theorem inverse_error {x : Double} {e : PyException} (h : x.inverse = .error e) : Caught e := by
  cases x with
  | finite q =>
    by_cases hq : q = 0
    · have hinv : Double.inverse (.finite q) = .error .zeroDivisionError := if_pos hq
      rw [hinv] at h
      obtain rfl := Except.error.inj h
      rfl
    · have hinv : Double.inverse (.finite q) = .ok (Double.ofRat (1 / q)) := if_neg hq
      rw [hinv] at h
      cases h
  | negativeZero =>
    obtain rfl := Except.error.inj h
    rfl
  | infinity s => cases h
  | nan => cases h

/-- The end of the calculation, from the base of the power on: a result that is not finite is caught. -/
theorem settles_power (E : MathLibrary) {digits : Nat} {base : Double} {periods : Decimal} {message unit : String}
    {inputs : List (String × Decimal)} (hperiods : periods.isSignaling = false)
    (hinputs : ∀ input ∈ inputs, input.2.isSignaling = false) :
    Settles Caught (periods.toFloat >>= fun years => years.inverse >>= fun exponent =>
      E.pow base exponent >>= fun power =>
        if power.minusOne.timesHundred.isFinite = false then .error (.valueError message)
        else report power.minusOne.timesHundred unit inputs) (fun c => Rounds digits c.value) ↔
      ∀ exponent, (periods.toFloat >>= Double.inverse) = .ok exponent →
        ∀ e, E.pow base exponent = .error e → Caught e := by
  obtain ⟨years, hyears⟩ := exists_toFloat hperiods
  rw [hyears, settles_bind, settles_ok, settles_bind, PyList.ok_bind]
  cases hinverse : years.inverse with
  | error e =>
    refine iff_of_true (settles_error.mpr (inverse_error hinverse)) ?_
    intro exponent h
    cases h
  | ok exponent =>
    rw [settles_ok, settles_bind]
    constructor
    · intro h exponent' hexponent e he
      obtain rfl := Except.ok.inj hexponent
      exact h.1 e he
    · intro h
      refine ⟨fun e he => h exponent rfl e he, fun power _ => ?_⟩
      dsimp only
      rw [settles_ite]
      refine ⟨fun _ => settles_error.mpr rfl, fun hfinite => ?_⟩
      rw [settles_report hinputs, rounds_iff_isFinite (computed_percent power)]
      exact (Bool.not_eq_false _).mp hfinite

/-- The check for a number above zero. -/
theorem settles_unless_nonPos {α : Type} {d : Decimal} {message : String} {rest : Except PyException α}
    {P : α → Prop} :
    Settles Caught (d.isNonPos >>= fun nonPos => if nonPos then .error (.valueError message) else rest) P ↔
      (Positive d → Settles Caught rest P) := by
  rw [settles_bind]
  rcases isNonPos_cases d with ⟨hcheck, hd⟩ | ⟨hcheck, hd⟩ | ⟨hcheck, hd⟩
  · rw [hcheck, settles_ok, if_neg Bool.false_ne_true]
    exact (imp_iff_right hd).symm
  · rw [hcheck, settles_ok, if_pos rfl]
    exact iff_of_true (settles_error.mpr rfl) fun h => absurd h hd
  · rw [hcheck]
    exact iff_of_true (settles_error.mpr rfl) fun h => absurd h hd

/-- The quotient of two positive values leaves the context, is invalid, or can be made a float. -/
theorem div_positive {startingValue endingValue : Decimal} (hstarting : Positive startingValue)
    (hending : Positive endingValue) :
    (endingValue.div startingValue = .error .decimalOverflow ∧
        ∃ x y, startingValue = .finite x ∧ endingValue = .finite y ∧ decimal28.Overflows (y / x)) ∨
      (∀ x y, startingValue = .finite x → endingValue = .finite y → ¬ decimal28.Overflows (y / x)) ∧
        (endingValue.div startingValue = .error .invalidOperation ∨
          ∃ quotient, endingValue.div startingValue = .ok quotient ∧ quotient.isSignaling = false) := by
  rcases hstarting with rfl | ⟨x, rfl, hx⟩
  · refine .inr ⟨fun x y h => (by cases h), ?_⟩
    rcases hending with rfl | ⟨y, rfl, hy⟩
    · exact .inl rfl
    · exact .inr ⟨.finite 0, rfl, rfl⟩
  · rcases hending with rfl | ⟨y, rfl, hy⟩
    · exact .inr ⟨fun x y _ h => (by cases h), .inr ⟨_, rfl, rfl⟩⟩
    · have hdiv : Decimal.div (.finite y) (.finite x) = Decimal.finish (y / x) := if_neg hx.ne'
      rw [hdiv, Decimal.finish]
      by_cases hover : decimal28.Overflows (y / x)
      · exact .inl ⟨if_pos hover, x, y, rfl, rfl, hover⟩
      · refine .inr ⟨fun x' y' hx' hy' => ?_, .inr ⟨_, if_neg hover, rfl⟩⟩
        obtain rfl := Decimal.finite.inj hx'
        obtain rfl := Decimal.finite.inj hy'
        exact hover

/-- **A CAGR settles exactly when it is answered well.** -/
theorem settles_cagr (E : MathLibrary) (digits : Nat) (startingValue endingValue periods : Decimal) :
    Settles Caught (cagr E startingValue endingValue periods) (fun c => Rounds digits c.value) ↔
      CagrAnswers E startingValue endingValue periods := by
  unfold cagr CagrAnswers
  rw [settles_bind]
  rcases isNonPos_cases startingValue with ⟨hcheck, hstarting⟩ | ⟨hcheck, hstarting⟩ | ⟨hcheck, hstarting⟩
  · rw [hcheck, settles_ok]
    dsimp only
    rw [if_neg Bool.false_ne_true, settles_unless_nonPos, imp_iff_right hstarting]
    refine forall_congr' fun hending => ?_
    rw [settles_unless_nonPos]
    refine forall_congr' fun hperiods => ?_
    have hinputs : ∀ input ∈ [("starting_value", startingValue), ("ending_value", endingValue),
        ("periods", periods)], input.2.isSignaling = false := by
      intro input hinput
      simp only [List.mem_cons, List.not_mem_nil, or_false] at hinput
      rcases hinput with rfl | rfl | rfl
      · exact hstarting.not_signaling
      · exact hending.not_signaling
      · exact hperiods.not_signaling
    rw [settles_bind]
    rcases div_positive hstarting hending with ⟨hdiv, x, y, hx, hy, hover⟩ |
      ⟨hrange, hdiv | ⟨quotient, hdiv, hquotient⟩⟩
    · rw [hdiv]
      refine iff_of_false (fun h => ?_) fun h => h.1 x y hx hy hover
      exact absurd (settles_error.mp h) Bool.false_ne_true
    · rw [hdiv]
      refine iff_of_true (settles_error.mpr rfl) ⟨hrange, fun base exponent h => ?_⟩
      cases h
    · obtain ⟨base, hbase⟩ := exists_toFloat hquotient
      rw [hdiv, settles_ok, settles_bind, PyList.ok_bind, hbase, settles_ok,
        settles_power E hperiods.not_signaling hinputs, and_iff_right hrange]
      constructor
      · intro h base' exponent hbase'
        obtain rfl := Except.ok.inj hbase'
        exact h exponent
      · exact fun h exponent => h base exponent rfl
  · rw [hcheck, settles_ok]
    exact iff_of_true (settles_error.mpr rfl) fun h => absurd h hstarting
  · rw [hcheck]
    exact iff_of_true (settles_error.mpr rfl) fun h => absurd h hstarting

/-! ## The whole call -/

/-- **When a calculation is answered well**, of the numbers its operation reads. -/
def CalculationAnswers (E : MathLibrary) (operation : String) (parameters : MetricParameters) : Prop :=
  if operation = "growth_rate" then
    ∀ current, metricNumber E parameters "current" = .ok current →
      ∀ previous, metricNumber E parameters "previous" = .ok previous → GrowthAnswers current previous
  else if operation = "margin" then
    ∀ numerator, metricNumber E parameters "numerator" = .ok numerator →
      ∀ denominator, metricNumber E parameters "denominator" = .ok denominator →
        QuotientAnswers PercentInRange numerator denominator
  else if operation = "ratio" then
    ∀ numerator, metricNumber E parameters "numerator" = .ok numerator →
      ∀ denominator, metricNumber E parameters "denominator" = .ok denominator →
        QuotientAnswers (fun q => ¬ binary64.Overflows q) numerator denominator
  else
    ∀ startingValue, metricNumber E parameters "starting_value" = .ok startingValue →
      ∀ endingValue, metricNumber E parameters "ending_value" = .ok endingValue →
        ∀ periods, metricNumber E parameters "periods" = .ok periods →
          CagrAnswers E startingValue endingValue periods

/-- **When a call is answered well**: its operation or its precision is refused, or its calculation is
    answered well. -/
def Answers (E : MathLibrary) (parameters : MetricParameters) : Prop :=
  ∀ operation, operationOf parameters = .ok operation → ∀ precision, precisionOf parameters = .ok precision →
    CalculationAnswers E operation parameters

theorem operationOf_error {parameters : MetricParameters} {e : PyException}
    (h : operationOf parameters = .error e) : Caught e := by
  unfold operationOf at h
  dsimp only at h
  split at h
  · split at h
    · cases h
    · obtain rfl := Except.error.inj h
      rfl
  · obtain rfl := Except.error.inj h
    rfl
  · obtain rfl := Except.error.inj h
    rfl
  · obtain rfl := Except.error.inj h
    rfl

theorem precisionOf_error {parameters : MetricParameters} {e : PyException}
    (h : precisionOf parameters = .error e) : Caught e := by
  unfold precisionOf at h
  split at h
  · split at h
    · cases h
    · obtain rfl := Except.error.inj h
      rfl
  · obtain rfl := Except.error.inj h
    rfl

theorem metricNumber_error {E : MathLibrary} {parameters : MetricParameters} {name : String} {e : PyException}
    (h : metricNumber E parameters name = .error e) : Caught e := by
  unfold metricNumber at h
  split at h
  · split at h
    · cases h
    · obtain rfl := Except.error.inj h
      rfl
  · cases h
  · cases h
  · obtain rfl := Except.error.inj h
    rfl
  · cases h
  · obtain rfl := Except.error.inj h
    rfl

/-- A number is read, or its absence is caught. -/
theorem settles_metricNumber {α : Type} {E : MathLibrary} {parameters : MetricParameters} {name : String}
    {f : Decimal → Except PyException α} {P : α → Prop} :
    Settles Caught (metricNumber E parameters name >>= f) P ↔
      ∀ d, metricNumber E parameters name = .ok d → Settles Caught (f d) P := by
  rw [settles_bind]
  exact and_iff_right fun e h => metricNumber_error h

/-- **A calculation settles exactly when it is answered well.** -/
theorem settles_calculate (E : MathLibrary) (digits : Nat) (operation : String) (parameters : MetricParameters) :
    Settles Caught (calculate E operation parameters) (fun c => Rounds digits c.value) ↔
      CalculationAnswers E operation parameters := by
  unfold calculate CalculationAnswers
  split
  · simp only [settles_metricNumber, settles_growthRate]
  split
  · simp only [settles_metricNumber, margin, settles_quotientMetric (scales_margin digits)]
  split
  · simp only [settles_metricNumber, ratio, settles_quotientMetric (scales_ratio digits)]
  · simp only [settles_metricNumber, settles_cagr]

/-- The body of the `try` settles exactly when the call is answered well. -/
theorem settles_attempt (E : MathLibrary) (parameters : MetricParameters) :
    Settles Caught (attempt E parameters) (fun output => output.value.isFinite = true) ↔ Answers E parameters := by
  unfold attempt Answers
  rw [settles_bind]
  refine (and_iff_right fun e h => operationOf_error h).trans (forall₂_congr fun operation _ => ?_)
  dsimp only
  rw [settles_bind]
  refine (and_iff_right fun e h => precisionOf_error h).trans (forall₂_congr fun precision _ => ?_)
  dsimp only
  rw [settles_bind, ← settles_calculate E precision]
  have hround : ∀ calculation : Calculation, Settles Caught
      (calculation.value.roundTo precision >>= fun rounded => pure
        { operation := operation, value := rounded, unit := calculation.unit, precision := precision,
          inputs := calculation.inputs })
      (fun output : MetricOutput => output.value.isFinite = true) ↔ Rounds precision calculation.value := by
    intro calculation
    rw [settles_bind]
    simp only [pure, Except.pure, settles_ok]
    exact Iff.rfl
  simp only [hround]

/-- `execute` returns exactly where the body of its `try` settles. -/
theorem execute_iff_settles (E : MathLibrary) (parameters : MetricParameters) {P : MetricOutput → Prop} :
    (∃ result, execute E parameters = .ok result ∧ ∀ output, result = .success output → P output) ↔
      Settles Caught (attempt E parameters) P := by
  unfold execute
  cases attempt E parameters with
  | ok output =>
    rw [settles_ok]
    constructor
    · rintro ⟨result, hresult, h⟩
      obtain rfl := Except.ok.inj hresult
      exact h output rfl
    · intro h
      refine ⟨_, rfl, fun output' houtput => ?_⟩
      obtain rfl := MetricResult.success.inj houtput
      exact h
  | error e =>
    rw [settles_error]
    constructor
    · rintro ⟨result, hresult, -⟩
      by_contra hcaught
      have hraised : ¬ isCaught e = true := hcaught
      change (if isCaught e then Except.ok (.failed e) else .error e) = .ok result at hresult
      rw [if_neg hraised] at hresult
      cases hresult
    · intro hcaught
      exact ⟨.failed e, if_pos hcaught, fun output houtput => (by cases houtput)⟩

/-- The parameters of an operation on named numbers. -/
def callOf (operation : String) (numbers : List (String × MetricParameter)) : MetricParameters := fun name =>
  if name = "operation" then some (.str operation) else numbers.lookup name

/-- The library of the calls below: the one power they take is 10 to the 1000, which overflows. -/
def sampleLibrary : MathLibrary where
  repr q := q
  pow
    | .finite base, .finite exponent =>
      if 10 ≤ base ∧ 309 ≤ exponent then .error .overflowError else .ok (.finite 1)
    | _, _ => .ok .nan

/-- A ratio out of the range of the context is raised. -/
theorem ratio_overflows (E : MathLibrary) {x y : ℚ} (hy : y ≠ 0) (h : decimal28.Overflows (x / y)) :
    execute E (callOf "ratio" [("numerator", .decimal (.finite x)), ("denominator", .decimal (.finite y))]) =
      .error .decimalOverflow := by
  have hdiv : Decimal.div (.finite x) (.finite y) = .error .decimalOverflow := (if_neg hy).trans (if_pos h)
  have hzero : Decimal.isZero (.finite y) = .ok false := congrArg Except.ok (decide_eq_false hy)
  have hratio : ratio (.finite x) (.finite y) = .error .decimalOverflow := by
    unfold ratio quotientMetric
    rw [hzero, PyList.ok_bind, if_neg Bool.false_ne_true, hdiv]
    rfl
  have hcalculate : calculate E "ratio"
      (callOf "ratio" [("numerator", .decimal (.finite x)), ("denominator", .decimal (.finite y))]) =
      ratio (.finite x) (.finite y) := by
    unfold calculate
    rw [if_neg (by decide), if_neg (by decide), if_pos rfl]
    rfl
  have hattempt : attempt E
      (callOf "ratio" [("numerator", .decimal (.finite x)), ("denominator", .decimal (.finite y))]) =
      (calculate E "ratio" (callOf "ratio" [("numerator", .decimal (.finite x)),
        ("denominator", .decimal (.finite y))]) >>= fun calculation =>
        calculation.value.roundTo 4 >>= fun rounded => pure
          { operation := "ratio", value := rounded, unit := calculation.unit, precision := 4,
            inputs := calculation.inputs }) := rfl
  unfold execute
  rw [hattempt, hcalculate, hratio]
  rfl

end FinancialRag.Agent.FinancialMetricsTool
