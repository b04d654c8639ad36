/-
  **Which numbers a metric question is read with.**

  A number has many successes: with its decimal part or without, with fewer thousands groups, with fewer
  digits.  The first is the numeric token that `findall` reports at the same place.  A later one stands
  before a digit, a comma or a point (`Shape`), so that a pattern reads the WHOLE token wherever something
  else must follow.

  The English patterns for growth, margin and ratio end in a word boundary, and a boundary stands before
  a point and before a comma too: where a word character follows the last token, they read the token
  without its decimal part, or without its last thousands group.
-/
import FinancialRag.Agent.FinancialMetricParser
import FinancialRag.Lib.PyList

set_option linter.unusedVariables false

namespace FinancialRag.Agent

open FinancialRag.Retrieval

variable {T : PyText} {n : Nat}

/-! ## Characters of a number -/

/-- A character that a number may have. -/
def TokenChar (T : PyText) (x : Char) : Prop := T.isDecimal x = true ∨ "-+,.".toList.contains x = true

/-- A digit stands at this place. -/
def DigitAt (T : PyText) (s : List Char) (i : Nat) : Prop := ∃ x, s[i]? = some x ∧ T.isDecimal x = true

theorem DigitAt.drop {s : List Char} {k i : Nat} (h : DigitAt T (s.drop k) i) : DigitAt T s (k + i) := by
  obtain ⟨x, hx, hdigit⟩ := h
  exact ⟨x, by rw [← List.getElem?_drop, hx], hdigit⟩

theorem not_tokenChar_of_space (hT : T.Numeric) {x : Char} (hx : T.isSpace x = true) : ¬ TokenChar T x := by
  rintro (hdecimal | hpunctuation)
  · have hword := hT.space_word x hx
    rw [hT.decimal_word x hdecimal] at hword
    cases hword
  · rw [hT.punctuation_space x hpunctuation] at hx
    cases hx

/-- The digits at the head of a text. -/
def run (T : PyText) (s : List Char) : Nat := (s.takeWhile T.isDecimal).length

theorem digitAt_of_lt_run {s : List Char} {i : Nat} (hi : i < run T s) : DigitAt T s i := by
  have hmem : (s.takeWhile T.isDecimal)[i] ∈ s.takeWhile T.isDecimal := List.getElem_mem hi
  refine ⟨_, ?_, List.mem_takeWhile_imp hmem⟩
  conv_lhs => rw [← List.takeWhile_append_dropWhile (p := T.isDecimal) (l := s)]
  rw [List.getElem?_append_left hi, List.getElem?_eq_getElem hi]

/-! ## The lengths of a number -/

theorem lengths_digits (s : List Char) : (Re.rep T.isDecimal 1 none true).lengths s = Re.countdown (run T s) :=
  Re.lengths_rep_one _ _ _

theorem lengths_leadingDigits (s : List Char) :
    (Re.rep T.isDecimal 1 (some 3) true).lengths s = Re.countdown (min 3 (run T s)) :=
  Re.lengths_rep_one _ _ _

/-- A thousands group is there or not. -/
theorem lengths_thousands (s : List Char) :
    (thousands T).lengths s = [] ∨
      (thousands T).lengths s = [4] ∧ s[0]? = some ',' ∧ DigitAt T s 3 := by
  cases s with
  | nil => exact .inl rfl
  | cons x xs =>
    by_cases hx : x = ','
    · subst hx
      have hthree : (Re.rep T.isDecimal 3 (some 3) true).lengths xs =
          if 3 ≤ run T xs then [3] else [] := by
        show ((List.range (min 3 (run T xs) + 1)).filter fun k => decide (3 ≤ k)).reverse = _
        split
        · rename_i hrun
          rw [Nat.min_eq_left hrun]
          rfl
        · rename_i hrun
          rw [List.reverse_eq_nil_iff, List.filter_eq_nil_iff]
          intro k hk
          have hlt := List.mem_range.mp hk
          simp only [decide_eq_true_eq]
          omega
      have hgroup : (thousands T).lengths (',' :: xs) =
          ((Re.rep T.isDecimal 3 (some 3) true).lengths xs).map (1 + ·) := by
        show [1].flatMap _ = _
        rw [List.flatMap_singleton]
        rfl
      rw [hgroup, hthree]
      split
      · rename_i hrun
        refine .inr ⟨rfl, rfl, ?_⟩
        obtain ⟨d, hd, hdigit⟩ := digitAt_of_lt_run (T := T) (s := xs) (i := 2) hrun
        exact ⟨d, hd, hdigit⟩
      · exact .inl rfl
    · refine .inl ?_
      have hhead : ((x :: xs).head?.any (· == ',')) = false := by simpa using hx
      unfold thousands Re.lengths
      rw [Re.lengths, hhead]
      rfl

/-- Several groups, then one group less, down to none. -/
theorem lengths_upTo_thousands (n : Nat) (s : List Char) :
    ∃ g, ((thousands T).upTo n).lengths s = (Re.countdown g).map (4 * ·) ++ [0] ∧
      ∀ j < g, s[4 * j]? = some ',' ∧ DigitAt T s (4 * j + 3) := by
  induction n generalizing s with
  | zero => exact ⟨0, rfl, by omega⟩
  | succ n ih =>
    rw [Re.upTo, Re.lengths_alt, Re.lengths_seq]
    rcases lengths_thousands (T := T) s with hnone | ⟨hone, hcomma, hdigit⟩
    · exact ⟨0, by rw [hnone]; rfl, by omega⟩
    · obtain ⟨g, hg, hgroups⟩ := ih (s.drop 4)
      refine ⟨g + 1, ?_, ?_⟩
      · rw [hone, List.flatMap_singleton, hg, ← Re.countdown_succ, List.map_append, List.map_append,
          List.map_map, List.map_map]
        congr 2
        refine List.map_congr_left fun k _ => ?_
        show 4 + 4 * k = 4 * (k + 1)
        omega
      · intro j hj
        cases j with
        | zero => exact ⟨hcomma, hdigit⟩
        | succ j =>
          obtain ⟨hcomma', hdigit'⟩ := hgroups j (by omega)
          rw [List.getElem?_drop] at hcomma'
          refine ⟨?_, ?_⟩
          · rw [← hcomma']
            congr 1
            omega
          · obtain ⟨x, hx, hdecimal⟩ := hdigit'.drop
            refine ⟨x, ?_, hdecimal⟩
            rw [← hx]
            congr 1
            omega

/-- At least one group. -/
theorem lengths_groups (n : Nat) (s : List Char) :
    ∃ g, (Re.seq (thousands T) ((thousands T).upTo n)).lengths s = (Re.countdown g).map (4 * ·) ∧
      (∀ j < g, s[4 * j]? = some ',' ∧ DigitAt T s (4 * j + 3)) ∧
      (s[0]? ≠ some ',' → g = 0) := by
  obtain ⟨g, hg, hgroups⟩ := lengths_upTo_thousands (T := T) (n + 1) s
  refine ⟨g, ?_, hgroups, ?_⟩
  · have hlast : ((Re.seq (thousands T) ((thousands T).upTo n)).lengths s) ++ [0] =
        (Re.countdown g).map (4 * ·) ++ [0] := hg
    exact List.append_cancel_right hlast
  · intro hcomma
    by_contra hpos
    exact hcomma (hgroups 0 (by omega)).1

theorem flatMap_countdown {α : Type} {f : Nat → List α} {m : Nat} (h : ∀ k, 0 < k → k < m → f k = []) :
    (Re.countdown m).flatMap f = if 0 < m then f m else [] := by
  cases m with
  | zero => rfl
  | succ m =>
    have hrest : (Re.countdown m).flatMap f = [] := by
      rw [List.flatMap_eq_nil_iff]
      intro k hk
      obtain ⟨hpos, hle⟩ := Re.mem_countdown.mp hk
      exact h k hpos (by omega)
    rw [Re.countdown, List.flatMap_cons, hrest, List.append_nil]
    rfl

/-- Punctuation is no digit. -/
theorem not_decimal_of_punctuation (hT : T.Numeric) {x : Char} (hx : "-+,.".toList.contains x = true) :
    T.isDecimal x = false := by
  by_contra hdecimal
  have hword := hT.punctuation_word x hx
  rw [hT.decimal_word x ((Bool.not_eq_false _).mp hdecimal)] at hword
  cases hword

theorem DigitAt.ne_of_punctuation (hT : T.Numeric) {s : List Char} {i : Nat} {x : Char}
    (h : DigitAt T s i) (hx : "-+,.".toList.contains x = true) : s[i]? ≠ some x := by
  obtain ⟨y, hy, hdigit⟩ := h
  intro heq
  rw [hy] at heq
  obtain rfl := Option.some.inj heq
  rw [not_decimal_of_punctuation hT hx] at hdigit
  cases hdigit

/-- **The lengths of an integer part**: its digits with all their thousands groups, with one group less,
    …, the digits alone, with one digit less, …, one digit. -/
theorem lengths_integerPart (hT : T.Numeric) (n : Nat) (s : List Char) :
    ∃ g, (integerPart T n).lengths s =
        (Re.countdown g).map (fun j => run T s + 4 * j) ++ Re.countdown (run T s) ∧
      (0 < g → 0 < run T s) ∧
      ∀ j < g, s[run T s + 4 * j]? = some ',' ∧ DigitAt T s (run T s + 4 * j + 3) := by
  -- after fewer digits than there are comes a digit, and no group
  have hnone : ∀ k, 0 < k → k < run T s →
      ((Re.seq (thousands T) ((thousands T).upTo n)).lengths (s.drop k)).map (k + ·) = [] := by
    intro k _ hk
    obtain ⟨g, hg, -, hzero⟩ := lengths_groups (T := T) n (s.drop k)
    have hdigit : (s.drop k)[0]? ≠ some ',' := by
      rw [List.getElem?_drop]
      exact (digitAt_of_lt_run hk).ne_of_punctuation hT rfl
    rw [hg, hzero hdigit]
    rfl
  unfold integerPart
  rw [Re.lengths_alt, lengths_digits, Re.lengths_seq, lengths_leadingDigits,
    flatMap_countdown fun k hpos hk => hnone k hpos (lt_of_lt_of_le hk (Nat.min_le_right _ _))]
  by_cases hrun : 0 < run T s ∧ run T s ≤ 3
  · obtain ⟨g, hg, hgroups, -⟩ := lengths_groups (T := T) n (s.drop (run T s))
    refine ⟨g, ?_, fun _ => hrun.1, ?_⟩
    · rw [Nat.min_eq_right hrun.2, if_pos hrun.1, hg, List.map_map]
      rfl
    · intro j hj
      obtain ⟨hcomma, hdigit⟩ := hgroups j hj
      rw [List.getElem?_drop] at hcomma
      refine ⟨hcomma, ?_⟩
      rw [Nat.add_assoc]
      exact hdigit.drop
  · refine ⟨0, ?_, by omega, by omega⟩
    congr 1
    split
    · exact hnone _ (by omega) (by omega)
    · rfl

/-- The lengths of a decimal part, and none. -/
theorem lengths_fraction (s : List Char) :
    ∃ f, (fraction T).lengths s = (Re.countdown f).map (1 + ·) ++ [0] ∧ (0 < f → s[0]? = some '.') ∧
      ∀ j < f, DigitAt T s (1 + j) := by
  unfold fraction
  rw [Re.lengths_opt, Re.lengths_seq]
  cases s with
  | nil => exact ⟨0, rfl, by omega, by omega⟩
  | cons x xs =>
    by_cases hx : x = '.'
    · subst hx
      refine ⟨run T xs, ?_, fun _ => rfl, fun j hj => (digitAt_of_lt_run hj).drop (k := 1) (s := '.' :: xs)⟩
      have hpoint : (Re.cls (· == '.')).lengths ('.' :: xs) = [1] := rfl
      rw [hpoint, List.flatMap_singleton, List.drop_one, List.tail_cons, lengths_digits]
    · have hpoint : (Re.cls (· == '.')).lengths (x :: xs) = [] := by
        rw [Re.lengths]
        exact if_neg (by simpa using hx)
      exact ⟨0, by rw [hpoint]; rfl, by omega, by omega⟩

/-! ## The shape of the successes -/

theorem plain_thousands : (thousands T).Plain := ⟨trivial, trivial⟩

theorem plain_integerPart (n : Nat) : (integerPart T n).Plain :=
  ⟨⟨trivial, plain_thousands, plain_thousands.upTo n⟩, trivial⟩

theorem plain_number (n : Nat) : (number T n).Plain :=
  ⟨⟨trivial, trivial⟩, plain_integerPart n, ⟨trivial, trivial⟩, trivial⟩

/-- **The successes of a number**: at `i` its integer part ends, `f` decimals follow, and at the places
    `inner` a digit or a comma follows. -/
structure Shape (T : PyText) (s : List Char) (lengths : List Nat) (i f : Nat) (inner : List Nat) : Prop where
  lengths_eq : lengths = (Re.countdown f).map (fun j => i + (1 + j)) ++ i :: inner
  before : ∀ k ∈ i :: inner, 0 < k ∧ DigitAt T s (k - 1)
  point : 0 < f → s[i]? = some '.'
  fractional : ∀ j < f, DigitAt T s (i + (1 + j))
  follows : ∀ k ∈ inner, DigitAt T s k ∨ s[k]? = some ','
  group : (∀ k ∈ inner, DigitAt T s k) ∨
    4 < i ∧ s[i - 4]? = some ',' ∧ ∃ more, inner = (i - 4) :: more
  integral : '.' ∉ s.take i

theorem digitAt_before_run {s : List Char} {k : Nat} (hk : k ∈ Re.countdown (run T s)) :
    0 < k ∧ DigitAt T s (k - 1) := by
  obtain ⟨hpos, hle⟩ := Re.mem_countdown.mp hk
  exact ⟨hpos, digitAt_of_lt_run (by omega)⟩

/-- **The successes of an integer part**: the first, and those before a digit or a comma. -/
theorem shape_integerPart (hT : T.Numeric) (n : Nat) (s : List Char) :
    (integerPart T n).lengths s = [] ∨
      ∃ i inner, (integerPart T n).lengths s = i :: inner ∧
        (∀ k ∈ i :: inner, 0 < k ∧ DigitAt T s (k - 1)) ∧
        (∀ k ∈ inner, DigitAt T s k ∨ s[k]? = some ',') ∧
        ((∀ k ∈ inner, DigitAt T s k) ∨ 4 < i ∧ s[i - 4]? = some ',' ∧ ∃ more, inner = (i - 4) :: more) := by
  obtain ⟨g, hg, hpos, hgroups⟩ := lengths_integerPart hT n s
  rw [hg]
  cases g with
  | zero =>
    rw [Re.countdown, List.map_nil, List.nil_append]
    cases hrun : run T s with
    | zero => exact .inl rfl
    | succ d =>
      have hinner : ∀ k ∈ Re.countdown d, DigitAt T s k := by
        intro k hk
        obtain ⟨-, hle⟩ := Re.mem_countdown.mp hk
        exact digitAt_of_lt_run (by omega)
      refine .inr ⟨d + 1, Re.countdown d, rfl, ?_, fun k hk => .inl (hinner k hk), .inl hinner⟩
      intro k hk
      exact digitAt_before_run (hrun ▸ hk)
  | succ g =>
    have hrun := hpos (Nat.zero_lt_succ g)
    refine .inr ⟨run T s + 4 * (g + 1),
      (Re.countdown g).map (fun j => run T s + 4 * j) ++ Re.countdown (run T s), rfl, ?_, ?_, .inr ?_⟩
    · intro k hk
      have hk' : k ∈ (Re.countdown (g + 1)).map (fun j => run T s + 4 * j) ++ Re.countdown (run T s) := hk
      rcases List.mem_append.mp hk' with hk' | hk'
      · obtain ⟨j, hj, rfl⟩ := List.mem_map.mp hk'
        obtain ⟨hj0, hj1⟩ := Re.mem_countdown.mp hj
        refine ⟨by omega, ?_⟩
        obtain ⟨-, hdigit⟩ := hgroups (j - 1) (by omega)
        have hplace : run T s + 4 * j - 1 = run T s + 4 * (j - 1) + 3 := by omega
        rw [hplace]
        exact hdigit
      · exact digitAt_before_run hk'
    · intro k hk
      rcases List.mem_append.mp hk with hk | hk
      · obtain ⟨j, hj, rfl⟩ := List.mem_map.mp hk
        obtain ⟨-, hj1⟩ := Re.mem_countdown.mp hj
        exact .inr (hgroups j (by omega)).1
      · obtain ⟨-, hle⟩ := Re.mem_countdown.mp hk
        rcases Nat.lt_or_eq_of_le hle with hlt | rfl
        · exact .inl (digitAt_of_lt_run hlt)
        · exact .inr (hgroups 0 (by omega)).1
    · have hplace : run T s + 4 * (g + 1) - 4 = run T s + 4 * g := by omega
      refine ⟨by omega, ?_, ?_⟩
      · rw [hplace]
        exact (hgroups g (Nat.lt_succ_self g)).1
      · rw [hplace]
        cases g with
        | zero =>
          obtain ⟨d, hd⟩ := Nat.exists_eq_succ_of_ne_zero (Nat.pos_iff_ne_zero.mp hrun)
          exact ⟨Re.countdown d, by rw [hd]; rfl⟩
        | succ g => exact ⟨_, rfl⟩

theorem not_point_of_mem_take (hT : T.Numeric) {n : Nat} {s : List Char} {i : Nat}
    (hi : i ∈ (integerPart T n).lengths s) : '.' ∉ s.take i := by
  have hdigits : ∀ lo hi, Re.Within (fun x => x ≠ '.') (.rep T.isDecimal lo hi true) := by
    intro lo hi
    refine Re.within_rep fun x hx => ?_
    rintro rfl
    rw [not_decimal_of_punctuation hT rfl] at hx
    cases hx
  have hgroup : Re.Within (fun x => x ≠ '.') (thousands T) := by
    refine (Re.within_cls fun x hx => ?_).seq (hdigits 3 (some 3))
    rw [beq_iff_eq.mp hx]
    decide
  have hwithin : Re.Within (fun x => x ≠ '.') (integerPart T n) :=
    ((hdigits 1 (some 3)).seq (hgroup.seq (hgroup.upTo n))).alt (hdigits 1 none)
  intro hmem
  exact Re.forall_take_of_within (plain_integerPart n) hwithin hi '.' hmem rfl

/-- Where no point follows there is no decimal part. -/
theorem lengths_fraction_of_ne {s : List Char} (h : s[0]? ≠ some '.') : (fraction T).lengths s = [0] := by
  obtain ⟨f, hf, hpoint, -⟩ := lengths_fraction (T := T) s
  cases f with
  | zero => exact hf
  | succ f => exact absurd (hpoint (Nat.zero_lt_succ f)) h

/-- An integer part with its decimal part, where there is one. -/
theorem shape_unsigned (hT : T.Numeric) (n : Nat) (s : List Char) :
    (Re.seq (integerPart T n) (fraction T)).lengths s = [] ∨
      ∃ i f inner, Shape T s ((Re.seq (integerPart T n) (fraction T)).lengths s) i f inner := by
  rw [Re.lengths_seq]
  rcases shape_integerPart hT n s with hnil | ⟨i, inner, hI, hbefore, hfollows, hgroup⟩
  · rw [hnil]
    exact .inl rfl
  · obtain ⟨f, hf, hpoint, hfractional⟩ := lengths_fraction (T := T) (s.drop i)
    refine .inr ⟨i, f, inner, ?_, hbefore, ?_, ?_, hfollows, hgroup, ?_⟩
    · have hinner : (inner.flatMap fun k => ((fraction T).lengths (s.drop k)).map (k + ·)) = inner := by
        have hone : ∀ k ∈ inner, ((fraction T).lengths (s.drop k)).map (k + ·) = [k] := by
          intro k hk
          rw [lengths_fraction_of_ne]
          · rfl
          · rw [List.getElem?_drop, Nat.add_zero]
            rcases hfollows k hk with hdigit | hcomma
            · exact hdigit.ne_of_punctuation hT rfl
            · rw [hcomma]
              simp
        rw [List.flatMap_congr hone, List.flatMap_singleton']
      rw [hI, List.flatMap_cons, hf, hinner, List.map_append, List.map_map, List.append_assoc]
      rfl
    · intro hpos
      have hat := hpoint hpos
      rwa [List.getElem?_drop] at hat
    · exact fun j hj => (hfractional j hj).drop
    · exact not_point_of_mem_take hT (hI ▸ List.mem_cons_self)

/-- A sign moves every place by one. -/
theorem Shape.signed {x : Char} {xs : List Char} {lengths inner : List Nat} {i f : Nat}
    (h : Shape T xs lengths i f inner) (hx : x ≠ '.') :
    Shape T (x :: xs) (lengths.map (1 + ·)) (1 + i) f (inner.map (1 + ·)) where
  lengths_eq := by
    rw [h.lengths_eq, List.map_append, List.map_map, List.map_cons]
    congr 1
    refine List.map_congr_left fun j _ => ?_
    exact (Nat.add_assoc 1 i (1 + j)).symm
  before := by
    intro k hk
    obtain ⟨k', hk', rfl⟩ := List.mem_map.mp (show k ∈ (i :: inner).map (1 + ·) from hk)
    obtain ⟨hpos, hdigit⟩ := h.before k' hk'
    refine ⟨by omega, ?_⟩
    have hplace : 1 + k' - 1 = 1 + (k' - 1) := by omega
    rw [hplace]
    exact hdigit.drop (k := 1) (s := x :: xs)
  point := by
    intro hf
    rw [Nat.add_comm, List.getElem?_cons_succ]
    exact h.point hf
  fractional := by
    intro j hj
    rw [Nat.add_assoc]
    exact (h.fractional j hj).drop (k := 1) (s := x :: xs)
  follows := by
    intro k hk
    obtain ⟨k', hk', rfl⟩ := List.mem_map.mp hk
    rcases h.follows k' hk' with hdigit | hcomma
    · exact .inl (hdigit.drop (k := 1) (s := x :: xs))
    · refine .inr ?_
      rw [Nat.add_comm, List.getElem?_cons_succ]
      exact hcomma
  group := by
    rcases h.group with hdigits | ⟨hfour, hcomma, more, hmore⟩
    · refine .inl fun k hk => ?_
      obtain ⟨k', hk', rfl⟩ := List.mem_map.mp hk
      exact (hdigits k' hk').drop (k := 1) (s := x :: xs)
    · have hplace : 1 + i - 4 = (i - 4) + 1 := by omega
      refine .inr ⟨by omega, ?_, more.map (1 + ·), ?_⟩
      · rw [hplace, List.getElem?_cons_succ]
        exact hcomma
      · rw [hmore, List.map_cons, hplace, Nat.add_comm 1 (i - 4)]
  integral := by
    rw [Nat.add_comm, List.take_succ_cons]
    exact List.not_mem_cons_of_ne_of_not_mem (Ne.symm hx) h.integral

/-- A number begins with its sign or a digit. -/
theorem lengths_unsigned_of_sign (hT : T.Numeric) (n : Nat) {x : Char} {xs : List Char}
    (hx : "-+,.".toList.contains x = true) :
    (Re.seq (integerPart T n) (fraction T)).lengths (x :: xs) = [] := by
  have hrun : run T (x :: xs) = 0 := by
    unfold run
    rw [List.takeWhile_cons_of_neg (by simp [not_decimal_of_punctuation hT hx])]
    rfl
  obtain ⟨g, hg, hpos, -⟩ := lengths_integerPart hT n (x :: xs)
  cases g with
  | zero =>
    rw [Re.lengths_seq, hg, hrun]
    rfl
  | succ g =>
    rw [hrun] at hpos
    exact absurd (hpos (Nat.zero_lt_succ g)) (lt_irrefl 0)

/-- **The successes of a number have this shape**, if there are any. -/
theorem shape_number (hT : T.Numeric) (n : Nat) (s : List Char) :
    (number T n).lengths s = [] ∨ ∃ i f inner, Shape T s ((number T n).lengths s) i f inner := by
  have hnumber : (number T n).lengths s = ((Re.opt (.oneOf "-+")).lengths s).flatMap fun k =>
      ((Re.seq (integerPart T n) (fraction T)).lengths (s.drop k)).map (k + ·) := rfl
  have hzero : ∀ l : List Nat, l.map (0 + ·) = l := by
    intro l
    simp
  by_cases hsign : (s.head?.any fun x => "-+".toList.contains x) = true
  · have hopt : (Re.opt (.oneOf "-+")).lengths s = [1, 0] := by
      rw [Re.lengths_opt, Re.oneOf, Re.lengths, if_pos hsign]
      rfl
    cases s with
    | nil => cases hsign
    | cons x xs =>
      have hpm : x = '-' ∨ x = '+' := by simpa using hsign
      have hpunctuation : "-+,.".toList.contains x = true := by
        rcases hpm with rfl | rfl <;> rfl
      have hpoint : x ≠ '.' := by
        rcases hpm with rfl | rfl <;> decide
      rw [hnumber, hopt, List.flatMap_cons, List.flatMap_singleton, List.drop_zero,
        lengths_unsigned_of_sign hT n hpunctuation, List.map_nil, List.append_nil, List.drop_one,
        List.tail_cons]
      rcases shape_unsigned hT n xs with hnil | ⟨i, f, inner, h⟩
      · rw [hnil]
        exact .inl rfl
      · exact .inr ⟨_, _, _, h.signed hpoint⟩
  · have hopt : (Re.opt (.oneOf "-+")).lengths s = [0] := by
      rw [Re.lengths_opt, Re.oneOf, Re.lengths, if_neg hsign]
      rfl
    rw [hnumber, hopt, List.flatMap_singleton, List.drop_zero, hzero]
    exact shape_unsigned hT n s

/-! ## The whole token and what is left without its last part -/

/-- Where the whole token ends. -/
def tokenLength (i f : Nat) : Nat := if f = 0 then i else i + (1 + f)

/-- A token without its decimal part or, where it has none, without its last thousands group. -/
def withoutLastPart (token : String) : String :=
  let chars := token.toList
  if chars.contains '.' then String.ofList (chars.takeWhile (· != '.'))
  else String.ofList (chars.take (chars.length - 4))

/-- No word character stands at this place. -/
def openAt (T : PyText) (s : List Char) (k : Nat) : Bool := !(s[k]?.any T.isWord)

namespace Shape

variable {s : List Char} {lengths inner : List Nat} {i f : Nat}

/-- **The first success is the whole token.** -/
theorem head (h : Shape T s lengths i f inner) : lengths.head? = some (tokenLength i f) := by
  rw [h.lengths_eq]
  cases f with
  | zero => rfl
  | succ f => rfl

theorem tokenLength_pos (h : Shape T s lengths i f inner) : 0 < tokenLength i f := by
  have hi := (h.before i List.mem_cons_self).1
  unfold tokenLength
  split <;> omega

/-- A digit stands before every end. -/
theorem digit_before (h : Shape T s lengths i f inner) {k : Nat} (hk : k ∈ lengths) :
    0 < k ∧ DigitAt T s (k - 1) := by
  rw [h.lengths_eq] at hk
  rcases List.mem_append.mp hk with hk | hk
  · obtain ⟨j, hj, rfl⟩ := List.mem_map.mp hk
    obtain ⟨hpos, hle⟩ := Re.mem_countdown.mp hj
    have hdigit := h.fractional (j - 1) (by omega)
    have hplace : i + (1 + (j - 1)) = i + (1 + j) - 1 := by omega
    exact ⟨by omega, hplace ▸ hdigit⟩
  · exact h.before k hk

/-- A decimal part that is not all of it is followed by a digit. -/
theorem digit_of_lt (h : Shape T s lengths i f inner) {j : Nat} (hj : j ∈ Re.countdown f) (hne : j ≠ f) :
    DigitAt T s (i + (1 + j)) := by
  obtain ⟨-, hle⟩ := Re.mem_countdown.mp hj
  exact h.fractional j (by omega)

/-- **What stands before something else than a character of a number is the whole token.** -/
theorem eq_tokenLength (h : Shape T s lengths i f inner) {k : Nat} (hk : k ∈ lengths) {x : Char}
    (hx : s[k]? = some x) (hother : ¬ TokenChar T x) : k = tokenLength i f := by
  have hdigit : ¬ DigitAt T s k := by
    rintro ⟨y, hy, hdecimal⟩
    rw [hx] at hy
    obtain rfl := Option.some.inj hy
    exact hother (.inl hdecimal)
  rw [h.lengths_eq] at hk
  unfold tokenLength
  rcases List.mem_append.mp hk with hk | hk
  · obtain ⟨j, hj, rfl⟩ := List.mem_map.mp hk
    by_cases hj' : j = f
    · subst hj'
      obtain ⟨hpos, -⟩ := Re.mem_countdown.mp hj
      rw [if_neg (by omega)]
    · exact absurd (h.digit_of_lt hj hj') hdigit
  · rcases List.mem_cons.mp hk with rfl | hk
    · by_cases hf : f = 0
      · rw [if_pos hf]
      · have hpoint := h.point (Nat.pos_of_ne_zero hf)
        rw [hx] at hpoint
        obtain rfl := Option.some.inj hpoint
        exact absurd (.inr rfl) hother
    · rcases h.follows k hk with hd | hcomma
      · exact absurd hd hdigit
      · rw [hx] at hcomma
        obtain rfl := Option.some.inj hcomma
        exact absurd (.inr rfl) hother

theorem openAt_of_digit (hT : T.Numeric) {k : Nat} (h : DigitAt T s k) : openAt T s k = false := by
  obtain ⟨x, hx, hdigit⟩ := h
  unfold openAt
  rw [hx, Option.any_some, hT.decimal_word x hdigit]
  rfl

theorem openAt_of_punctuation (hT : T.Numeric) {k : Nat} {x : Char} (hx : s[k]? = some x)
    (hpunctuation : "-+,.".toList.contains x = true) : openAt T s k = true := by
  unfold openAt
  rw [hx, Option.any_some, hT.punctuation_word x hpunctuation]
  rfl

/-- Where the text goes on with a point, the decimal part is what is left out. -/
theorem withoutLastPart_fraction (hpoint : s[i]? = some '.') (hintegral : '.' ∉ s.take i) (m : Nat) :
    withoutLastPart (String.ofList (s.take (i + (1 + m)))) = String.ofList (s.take i) := by
  obtain ⟨hi, hget⟩ := List.getElem?_eq_some_iff.mp hpoint
  have hsplit : s.take (i + (1 + m)) = s.take i ++ '.' :: (s.drop (i + 1)).take m := by
    rw [List.take_add, List.drop_eq_getElem_cons hi, hget, Nat.add_comm 1 m, List.take_succ_cons]
  unfold withoutLastPart
  rw [String.toList_ofList, hsplit]
  have hcontains : (s.take i ++ '.' :: (s.drop (i + 1)).take m).contains '.' = true := by
    rw [List.contains_iff_mem]
    exact List.mem_append_right _ List.mem_cons_self
  rw [if_pos hcontains, List.takeWhile_append_of_pos, List.takeWhile_cons_of_neg (by simp), List.append_nil]
  intro x hx
  rw [bne_iff_ne]
  rintro rfl
  exact hintegral hx

/-- Where there is no decimal part, it is the last four characters. -/
theorem withoutLastPart_group (hintegral : '.' ∉ s.take i) (hi : i ≤ s.length) :
    withoutLastPart (String.ofList (s.take i)) = String.ofList (s.take (i - 4)) := by
  unfold withoutLastPart
  rw [String.toList_ofList, if_neg (by simpa using hintegral), List.length_take, Nat.min_eq_left hi,
    List.take_take, Nat.min_eq_left (Nat.sub_le i 4)]

/-- **The first success before a word boundary**: the whole token where it is open, and otherwise the token
    without its last part. -/
theorem find_open (hT : T.Numeric) (h : Shape T s lengths i f inner) {k : Nat}
    (hk : lengths.find? (openAt T s) = some k) :
    k = tokenLength i f ∧ openAt T s (tokenLength i f) = true ∨
      openAt T s (tokenLength i f) = false ∧
        String.ofList (s.take k) = withoutLastPart (String.ofList (s.take (tokenLength i f))) := by
  rw [h.lengths_eq] at hk
  cases f with
  | zero =>
    have hlength : tokenLength i 0 = i := rfl
    rw [hlength]
    rw [Re.countdown, List.map_nil, List.nil_append] at hk
    cases hopen : openAt T s i with
    | true =>
      rw [List.find?_cons_of_pos hopen] at hk
      exact .inl ⟨(Option.some.inj hk).symm, rfl⟩
    | false =>
      rw [List.find?_cons_of_neg (by rw [hopen]; exact Bool.false_ne_true)] at hk
      refine .inr ⟨rfl, ?_⟩
      rcases h.group with hdigits | ⟨hfour, hcomma, more, rfl⟩
      · -- only digits follow the shorter ones
        have hopen' := List.find?_some hk
        rw [openAt_of_digit hT (hdigits k (List.mem_of_find?_eq_some hk))] at hopen'
        cases hopen'
      · rw [List.find?_cons_of_pos (openAt_of_punctuation hT hcomma rfl)] at hk
        obtain rfl := Option.some.inj hk
        obtain ⟨-, x, hx, -⟩ := h.before i List.mem_cons_self
        have hi := (List.getElem?_eq_some_iff.mp hx).1
        exact (withoutLastPart_group h.integral (by omega)).symm
  | succ f =>
    have hlength : tokenLength i (f + 1) = i + (1 + (f + 1)) := rfl
    rw [hlength]
    rw [Re.countdown, List.map_cons, List.cons_append] at hk
    cases hopen : openAt T s (i + (1 + (f + 1))) with
    | true =>
      rw [List.find?_cons_of_pos hopen] at hk
      exact .inl ⟨(Option.some.inj hk).symm, rfl⟩
    | false =>
      have hshorter : ((Re.countdown f).map fun j => i + (1 + j)).find? (openAt T s) = none := by
        rw [List.find?_eq_none]
        intro m hm
        obtain ⟨j, hj, rfl⟩ := List.mem_map.mp hm
        obtain ⟨-, hle⟩ := Re.mem_countdown.mp hj
        rw [openAt_of_digit hT (h.fractional j (by omega))]
        exact Bool.false_ne_true
      have hpoint := h.point (Nat.zero_lt_succ f)
      rw [List.find?_cons_of_neg (by rw [hopen]; exact Bool.false_ne_true), List.find?_append, hshorter,
        Option.none_or, List.find?_cons_of_pos (openAt_of_punctuation hT hpoint rfl)] at hk
      obtain rfl := Option.some.inj hk
      exact .inr ⟨rfl, (withoutLastPart_fraction hpoint h.integral (f + 1)).symm⟩

end Shape

/-! ## One captured number -/

/-- The cursor after a captured number of length `k`. -/
def captured (name : String) (c : Re.Cursor) (k : Nat) : Re.Cursor :=
  { c.advance k with groups := (name, String.ofList (c.rest.take k)) :: c.groups }

theorem ends_group_number (name : String) (c : Re.Cursor) :
    (Re.group name (number T n)).ends c = ((number T n).lengths c.rest).map (captured name c) := by
  rw [Re.ends, Re.ends_eq_map_lengths (plain_number n), List.map_map]
  refine List.map_congr_left fun k _ => ?_
  have htake : c.rest.take (c.rest.length - (c.advance k).rest.length) = c.rest.take k := by
    rw [Re.rest_advance, List.length_drop]
    by_cases hk : k ≤ c.rest.length
    · congr 1
      omega
    · rw [List.take_of_length_le (by omega), List.take_of_length_le (by omega)]
  unfold captured
  rw [← htake, Function.comp, Re.groups_advance]

/-- **`findall` reports the first success**, and goes on behind it. -/
theorem finditer_token {s : List Char} {w : Nat} (hhead : ((number T n).lengths s).head? = some w)
    (hw : 0 < w) (hlength : w ≤ s.length) (prev : Option Char) :
    ∃ token x xs, s = x :: xs ∧ (numberToken T n).finditerFrom prev 0 s =
        token :: (numberToken T n).finditerFrom (some x) (w - 1) xs ∧
      tokenText token = String.ofList (s.take w) ∧ token.rest = s.drop w := by
  cases s with
  | nil =>
    rw [List.length_nil] at hlength
    omega
  | cons x xs =>
    have hends : ((numberToken T n).ends ⟨prev, x :: xs, []⟩).head? =
        some (captured "token" ⟨prev, x :: xs, []⟩ w) := by
      unfold numberToken
      rw [ends_group_number, List.head?_map, hhead]
      rfl
    have hrest : (captured "token" ⟨prev, x :: xs, []⟩ w).rest = (x :: xs).drop w := Re.rest_advance _ w
    refine ⟨captured "token" ⟨prev, x :: xs, []⟩ w, x, xs, rfl, ?_, ?_, hrest⟩
    · rw [Re.finditerFrom, hends]
      show _ :: _ = _ :: _
      rw [hrest, List.length_drop]
      congr 2
      rw [List.length_cons] at hlength ⊢
      omega
    · rfl

/-- Of the last number and what stands behind it: `Q` holds of the text captured, of the whole token and of
    whether the token is open. -/
def TrailReads (T : PyText) (n : Nat) (trail : Re) (Q : String → String → Bool → Prop) : Prop :=
  ∀ name c e, ((Re.seq (.group name (number T n)) trail).ends c).head? = some e →
    ∃ w text, ((number T n).lengths c.rest).head? = some w ∧ e.groups = (name, text) :: c.groups ∧
      Q text (String.ofList (c.rest.take w)) (openAt T c.rest w)

/-- What begins with another character than a number's reads the whole token before it. -/
theorem eq_tokenLength_of_begins {P : Char → Prop} (hT : T.Numeric) (hP : ∀ x, P x → ¬ TokenChar T x)
    {more : Re} (hmore : Re.Begins P more) {name : String} {c d : Re.Cursor}
    (hd : d ∈ (Re.group name (number T n)).ends c) {e : Re.Cursor} (he : e ∈ more.ends d) :
    ∃ i f inner w x, Shape T c.rest ((number T n).lengths c.rest) i f inner ∧ w = tokenLength i f ∧
      d = captured name c w ∧ c.rest[w]? = some x ∧ P x := by
  rw [ends_group_number] at hd
  obtain ⟨k, hk, rfl⟩ := List.mem_map.mp hd
  obtain ⟨x, l, hl, hx⟩ := hmore _ e he
  have hrest : c.rest.drop k = x :: (l ++ e.rest) := by
    rw [← Re.rest_advance]
    exact hl.rest
  have hget : c.rest[k]? = some x := by
    have hhead := congrArg List.head? hrest
    rwa [List.head?_drop] at hhead
  rcases shape_number hT n c.rest with hnil | ⟨i, f, inner, hshape⟩
  · rw [hnil] at hk
    cases hk
  · obtain rfl := hshape.eq_tokenLength hk hget (hP x hx)
    exact ⟨i, f, inner, _, x, hshape, rfl, rfl, hget, hx⟩

theorem trailReads_eps : TrailReads T n .eps fun text token _ => text = token := by
  intro name c e h
  have hends : (Re.seq (.group name (number T n)) .eps).ends c =
      ((number T n).lengths c.rest).map (captured name c) := by
    rw [Re.ends, ends_group_number]
    exact List.flatMap_singleton' _
  rw [hends, List.head?_map] at h
  cases hhead : ((number T n).lengths c.rest).head? with
  | none =>
    rw [hhead] at h
    cases h
  | some w =>
    rw [hhead] at h
    obtain rfl := Option.some.inj h
    exact ⟨w, _, rfl, rfl, rfl⟩

theorem trailReads_spaces (hT : T.Numeric) {trail : Re} (htrail : Re.Begins (fun x => T.isSpace x = true) trail) :
    TrailReads T n trail fun text token isOpen => text = token ∧ isOpen = true := by
  intro name c e h
  obtain ⟨d, hd, he⟩ := Re.head?_ends_seq h
  have hmem := List.mem_of_mem_head? he
  obtain ⟨i, f, inner, w, x, hshape, rfl, rfl, hx, hspace⟩ :=
    eq_tokenLength_of_begins hT (fun x hx => not_tokenChar_of_space hT hx) htrail hd hmem
  obtain ⟨y, l, hl, -⟩ := htrail _ e hmem
  refine ⟨_, _, hshape.head, hl.groups, rfl, ?_⟩
  unfold openAt
  rw [hx, Option.any_some, hT.space_word x hspace]
  rfl

/-- Behind a number a word boundary is where no word character follows. -/
theorem ends_boundary_captured (hT : T.Numeric) {name : String} {c : Re.Cursor} {k : Nat} (hpos : 0 < k)
    (hdigit : DigitAt T c.rest (k - 1)) :
    (wordBoundary T).ends (captured name c k) =
      if openAt T c.rest k then [captured name c k] else [] := by
  obtain ⟨x, hx, hdecimal⟩ := hdigit
  have hlength := (List.getElem?_eq_some_iff.mp hx).1
  have hprev : (captured name c k).prev = some x := by
    have hadvance := Re.prev_advance c hlength
    rw [Nat.sub_add_cancel hpos, hx] at hadvance
    exact hadvance
  have hrest : (captured name c k).rest.head? = c.rest[k]? := by
    rw [← List.head?_drop, ← Re.rest_advance]
    rfl
  unfold wordBoundary openAt
  rw [Re.ends, hprev, hrest, Option.any_some, hT.decimal_word x hdecimal]
  cases c.rest[k]?.any T.isWord <;> rfl

theorem trailReads_boundary (hT : T.Numeric) :
    TrailReads T n (wordBoundary T) fun text token isOpen =>
      text = token ∧ isOpen = true ∨ isOpen = false ∧ text = withoutLastPart token := by
  intro name c e h
  rcases shape_number hT n c.rest with hnil | ⟨i, f, inner, hshape⟩
  · rw [Re.ends, ends_group_number, hnil] at h
    cases h
  · have hends : (Re.seq (.group name (number T n)) (wordBoundary T)).ends c =
        (((number T n).lengths c.rest).filter (openAt T c.rest)).map (captured name c) := by
      rw [Re.ends, ends_group_number, List.flatMap_map]
      have hall : ∀ k ∈ (number T n).lengths c.rest, (wordBoundary T).ends (captured name c k) =
          if openAt T c.rest k then [captured name c k] else [] := by
        intro k hk
        obtain ⟨hpos, hdigit⟩ := hshape.digit_before hk
        exact ends_boundary_captured hT hpos hdigit
      rw [List.flatMap_congr hall]
      induction (number T n).lengths c.rest with
      | nil => rfl
      | cons k ks ih =>
        rw [List.flatMap_cons, List.filter_cons, ih]
        split <;> rfl
    rw [hends, List.head?_map, List.head?_filter] at h
    cases hfind : ((number T n).lengths c.rest).find? (openAt T c.rest) with
    | none =>
      rw [hfind] at h
      cases h
    | some k =>
      rw [hfind] at h
      obtain rfl := Option.some.inj h
      refine ⟨_, String.ofList (c.rest.take k), hshape.head, rfl, ?_⟩
      rcases hshape.find_open hT hfind with ⟨rfl, hopen⟩ | ⟨hclosed, htext⟩
      · exact .inl ⟨rfl, hopen⟩
      · exact .inr ⟨hclosed, htext⟩

/-! ## All captured numbers -/

theorem within_number (n : Nat) : Re.Within (TokenChar T) (number T n) := by
  have hdigits : ∀ lo hi, Re.Within (TokenChar T) (.rep T.isDecimal lo hi true) :=
    fun lo hi => Re.within_rep fun x hx => .inl hx
  have hgroup : Re.Within (TokenChar T) (thousands T) := by
    refine (Re.within_cls fun x hx => ?_).seq (hdigits 3 (some 3))
    rw [beq_iff_eq.mp hx]
    exact .inr rfl
  have hfraction : Re.Within (TokenChar T) (fraction T) := by
    refine Re.Within.opt ((Re.within_cls fun x hx => ?_).seq (hdigits 1 none))
    rw [beq_iff_eq.mp hx]
    exact .inr rfl
  have hsign : Re.Within (TokenChar T) (.opt (.oneOf "-+")) := by
    refine Re.Within.opt (Re.within_cls fun x hx => .inr ?_)
    have hpm : x = '-' ∨ x = '+' := by simpa using hx
    rcases hpm with rfl | rfl <;> rfl
  exact hsign.seq ((((hdigits 1 (some 3)).seq (hgroup.seq (hgroup.upTo n))).alt (hdigits 1 none)).seq hfraction)

theorem within_numberToken (n : Nat) (c : Re.Cursor) :
    ∀ e ∈ (numberToken T n).ends c, ∃ l, c.rest = l ++ e.rest ∧ ∀ x ∈ l, TokenChar T x := by
  intro e he
  obtain ⟨d, hd, rfl⟩ := List.mem_map.mp he
  obtain ⟨l, hl, hclass⟩ := within_number n c d hd
  exact ⟨l, hl.rest, hclass⟩

/-- No word character follows the token. -/
def isOpen (T : PyText) (token : Re.Cursor) : Bool := !(token.rest.head?.any T.isWord)

theorem length_of_shape {s : List Char} {lengths inner : List Nat} {i f : Nat}
    (h : Shape T s lengths i f inner) : tokenLength i f ≤ s.length := by
  obtain ⟨hpos, x, hx, -⟩ := h.digit_before (List.mem_of_mem_head? h.head)
  have hlt := (List.getElem?_eq_some_iff.mp hx).1
  omega

/-- What leads to a number ends the tokens before it. -/
theorem finditer_lead {lead : Re} (hlead : Re.Ends (fun x => ¬ TokenChar T x) lead) {c d : Re.Cursor}
    (hd : d ∈ lead.ends c) {before : List Char} {skip : Nat} (hskip : skip ≤ before.length)
    (prev : Option Char) :
    ∃ found prev', (numberToken T n).finditerFrom prev skip (before ++ c.rest) =
      found ++ (numberToken T n).finditerFrom prev' 0 d.rest := by
  obtain ⟨l, x, hl, hx⟩ := hlead c d hd
  rw [hl.rest, ← List.append_assoc]
  refine Re.finditerFrom_append (within_numberToken n) prev ?_ ?_ d.rest
  · intro y hy
    rw [← List.append_assoc, List.getLast?_concat] at hy
    obtain rfl := Option.some.inj hy
    exact hx
  · rw [List.length_append]
    omega

/-- The first success at a number is its token. -/
theorem exists_token (hT : T.Numeric) {c : Re.Cursor} {w : Nat}
    (hhead : ((number T n).lengths c.rest).head? = some w) (prev : Option Char) :
    ∃ token x xs, c.rest = x :: xs ∧ (numberToken T n).finditerFrom prev 0 c.rest =
        token :: (numberToken T n).finditerFrom (some x) (w - 1) xs ∧ w - 1 ≤ xs.length ∧
      c.rest.drop w = xs.drop (w - 1) ∧
      tokenText token = String.ofList (c.rest.take w) ∧ isOpen T token = openAt T c.rest w := by
  rcases shape_number hT n c.rest with hnil | ⟨i, f, inner, hshape⟩
  · rw [hnil] at hhead
    cases hhead
  · have hw : w = tokenLength i f := by
      rw [hshape.head] at hhead
      exact (Option.some.inj hhead).symm
    have hpos : 0 < w := hw ▸ hshape.tokenLength_pos
    have hlength : w ≤ c.rest.length := hw ▸ length_of_shape hshape
    obtain ⟨token, x, xs, hrest, htokens, htext, htoken⟩ := finditer_token hhead hpos hlength prev
    rw [hrest] at hlength
    rw [List.length_cons] at hlength
    refine ⟨token, x, xs, hrest, htokens, by omega, ?_, htext, ?_⟩
    · obtain ⟨w, rfl⟩ := Nat.exists_eq_succ_of_ne_zero (Nat.pos_iff_ne_zero.mp hpos)
      rw [hrest]
      rfl
    · unfold isOpen openAt
      rw [htoken, List.head?_drop]

/-- **There is a token for each number that was captured**, in order, and all but the last were captured
    whole.  By induction on the numbers; `before` is what was read since the last token, of which `skip`
    characters belong to it. -/
theorem exists_tokens (hT : T.Numeric) {trail : Re} {Q : String → String → Bool → Prop}
    (htrail : TrailReads T n trail Q) (more : List (Re × String)) :
    ∀ (lead : Re) (name : String), Re.Ends (fun x => ¬ TokenChar T x) lead →
      (∀ p ∈ more, Re.Begins (fun x => ¬ TokenChar T x) p.1 ∧ Re.Ends (fun x => ¬ TokenChar T x) p.1) →
      ∀ (c e : Re.Cursor) (before : List Char) (skip : Nat) (prev : Option Char), skip ≤ before.length →
        ((numbers (number T n) trail ((lead, name) :: more)).ends c).head? = some e →
        ∃ init text last,
          (init ++ [last]).Sublist ((numberToken T n).finditerFrom prev skip (before ++ c.rest)) ∧
          init.length = more.length ∧
          e.groups = ((name :: more.map Prod.snd).zip (init.map tokenText ++ [text])).reverse ++ c.groups ∧
          Q text (tokenText last) (isOpen T last) := by
  induction more with
  | nil =>
    intro lead name hlead _ c e before skip prev hskip h
    obtain ⟨d, hd, h⟩ := Re.head?_ends_seq h
    obtain ⟨l, x, hl, -⟩ := hlead c d hd
    obtain ⟨found, prev', hfound⟩ := finditer_lead (n := n) hlead hd hskip prev
    obtain ⟨w, text, hhead, hgroups, hQ⟩ := htrail name d e h
    obtain ⟨token, y, ys, -, htokens, -, -, htext, hopen⟩ := exists_token hT hhead prev'
    refine ⟨[], text, token, ?_, rfl, ?_, ?_⟩
    · rw [hfound, htokens]
      exact List.sublist_append_of_sublist_right (List.singleton_sublist.mpr List.mem_cons_self)
    · rw [hgroups, hl.groups]
      rfl
    · rw [htext, hopen]
      exact hQ
  | cons next more ih =>
    intro lead name hlead hmore c e before skip prev hskip h
    obtain ⟨d, hd, h⟩ := Re.head?_ends_seq h
    obtain ⟨l, x, hl, -⟩ := hlead c d hd
    obtain ⟨found, prev', hfound⟩ := finditer_lead (n := n) hlead hd hskip prev
    obtain ⟨d', hd', h⟩ := Re.head?_ends_seq h
    -- what leads to the next number begins behind this one, so this one is whole
    obtain ⟨d'', hd'', -⟩ := Re.head?_ends_seq h
    obtain ⟨hbegins, hends⟩ := hmore next List.mem_cons_self
    obtain ⟨i, f, inner, w, z, hshape, rfl, rfl, -, -⟩ :=
      eq_tokenLength_of_begins hT (fun x hx => hx) hbegins hd' hd''
    obtain ⟨token, y, ys, hrest, htokens, hlength, hdrop, htext, -⟩ := exists_token hT hshape.head prev'
    have hskip' : tokenLength i f - 1 ≤ (ys.take (tokenLength i f - 1)).length := by
      rw [List.length_take]
      omega
    obtain ⟨init, text, last, hsub, hcount, hgroups, hQ⟩ := ih next.1 next.2 hends
      (fun p hp => hmore p (List.mem_cons_of_mem _ hp)) _ e (ys.take (tokenLength i f - 1))
      (tokenLength i f - 1) (some y) hskip' h
    refine ⟨token :: init, text, last, ?_, ?_, ?_, hQ⟩
    · have hys : ys.take (tokenLength i f - 1) ++ (captured name d (tokenLength i f)).rest = ys := by
        show ys.take _ ++ (d.advance _).rest = ys
        rw [Re.rest_advance, hdrop, List.take_append_drop]
      rw [hys] at hsub
      rw [hfound, htokens, List.cons_append]
      exact List.sublist_append_of_sublist_right (hsub.cons_cons token)
    · rw [List.length_cons, hcount, List.length_cons]
    · rw [hgroups]
      show _ ++ (name, String.ofList (d.rest.take (tokenLength i f))) :: d.groups = _
      rw [hl.groups, ← htext, List.map_cons, List.map_cons, List.cons_append, List.zip_cons_cons,
        List.reverse_cons, List.append_assoc, List.singleton_append]

/-! ## The patterns -/

section Patterns

variable (T)

theorem begins_someSpaces : Re.Begins (fun x => T.isSpace x = true) (someSpaces T) :=
  Re.begins_rep Nat.one_pos fun _ h => h

theorem within_someSpaces : Re.Within (fun x => T.isSpace x = true) (someSpaces T) := Re.within_rep fun _ h => h

theorem ends_someSpaces : Re.Ends (fun x => T.isSpace x = true) (someSpaces T) :=
  (begins_someSpaces T).ends (within_someSpaces T)

@[simp] theorem silent_caseless (word : String) : (caseless T word).Silent := Re.silent_lit _ _

@[simp] theorem silent_exactly (s : String) : (exactly s).Silent := Re.silent_lit _ _

@[simp] theorem silent_someSpaces : (someSpaces T).Silent := trivial

@[simp] theorem silent_spaces : (spaces T).Silent := trivial

@[simp] theorem silent_wordBoundary : (wordBoundary T).Silent := trivial

@[simp] theorem silent_anything : anything.Silent := trivial

theorem ends_leadWord (word : String) : Re.Ends (fun x => T.isSpace x = true) (leadWord T word) := by
  show Re.Ends _ (Re.seqs ([wordBoundary T, caseless T word] ++ [someSpaces T]))
  exact Re.Ends.seqs_concat (by simp) (ends_someSpaces T)

theorem begins_linkWord (word : String) : Re.Begins (fun x => T.isSpace x = true) (linkWord T word) :=
  (begins_someSpaces T).seqs_cons (by simp)

theorem ends_linkWord (word : String) : Re.Ends (fun x => T.isSpace x = true) (linkWord T word) := by
  show Re.Ends _ (Re.seqs ([someSpaces T, wordBoundary T, caseless T word] ++ [someSpaces T]))
  exact Re.Ends.seqs_concat (by simp) (ends_someSpaces T)

variable {T}

/-- What leads to a number ends in, and between two numbers begins with, another character than a number's. -/
structure Leads (T : PyText) (lead : Re) (name : String) (more : List (Re × String)) : Prop where
  first : Re.Ends (fun x => ¬ TokenChar T x) lead
  later : ∀ p ∈ more, Re.Begins (fun x => ¬ TokenChar T x) p.1 ∧ Re.Ends (fun x => ¬ TokenChar T x) p.1
  names : (name :: more.map Prod.snd).Nodup

theorem link_linkWord (hT : T.Numeric) (word : String) :
    Re.Begins (fun x => ¬ TokenChar T x) (linkWord T word) ∧
      Re.Ends (fun x => ¬ TokenChar T x) (linkWord T word) :=
  ⟨(begins_linkWord T word).mono fun _ => not_tokenChar_of_space hT,
    (ends_linkWord T word).mono fun _ => not_tokenChar_of_space hT⟩

/-- What ends in `from` or `of` leads to a number. -/
theorem ends_lead (hT : T.Numeric) (word : String) (rs : List Re) (hrs : ∀ r ∈ rs, r.Silent) :
    Re.Ends (fun x => ¬ TokenChar T x) (Re.seqs (rs ++ [leadWord T word])) :=
  Re.Ends.seqs_concat hrs ((ends_leadWord T word).mono fun _ => not_tokenChar_of_space hT)

theorem not_tokenChar_particle (hT : T.Numeric) {x : Char} (hx : "从到增长".toList.contains x = true) :
    ¬ TokenChar T x := by
  have hparticle : x = '从' ∨ x = '到' ∨ x = '增' ∨ x = '长' := by simpa using hx
  rintro (hdecimal | hpunctuation)
  · rw [hT.particle_decimal x hx] at hdecimal
    cases hdecimal
  · rcases hparticle with rfl | rfl | rfl | rfl <;> exact absurd hpunctuation (by decide)

/-- A particle and the spaces behind it. -/
theorem begins_particle (hT : T.Numeric) {s : String} {x : Char} (hs : s.toList = [x])
    (hx : "从到增长".toList.contains x = true) :
    Re.Begins (fun x => ¬ TokenChar T x) (Re.seqs [exactly s, spaces T]) ∧
      Re.Ends (fun x => ¬ TokenChar T x) (Re.seqs [exactly s, spaces T]) := by
  have hother : ∀ y, (x == y) = true → ¬ TokenChar T y := by
    intro y hy
    rw [← beq_iff_eq.mp hy]
    exact not_tokenChar_particle hT hx
  have hspaces : Re.Within (fun x => ¬ TokenChar T x) (spaces T) :=
    Re.within_rep fun _ => not_tokenChar_of_space hT
  have hword : exactly s = Re.seqs [.cls fun y => x == y] := by
    unfold exactly Re.lit
    rw [hs]
    rfl
  have hbegins : Re.Begins (fun x => ¬ TokenChar T x) (exactly s) := by
    rw [hword]
    exact (Re.begins_cls hother).seqs_cons (by simp)
  have hwithin : Re.Within (fun x => ¬ TokenChar T x) (exactly s) := by
    rw [hword]
    exact (Re.within_cls hother).seq Re.within_eps
  have hboth : Re.Begins (fun x => ¬ TokenChar T x) (Re.seqs [exactly s, spaces T]) :=
    hbegins.seqs_cons (by simp)
  exact ⟨hboth, hboth.ends (hwithin.seq (hspaces.seq Re.within_eps))⟩

theorem leads_growthRate (hT : T.Numeric) :
    Leads T (.seqs [wordBoundary T,
      .alt (caseless T "growth")
        (.alt (.seqs [caseless T "growth", someSpaces T, caseless T "rate"])
          (.alt (.seqs [caseless T "percentage", someSpaces T, caseless T "growth"])
            (.seqs [caseless T "revenue", someSpaces T, caseless T "growth"]))),
      wordBoundary T, anything, leadWord T "from"]) "previous" [(linkWord T "to", "current")] where
  first := ends_lead hT "from" [_, _, _, _] (by simp [Re.Silent, Re.seqs])
  later := by simpa using link_linkWord hT "to"
  names := by simp

theorem leads_chinese (hT : T.Numeric) :
    Leads T (.seqs [.alt (exactly "增长率") (exactly "增长百分比"), anything, exactly "从", spaces T]) "previous"
      [(.seqs [spaces T, .opt (exactly "增长"), exactly "到", spaces T], "current")] where
  first := by
    have hrest := (begins_particle hT (s := "从") rfl rfl).2
    have halt : (Re.alt (exactly "增长率") (exactly "增长百分比")).Silent := ⟨silent_exactly _, silent_exactly _⟩
    exact halt.within.seq_ends (silent_anything.within.seq_ends hrest)
  later := by
    intro p hp
    obtain rfl := List.mem_singleton.mp hp
    obtain ⟨hbegins, hends⟩ := begins_particle hT (s := "到") rfl rfl
    have hspaces : Re.Within (fun x => ¬ TokenChar T x) (spaces T) :=
      Re.within_rep fun _ => not_tokenChar_of_space hT
    have hgrow : Re.Within (fun x => ¬ TokenChar T x) (.opt (exactly "增长")) := by
      refine Re.Within.opt (Re.within_lit fun x hx y hy => ?_)
      rw [← beq_iff_eq.mp hy]
      have hx' : x = '增' ∨ x = '长' := by simpa using hx
      rcases hx' with rfl | rfl <;> exact not_tokenChar_particle hT rfl
    exact ⟨hspaces.seq_begins (hgrow.seq_begins hbegins), hspaces.seq_ends (hgrow.seq_ends hends)⟩
  names := by simp

theorem leads_quotient (hT : T.Numeric) (metric link : String) :
    Leads T (.seqs [wordBoundary T, caseless T metric, wordBoundary T, anything, leadWord T "of"]) "numerator"
      [(linkWord T link, "denominator")] where
  first := ends_lead hT "of" [_, _, _, _] (by simp)
  later := by simpa using link_linkWord hT link
  names := by simp

theorem leads_cagr (hT : T.Numeric) :
    Leads T (.seqs [wordBoundary T, caseless T "cagr", wordBoundary T, anything, leadWord T "from"])
      "starting_value" [(linkWord T "to", "ending_value"), (linkWord T "over", "periods")] where
  first := ends_lead hT "from" [_, _, _, _] (by simp)
  later := by
    intro p hp
    rcases List.mem_cons.mp hp with rfl | hp
    · exact link_linkWord hT "to"
    · obtain rfl := List.mem_singleton.mp hp
      exact link_linkWord hT "over"
  names := by simp

end Patterns

/-! ## What a question is read with -/

/-- Names that are pairwise different find their own texts. -/
theorem lookup_of_mem {entries : List (String × String)} (hnodup : (entries.map Prod.fst).Nodup)
    {entry : String × String} (h : entry ∈ entries) : entries.lookup entry.1 = some entry.2 := by
  induction entries with
  | nil => cases h
  | cons first rest ih =>
    rw [List.map_cons, List.nodup_cons] at hnodup
    rw [List.lookup_cons]
    rcases List.mem_cons.mp h with rfl | h
    · rw [beq_self_eq_true]
    · have hne : entry.1 ≠ first.1 := by
        intro heq
        exact hnodup.1 (heq ▸ List.mem_map_of_mem h)
      rw [beq_false_of_ne hne]
      exact ih hnodup.2 h

/-- The groups of a match by their names. -/
theorem map_group {m : Re.Cursor} {names texts : List String} (hnodup : names.Nodup)
    (hlength : names.length = texts.length) (hgroups : m.groups = (names.zip texts).reverse) :
    names.map m.group = texts := by
  have hnames : (m.groups.map Prod.fst).Nodup := by
    rw [hgroups, List.map_reverse, List.nodup_reverse, List.map_fst_zip (by omega)]
    exact hnodup
  have hall : ∀ entry ∈ names.zip texts, m.group entry.1 = entry.2 := by
    intro entry hentry
    unfold Re.Cursor.group
    rw [lookup_of_mem hnames (by rw [hgroups]; exact List.mem_reverse.mpr hentry)]
    rfl
  calc names.map m.group = ((names.zip texts).map Prod.fst).map m.group := by
        rw [List.map_fst_zip (by omega)]
    _ = (names.zip texts).map Prod.snd := by
        rw [List.map_map]
        exact List.map_congr_left hall
    _ = texts := List.map_snd_zip (by omega)

/-- A pattern is taken: it matches, and there is a token for each of its numbers. -/
def MetricPattern.Accepts (T : PyText) (text : String) (p : MetricPattern) : Prop :=
  (p.regex.find text).isSome = true ∧ (numericTokens T text).length = p.parameterNames.length

variable {V : Type} {N : Numerals V} {text : String}

/-- An invocation comes from the match of a pattern. -/
def ComesFrom (T : PyText) (N : Numerals V) (text : String) (p : MetricPattern)
    (inv : FinancialMetricInvocation V) : Prop :=
  ∃ m, p.regex.find text = some m ∧ (numericTokens T text).length = p.parameterNames.length ∧
    readParameters T N m p.parameterNames = .ok inv.parameters

theorem ComesFrom.accepts {p : MetricPattern} {inv : FinancialMetricInvocation V}
    (h : ComesFrom T N text p inv) : p.Accepts T text := by
  obtain ⟨m, hm, hlength, -⟩ := h
  exact ⟨by rw [hm]; rfl, hlength⟩

/-- **One turn of the loop**: the pattern is taken, or it is not and the loop goes on. -/
theorem firstMetric_cons {p : MetricPattern} {ps : List MetricPattern} {inv : FinancialMetricInvocation V}
    (h : firstMetric T N text (p :: ps) = some inv) :
    ComesFrom T N text p inv ∨ ¬ p.Accepts T text ∧ firstMetric T N text ps = some inv := by
  unfold firstMetric at h
  split at h
  · rename_i hnone
    refine .inr ⟨fun haccepts => ?_, h⟩
    have hsome := haccepts.1
    rw [hnone] at hsome
    cases hsome
  · rename_i m hm
    split at h
    · rename_i hlength
      exact .inr ⟨fun haccepts => hlength haccepts.2, h⟩
    · rename_i hlength
      split at h
      · rename_i parameters hparameters
        obtain rfl := Option.some.inj h
        exact .inl ⟨m, hm, not_not.mp hlength, hparameters⟩
      · cases h

/-- The values of the parameters. -/
def FinancialMetricInvocation.values (inv : FinancialMetricInvocation V) : List (Except String V) :=
  inv.parameters.map fun p => .ok p.2

/-- The values of whole tokens. -/
def tokenValues (T : PyText) (N : Numerals V) (tokens : List Re.Cursor) : List (Except String V) :=
  tokens.map fun token => N.decimalToNumber T (tokenText token)

theorem values_of_readParameters {m : Re.Cursor} {names : List String} {parameters : List (String × V)}
    (h : readParameters T N m names = .ok parameters) :
    (parameters.map fun p => (Except.ok p.2 : Except String V)) =
      (names.map m.group).map (N.decimalToNumber T) := by
  rw [List.map_map]
  refine PyList.map_eq_of_mapM_eq_ok h fun name _ p hp => ?_
  obtain ⟨v, hv, hret⟩ := PyList.bind_eq_ok.mp hp
  obtain rfl := Except.ok.inj hret
  exact hv.symm

/-- **All but the last parameter are the values of whole tokens**, each of its own, and the last is read as
    `Q` says. -/
theorem values_of_comesFrom (hT : T.Numeric) {operation : FinancialMetricOperation} {trail lead : Re}
    {name : String} {more : List (Re × String)} {Q : String → String → Bool → Prop}
    (htrail : TrailReads T text.toList.length trail Q) (hleads : Leads T lead name more)
    {inv : FinancialMetricInvocation V}
    (h : ComesFrom T N text (metricPattern T operation text.toList.length trail ((lead, name) :: more)) inv) :
    ∃ init last lastText, numericTokens T text = init ++ [last] ∧
      inv.values = tokenValues T N init ++ [N.decimalToNumber T lastText] ∧
      Q lastText (tokenText last) (isOpen T last) := by
  obtain ⟨m, hm, hlength, hparameters⟩ := h
  obtain ⟨before, prev, rest, htext, hhead⟩ := Re.findFrom_eq_some hm
  obtain ⟨init, lastText, last, hsub, hcount, hgroups, hQ⟩ := exists_tokens hT htrail more lead name
    hleads.first hleads.later _ m before 0 none (Nat.zero_le _) hhead
  -- as many tokens as numbers: there are no others
  have htokens : init ++ [last] = numericTokens T text := by
    refine List.Sublist.eq_of_length ?_ ?_
    · unfold numericTokens Re.finditer
      rw [htext] at hsub ⊢
      exact hsub
    · rw [hlength, List.length_append, hcount]
      unfold metricPattern
      rw [List.length_map]
      rfl
  have hnames : (name :: more.map Prod.snd).map m.group = init.map tokenText ++ [lastText] := by
    refine map_group hleads.names ?_ ?_
    · rw [List.length_cons, List.length_map, List.length_append, List.length_map, hcount]
      rfl
    · rw [hgroups, List.append_nil]
  refine ⟨init, last, lastText, htokens.symm, ?_, hQ⟩
  unfold FinancialMetricInvocation.values tokenValues
  have hvalues := values_of_readParameters hparameters
  have hspec : (metricPattern T operation text.toList.length trail ((lead, name) :: more)).parameterNames =
      name :: more.map Prod.snd := rfl
  rw [hvalues, hspec, hnames, List.map_append, List.map_map]
  rfl

/-- The last number decides. -/
theorem perm_iff_last {inv : FinancialMetricInvocation V} {init : List Re.Cursor} {last : Re.Cursor}
    {lastText : String} (hvalues : inv.values = tokenValues T N init ++ [N.decimalToNumber T lastText]) :
    inv.values.Perm (tokenValues T N (init ++ [last])) ↔
      N.decimalToNumber T lastText = N.decimalToNumber T (tokenText last) := by
  unfold tokenValues at hvalues ⊢
  rw [hvalues, List.map_append, List.perm_append_left_iff, List.map_singleton]
  constructor
  · exact fun h => List.singleton_inj.mp (List.perm_singleton.mp h)
  · intro h
    rw [h]

/-- The last token is open, or its last part makes no difference. -/
def LastTokenWhole (T : PyText) (N : Numerals V) (text : String) : Prop :=
  ∀ token ∈ (numericTokens T text).getLast?, isOpen T token = true ∨
    N.decimalToNumber T (withoutLastPart (tokenText token)) = N.decimalToNumber T (tokenText token)

theorem lastTokenWhole_iff {init : List Re.Cursor} {last : Re.Cursor}
    (htokens : numericTokens T text = init ++ [last]) :
    LastTokenWhole T N text ↔ isOpen T last = true ∨
      N.decimalToNumber T (withoutLastPart (tokenText last)) = N.decimalToNumber T (tokenText last) := by
  unfold LastTokenWhole
  rw [htokens, List.getLast?_concat]
  simp

/-- Behind a boundary: the values are those of the tokens exactly when the last token is whole. -/
theorem perm_iff_of_boundary (hT : T.Numeric) {operation : FinancialMetricOperation} {lead : Re}
    {name : String} {more : List (Re × String)} (hleads : Leads T lead name more)
    {inv : FinancialMetricInvocation V}
    (h : ComesFrom T N text
      (metricPattern T operation text.toList.length (wordBoundary T) ((lead, name) :: more)) inv) :
    inv.values.Perm (tokenValues T N (numericTokens T text)) ↔ LastTokenWhole T N text := by
  obtain ⟨init, last, lastText, htokens, hvalues, hQ⟩ :=
    values_of_comesFrom hT (trailReads_boundary hT) hleads h
  rw [lastTokenWhole_iff htokens, htokens, perm_iff_last hvalues]
  rcases hQ with ⟨rfl, hopen⟩ | ⟨hclosed, rfl⟩
  · exact iff_of_true rfl (.inl hopen)
  · constructor
    · exact .inr
    · rintro (hopen | hsame)
      · rw [hclosed] at hopen
        cases hopen
      · exact hsame

/-- **The values a question is read with are those of its numeric tokens exactly when** the question is
    accepted in Chinese, or no word character follows its last token, or the last token has the same value
    without its decimal part (without its last thousands group, where it has no decimal part). -/
theorem parameters_are_tokens_iff (T : PyText) (hT : T.Numeric) (N : Numerals V) (question : String)
    (inv : FinancialMetricInvocation V) (h : parseFinancialMetricQuery T N question = some inv) :
    let text := normalizedQuestion T question
    let n := text.toList.length
    inv.values.Perm (tokenValues T N (numericTokens T text)) ↔
      ((chineseGrowthRatePattern T n).Accepts T text ∧ ¬ (cagrPattern T n).Accepts T text ∧
        ¬ (growthRatePattern T n).Accepts T text) ∨ LastTokenWhole T N text := by
  intro text n
  have hloop : firstMetric T N text (metricPatterns T n) = some inv := by
    unfold parseFinancialMetricQuery at h
    dsimp only at h
    split at h
    · cases h
    · exact h
  rcases firstMetric_cons hloop with hcagr | ⟨hnotCagr, hloop⟩
  · -- a space stands behind the last number
    have htrail : Re.Begins (fun x => T.isSpace x = true)
        (.seqs [someSpaces T,
          .alt (.seq (caseless T "period") (.opt (caseless T "s")))
            (.seq (caseless T "year") (.opt (caseless T "s"))),
          wordBoundary T]) :=
      (begins_someSpaces T).seqs_cons (by simp [Re.Silent, Re.opt])
    obtain ⟨init, last, lastText, htokens, hvalues, rfl, hopen⟩ :=
      values_of_comesFrom hT (trailReads_spaces hT htrail) (leads_cagr hT) hcagr
    rw [lastTokenWhole_iff htokens, htokens, perm_iff_last hvalues]
    exact iff_of_true rfl (.inr (.inl hopen))
  rcases firstMetric_cons hloop with hgrowth | ⟨hnotGrowth, hloop⟩
  · rw [perm_iff_of_boundary hT (leads_growthRate hT) hgrowth]
    exact (or_iff_right fun hchinese => hchinese.2.2 hgrowth.accepts).symm
  rcases firstMetric_cons hloop with hchinese | ⟨hnotChinese, hloop⟩
  · obtain ⟨init, last, lastText, htokens, hvalues, rfl⟩ :=
      values_of_comesFrom hT trailReads_eps (leads_chinese hT) hchinese
    refine iff_of_true ?_ (.inl ⟨hchinese.accepts, hnotCagr, hnotGrowth⟩)
    rw [htokens, perm_iff_last hvalues]
  have hnot : ¬ ((chineseGrowthRatePattern T n).Accepts T text ∧ ¬ (cagrPattern T n).Accepts T text ∧
      ¬ (growthRatePattern T n).Accepts T text) := fun hchinese => hnotChinese hchinese.1
  rw [or_iff_right hnot]
  rcases firstMetric_cons hloop with hmargin | ⟨-, hloop⟩
  · exact perm_iff_of_boundary hT (leads_quotient hT "margin" "on") hmargin
  rcases firstMetric_cons hloop with hratio | ⟨-, hloop⟩
  · exact perm_iff_of_boundary hT (leads_quotient hT "ratio" "to") hratio
  · cases hloop

/-- Digits as they are, numbers as they are. -/
def decimals : Numerals ℚ where
  digit c := c.toNat - '0'.toNat
  int n := n
  float q := q

/-- **A number that a word character follows is cut**: 120.5x is read as 120. -/
theorem number_cut_before_word :
    ∃ inv, parseFinancialMetricQuery .ascii decimals "growth from 100 to 120.5x" = some inv ∧
      inv.values = [.ok 100, .ok 120] ∧
      tokenValues .ascii decimals
        (numericTokens .ascii (normalizedQuestion .ascii "growth from 100 to 120.5x")) =
          [.ok 100, .ok (241 / 2)] ∧
      ¬ inv.values.Perm (tokenValues .ascii decimals
        (numericTokens .ascii (normalizedQuestion .ascii "growth from 100 to 120.5x"))) := by
  have hparse : (parseFinancialMetricQuery .ascii decimals "growth from 100 to 120.5x").any
      (fun inv => inv.values == [.ok 100, .ok 120]) = true := by decide +kernel
  have htokens : tokenValues .ascii decimals
      (numericTokens .ascii (normalizedQuestion .ascii "growth from 100 to 120.5x")) =
        [.ok 100, .ok (241 / 2)] := by decide +kernel
  obtain ⟨inv, hinv, hvalues⟩ := (Option.any_eq_true _ _).mp hparse
  have hdiffer : ¬ [Except.ok 100, .ok 120].Perm
      ([.ok 100, .ok (241 / 2)] : List (Except String ℚ)) := by decide +kernel
  refine ⟨inv, hinv, beq_iff_eq.mp hvalues, htokens, ?_⟩
  rw [beq_iff_eq.mp hvalues, htokens]
  exact hdiffer

theorem parameters_are_tokens_sample :
    ∃ inv, parseFinancialMetricQuery .ascii decimals "growth from 1,000 to 2,500.5" = some inv ∧
      inv.values.Perm (tokenValues .ascii decimals
        (numericTokens .ascii (normalizedQuestion .ascii "growth from 1,000 to 2,500.5"))) := by
  have hparse : (parseFinancialMetricQuery .ascii decimals "growth from 1,000 to 2,500.5").any
      (fun _ => true) = true := by decide +kernel
  have hopen : (numericTokens .ascii (normalizedQuestion .ascii "growth from 1,000 to 2,500.5")).getLast?.all
      (isOpen .ascii) = true := by decide +kernel
  obtain ⟨inv, hinv, -⟩ := (Option.any_eq_true _ _).mp hparse
  refine ⟨inv, hinv, (parameters_are_tokens_iff .ascii PyText.numeric_ascii decimals _ inv hinv).mpr (.inr ?_)⟩
  intro token htoken
  rw [Option.mem_def] at htoken
  rw [htoken] at hopen
  exact .inl hopen

end FinancialRag.Agent
