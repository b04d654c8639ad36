/-
  Which payment cards the scan of a training text finds (`_CARD_CANDIDATE_PATTERN`, `_scan_sensitive_text`).

  The pattern goes on as far as it can: from a run of digits it takes in further runs behind single blanks and
  hyphens, up to 19 digits, and what it has read is not read again.  A card beside another number is then only a
  part of a candidate, and the candidate as a whole fails the Luhn check.

  * `head?_ends_cardCandidate` — what the pattern matches at a place, as a stretch of digits.
  * `cardCandidates_eq_packed` — the candidates of a text, as its runs of digits packed greedily.
  * `card_rejected_iff` — so a text with a card is rejected exactly when another pattern is found in it, or one of
    the packed stretches passes the check.
-/
import FinancialRag.Training.Splits

set_option linter.unusedVariables false

namespace FinancialRag.Training

/-! ## The pattern at one place -/

/-- What may stand between two digits of a card. -/
def isJoin (c : Char) : Bool := " -".toList.contains c

/-- The text behind a digit and, if there is one, the blank or hyphen behind it; and how much that is. -/
def afterJoin : List Char → Nat × List Char
  | [] => (1, [])
  | c :: cs => if isJoin c then (2, cs) else (1, c :: cs)

/-- The length of a stretch of this many digits, single blanks and hyphens between them, that ends where a run of
    digits does. -/
def stretch (isDecimal : Char → Bool) : Nat → List Char → Option Nat
  | 0, _ => none
  | _ + 1, [] => none
  | count + 1, c :: cs =>
    if !isDecimal c then none
    else if count = 0 then (if cs.head?.any isDecimal then none else some 1)
    else (stretch isDecimal count (afterJoin cs).2).map ((afterJoin cs).1 + ·)

/-- `[m + n + 1, …, m + 1]` -/
def counts (m n : Nat) : List Nat := (List.range' (m + 1) (n + 1)).reverse

/-- `\d(?!\d)` -/
def lastDigit (T : PyText) : Re := .seq (.cls T.isDecimal) (.seq (.notAhead T.isDecimal) .eps)

section Pattern

variable {T : PyText}

theorem ends_lastDigit (c : Re.Cursor) :
    (lastDigit T).ends c = ((stretch T.isDecimal 1 c.rest).toList).map c.advance := by
  obtain ⟨prev, rest, groups⟩ := c
  unfold lastDigit
  simp only [Re.ends]
  cases rest with
  | nil => rfl
  | cons x xs =>
    cases hx : T.isDecimal x with
    | false => simp [stretch, hx]
    | true =>
      cases hnext : xs.head?.any T.isDecimal with
      | true => simp [stretch, hx, hnext, Re.Cursor.advance]
      | false => simp [stretch, hx, hnext, Re.Cursor.advance]

/-- Lengths behind a digit and what joins it to the next. -/
def afterDigit (isDecimal : Char → Bool) (lengths : List Char → List Nat) : List Char → List Nat
  | [] => []
  | c :: cs => if isDecimal c then (lengths (afterJoin cs).2).map ((afterJoin cs).1 + ·) else []

/-- What goes on behind `\d[ -]?`, where nothing goes on at a blank or hyphen. -/
theorem ends_cardDigit {X : Re} (lengths : List Char → List Nat)
    (hX : ∀ c, X.ends c = (lengths c.rest).map c.advance)
    (hjoin : ∀ x xs, isJoin x = true → lengths (x :: xs) = []) (c : Re.Cursor) :
    (Re.seq (cardDigit T) X).ends c = (afterDigit T.isDecimal lengths c.rest).map c.advance := by
  have hplain : (cardDigit T).Plain := ⟨trivial, trivial, trivial⟩
  have hends : (Re.seq (cardDigit T) X).ends c =
      (((cardDigit T).lengths c.rest).flatMap fun k => (lengths (c.rest.drop k)).map (k + ·)).map c.advance := by
    show ((cardDigit T).ends c).flatMap X.ends = _
    rw [Re.ends_eq_map_lengths hplain, List.flatMap_map, List.map_flatMap]
    congr 1
    funext k
    rw [hX, Re.rest_advance, List.map_map]
    exact List.map_congr_left fun n _ => Re.advance_advance c k n
  rw [hends]
  congr 1
  have hdigit : cardDigit T = .seq (.cls T.isDecimal) (.alt (.cls isJoin) .eps) := rfl
  obtain ⟨prev, rest, groups⟩ := c
  show _ = afterDigit T.isDecimal lengths rest
  rw [hdigit]
  cases rest with
  | nil => rfl
  | cons x xs =>
    cases hx : T.isDecimal x with
    | false => simp [Re.lengths, afterDigit, hx]
    | true =>
      cases xs with
      | nil => simp [Re.lengths, afterDigit, afterJoin, hx]
      | cons y ys =>
        cases hy : isJoin y with
        | false => simp [Re.lengths, afterDigit, afterJoin, hx, hy]
        | true =>
          -- nothing goes on behind the digit alone
          simp [Re.lengths, afterDigit, afterJoin, hx, hy, hjoin y ys hy]

theorem stretch_of_join {x : Char} (hx : T.isDecimal x = false) (count : Nat) (xs : List Char) :
    stretch T.isDecimal count (x :: xs) = none := by
  cases count with
  | zero => rfl
  | succ count => simp [stretch, hx]

/-- One more digit in front. -/
theorem filterMap_stretch_succ {ts : List Nat} (hpos : ∀ t ∈ ts, 0 < t) (s : List Char) :
    (ts.map (· + 1)).filterMap (fun t => stretch T.isDecimal t s) =
      afterDigit T.isDecimal (fun s' => ts.filterMap fun t => stretch T.isDecimal t s') s := by
  rw [List.filterMap_map]
  cases s with
  | nil => exact List.filterMap_eq_nil_iff.mpr fun t _ => rfl
  | cons c cs =>
    cases hc : T.isDecimal c with
    | false =>
      simp only [afterDigit, hc, Bool.false_eq_true, if_false]
      exact List.filterMap_eq_nil_iff.mpr fun t _ => stretch_of_join hc (t + 1) cs
    | true =>
      simp only [afterDigit, hc, if_true]
      rw [List.map_filterMap]
      refine List.filterMap_congr fun t ht => ?_
      have hne : t ≠ 0 := (hpos t ht).ne'
      simp [stretch, hc, hne]

theorem counts_succ_left (m n : Nat) : counts (m + 1) n = (counts m n).map (· + 1) := by
  have hshift := List.map_add_range' (a := 1) (m + 1) (n + 1) 1
  unfold counts
  rw [List.map_reverse, Nat.add_comm (m + 1) 1, ← hshift]
  simp only [Nat.add_comm]

theorem counts_succ_right (n : Nat) : counts 0 (n + 1) = (counts 0 n).map (· + 1) ++ [1] := by
  rw [← counts_succ_left]
  unfold counts
  rw [List.range'_succ, List.reverse_cons]

theorem mem_counts {m n t : Nat} : t ∈ counts m n ↔ m < t ∧ t ≤ m + n + 1 := by
  unfold counts
  rw [List.mem_reverse, List.mem_range'_1]
  omega

/-- **Any number of digits between the two bounds, the most first.** -/
theorem ends_between (hjoin : ∀ x, isJoin x = true → T.isDecimal x = false) (m n : Nat) (c : Re.Cursor) :
    (Re.seq (.between (cardDigit T) n m) (lastDigit T)).ends c =
      ((counts m n).filterMap fun t => stretch T.isDecimal t c.rest).map c.advance := by
  have hnone : ∀ (ts : List Nat) x xs, isJoin x = true →
      (ts.filterMap fun t => stretch T.isDecimal t (x :: xs)) = [] := fun ts x xs hx =>
    List.filterMap_eq_nil_iff.mpr fun t _ => stretch_of_join (hjoin x hx) t xs
  have hpos : ∀ m n, ∀ t ∈ counts m n, 0 < t := fun m n t ht => (Nat.zero_le m).trans_lt (mem_counts.mp ht).1
  induction m generalizing c with
  | zero =>
    induction n generalizing c with
    | zero =>
      have hlast := ends_lastDigit (T := T) c
      show [c].flatMap (lastDigit T).ends = _
      rw [List.flatMap_singleton, hlast]
      congr 1
    | succ n ih =>
      have hmore := ends_cardDigit (T := T) (fun s => (counts 0 n).filterMap fun t => stretch T.isDecimal t s) ih
        (hnone (counts 0 n)) c
      have hsplit : (Re.seq (.between (cardDigit T) (n + 1) 0) (lastDigit T)).ends c =
          (Re.seq (cardDigit T) (.seq (.between (cardDigit T) n 0) (lastDigit T))).ends c ++ (lastDigit T).ends c := by
        show ((((cardDigit T).ends c).flatMap ((cardDigit T).upTo n).ends) ++ [c]).flatMap (lastDigit T).ends = _
        rw [List.flatMap_append, List.flatMap_assoc, List.flatMap_singleton]
        rfl
      rw [hsplit, hmore, counts_succ_right, List.filterMap_append, filterMap_stretch_succ (hpos 0 n), List.map_append,
        ends_lastDigit]
      congr 2
  | succ m ih =>
    have hmore := ends_cardDigit (T := T) (fun s => (counts m n).filterMap fun t => stretch T.isDecimal t s) ih
      (hnone (counts m n)) c
    have hsplit : (Re.seq (.between (cardDigit T) n (m + 1)) (lastDigit T)).ends c =
        (Re.seq (cardDigit T) (.seq (.between (cardDigit T) n m) (lastDigit T))).ends c := by
      show (((cardDigit T).ends c).flatMap (Re.between (cardDigit T) n m).ends).flatMap (lastDigit T).ends = _
      rw [List.flatMap_assoc]
      rfl
    rw [hsplit, hmore, counts_succ_left, filterMap_stretch_succ (hpos m n)]

/-- The stretch that is taken from a place on: the one with the most digits, of at least 13 and at most 19. -/
def longestStretch (isDecimal : Char → Bool) (s : List Char) : Option Nat :=
  ((counts 12 6).filterMap fun t => stretch isDecimal t s).head?

/-- **What the pattern matches.** -/
theorem head?_ends_cardCandidate (hjoin : ∀ x, isJoin x = true → T.isDecimal x = false) (c : Re.Cursor) :
    ((cardCandidatePattern T).ends c).head? =
      if c.prev.any T.isDecimal then none else (longestStretch T.isDecimal c.rest).map c.advance := by
  have hpattern : (cardCandidatePattern T).ends c =
      ((Re.notBehind T.isDecimal).ends c).flatMap (Re.seq (.between (cardDigit T) 6 12) (lastDigit T)).ends := rfl
  rw [hpattern]
  simp only [Re.ends]
  split
  · rfl
  · have hends := ends_between hjoin 12 6 c
    simp only [Re.ends] at hends
    rw [List.flatMap_singleton, hends, List.head?_map]
    rfl

end Pattern

/-! ## The runs of digits of a text -/

/-- A run of digits, and what stands between it and the next one. -/
structure DigitRun where
  digits : List Char
  gap : List Char
  deriving DecidableEq

/-- What stands before the first run, and the runs. -/
def digitRuns (isDecimal : Char → Bool) : List Char → List Char × List DigitRun
  | [] => ([], [])
  | c :: cs =>
    let rest := digitRuns isDecimal cs
    if !isDecimal c then (c :: rest.1, rest.2)
    else
      match rest.1, rest.2 with
      | [], run :: runs => ([], ⟨c :: run.digits, run.gap⟩ :: runs)
      | gap, runs => ([], ⟨[c], gap⟩ :: runs)

/-- The text of some runs. -/
def textOf (runs : List DigitRun) : List Char := runs.flatMap fun run => run.digits ++ run.gap

/-- Runs as they come from a text: digits, and something between them. -/
def Proper (isDecimal : Char → Bool) : List DigitRun → Prop
  | [] => True
  | run :: runs => run.digits ≠ [] ∧ (∀ c ∈ run.digits, isDecimal c = true) ∧ (∀ c ∈ run.gap, isDecimal c = false) ∧
      (runs ≠ [] → run.gap ≠ []) ∧ Proper isDecimal runs

/-- One blank or hyphen stands between the run and the next. -/
def DigitRun.joined (run : DigitRun) : Bool := run.gap.length == 1 && run.gap.all isJoin

/-- The runs that are taken together: as many as are joined and have at most this many digits. -/
def taken (room : Nat) : List DigitRun → List DigitRun
  | [] => []
  | run :: runs =>
    if room < run.digits.length then []
    else run :: (if run.joined then taken (room - run.digits.length) runs else [])

/-- The digits of some runs. -/
def digitsOf (runs : List DigitRun) : List Char := runs.flatMap DigitRun.digits

/-- **The runs packed from left to right**: stretches of at most 19 digits, where they come to at least 13. -/
def packed : Nat → List DigitRun → List (List Char)
  | _, [] => []
  | skip + 1, _ :: runs => packed skip runs
  | 0, run :: runs =>
    if 13 ≤ (digitsOf (taken 19 (run :: runs))).length then
      digitsOf (taken 19 (run :: runs)) :: packed ((taken 19 (run :: runs)).length - 1) runs
    else packed 0 runs

section Runs

variable {isDecimal : Char → Bool}

theorem digitRuns_spec (isDecimal : Char → Bool) (text : List Char) :
    text = (digitRuns isDecimal text).1 ++ textOf (digitRuns isDecimal text).2 ∧
      (∀ c ∈ (digitRuns isDecimal text).1, isDecimal c = false) ∧ Proper isDecimal (digitRuns isDecimal text).2 := by
  induction text with
  | nil => exact ⟨rfl, by simp [digitRuns], trivial⟩
  | cons c cs ih =>
    obtain ⟨htext, hgap, hproper⟩ := ih
    rw [digitRuns]
    generalize digitRuns isDecimal cs = rest at htext hgap hproper
    obtain ⟨gap, runs⟩ := rest
    cases hc : isDecimal c with
    | false =>
      refine ⟨?_, ?_, hproper⟩
      · rw [htext]
        rfl
      · exact List.forall_mem_cons.mpr ⟨hc, hgap⟩
    | true =>
      cases gap with
      | nil =>
        cases runs with
        | nil =>
          refine ⟨by rw [htext]; rfl, by simp, ?_⟩
          exact ⟨List.cons_ne_nil c [], by simp [hc], by simp, fun h => absurd rfl h, trivial⟩
        | cons run runs =>
          obtain ⟨-, hdigits, hafter, hsep, hrest⟩ := hproper
          refine ⟨by rw [htext]; rfl, by simp, ?_⟩
          exact ⟨List.cons_ne_nil c _, List.forall_mem_cons.mpr ⟨hc, hdigits⟩, hafter, hsep, hrest⟩
      | cons g gap =>
        refine ⟨by rw [htext]; rfl, by simp, ?_⟩
        exact ⟨List.cons_ne_nil c [], by simp [hc], hgap, fun _ => List.cons_ne_nil g gap, hproper⟩

/-- Behind the digits of a run there is no digit. -/
theorem head_behind {run : DigitRun} {runs : List DigitRun} (h : Proper isDecimal (run :: runs)) :
    (run.gap ++ textOf runs).head?.any isDecimal = false := by
  obtain ⟨-, -, hgap, hsep, -⟩ := h
  cases hg : run.gap with
  | nil =>
    rw [hg] at hsep
    obtain rfl : runs = [] := by
      by_contra hne
      exact hsep hne rfl
    rfl
  | cons x xs =>
    rw [hg] at hgap
    exact hgap x List.mem_cons_self

/-- The stretch that begins with a run of digits. -/
theorem stretch_digits (hjoin : ∀ x, isJoin x = true → isDecimal x = false) {ds rest : List Char}
    (hds : ∀ c ∈ ds, isDecimal c = true) (hne : ds ≠ []) (hrest : rest.head?.any isDecimal = false) (t : Nat) :
    stretch isDecimal t (ds ++ rest) =
      if t < ds.length then none else if t = ds.length then some ds.length
      else (stretch isDecimal (t - ds.length) (afterJoin rest).2).map (ds.length - 1 + (afterJoin rest).1 + ·) := by
  induction ds generalizing t with
  | nil => exact absurd rfl hne
  | cons d ds ih =>
    obtain ⟨hd, hds⟩ := List.forall_mem_cons.mp hds
    cases t with
    | zero => simp [stretch]
    | succ t =>
      rw [List.cons_append, stretch, hd]
      cases ds with
      | nil =>
        cases t with
        | zero => simp [hrest]
        | succ t => simp
      | cons d' ds =>
        have hd' : isDecimal d' = true := hds d' List.mem_cons_self
        have hnojoin : isJoin d' = false := by
          by_contra hj
          rw [Bool.not_eq_false] at hj
          rw [hjoin d' hj] at hd'
          cases hd'
        have hafter : afterJoin (d' :: ds ++ rest) = (1, d' :: ds ++ rest) := by
          simp [afterJoin, hnojoin]
        rw [hafter]
        simp only
        rw [ih hds (List.cons_ne_nil d' ds)]
        cases t with
        | zero => simp [hd']
        | succ t =>
          simp only [Bool.not_true, Bool.false_eq_true, if_false, Nat.succ_ne_zero, List.length_cons,
            Nat.add_lt_add_iff_right, Nat.add_right_cancel_iff, Nat.add_sub_add_right, Nat.add_sub_cancel]
          split
          · rfl
          · split
            · simp
              omega
            · rw [Option.map_map]
              congr 1
              funext n
              simp
              omega

/-- The runs of a stretch of this many digits. -/
def stretchRuns : Nat → List DigitRun → Option (List DigitRun)
  | _, [] => none
  | t, run :: runs =>
    if t < run.digits.length then none
    else if t = run.digits.length then some [run]
    else if run.joined then (stretchRuns (t - run.digits.length) runs).map (run :: ·) else none

/-- The text of a stretch: that of its runs but for what stands behind the last one. -/
def spanOf : List DigitRun → List Char
  | [] => []
  | [run] => run.digits
  | run :: runs => run.digits ++ run.gap ++ spanOf runs

theorem stretchRuns_ne_nil {t : Nat} {runs k : List DigitRun} (h : stretchRuns t runs = some k) : k ≠ [] := by
  cases runs with
  | nil => cases h
  | cons run runs =>
    rw [stretchRuns] at h
    split at h
    · cases h
    · split at h
      · obtain rfl := Option.some.inj h
        exact List.cons_ne_nil run []
      · split at h
        · obtain ⟨k, -, rfl⟩ := Option.map_eq_some_iff.mp h
          exact List.cons_ne_nil run k
        · cases h

/-- No stretch goes on behind anything but one blank or hyphen. -/
theorem stretch_behind {run : DigitRun} {runs : List DigitRun} (h : Proper isDecimal (run :: runs))
    (hrun : run.joined = false) (t : Nat) :
    stretch isDecimal (t + 1) (afterJoin (run.gap ++ textOf runs)).2 = none := by
  obtain ⟨-, -, hgap, hsep, -⟩ := h
  have hnondigit : ∀ x xs, isDecimal x = false → stretch isDecimal (t + 1) (x :: xs) = none := by
    intro x xs hx
    simp [stretch, hx]
  unfold DigitRun.joined at hrun
  cases hg : run.gap with
  | nil =>
    rw [hg] at hsep
    obtain rfl : runs = [] := by
      by_contra hne
      exact hsep hne rfl
    rfl
  | cons x xs =>
    rw [hg] at hgap hrun
    obtain ⟨hx, hxs⟩ := List.forall_mem_cons.mp hgap
    rw [List.cons_append, afterJoin]
    cases hj : isJoin x with
    | false => exact hnondigit x _ hx
    | true =>
      cases xs with
      | nil => simp [hj] at hrun
      | cons y ys => exact hnondigit y _ (hxs y List.mem_cons_self)

/-- **A stretch of the text is a stretch of its runs.** -/
theorem stretch_textOf (hjoin : ∀ x, isJoin x = true → isDecimal x = false) {runs : List DigitRun}
    (h : Proper isDecimal runs) (t : Nat) :
    stretch isDecimal t (textOf runs) = (stretchRuns t runs).map fun k => (spanOf k).length := by
  induction runs generalizing t with
  | nil => cases t <;> rfl
  | cons run runs ih =>
    have hhead := head_behind h
    have hbehind := stretch_behind h
    obtain ⟨hne, hdigits, hgap, hsep, hproper⟩ := h
    have htext : textOf (run :: runs) = run.digits ++ (run.gap ++ textOf runs) := by
      simp [textOf]
    have hpos : 0 < run.digits.length := List.length_pos_of_ne_nil hne
    rw [htext, stretch_digits hjoin hdigits hne hhead, stretchRuns]
    split
    · rfl
    · split
      · rfl
      · rename_i hmore hother
        obtain ⟨n, hn⟩ : ∃ n, t - run.digits.length = n + 1 := ⟨t - run.digits.length - 1, by omega⟩
        cases hrun : run.joined with
        | false =>
          rw [hn, hbehind hrun]
          rfl
        | true =>
          -- one blank or hyphen, and the next run
          obtain ⟨hlength, hall⟩ := Bool.and_eq_true_iff.mp hrun
          obtain ⟨x, hx⟩ := List.length_eq_one_iff.mp (eq_of_beq hlength)
          rw [hx] at hall
          have hj : isJoin x = true := List.all_eq_true.mp hall x List.mem_cons_self
          have hafter : afterJoin (run.gap ++ textOf runs) = (2, textOf runs) := by
            rw [hx]
            simp [afterJoin, hj]
          rw [hafter, if_pos rfl, ih hproper, Option.map_map, Option.map_map]
          refine Option.map_congr fun k hk => ?_
          cases k with
          | nil => exact absurd rfl (stretchRuns_ne_nil hk)
          | cons next k =>
            simp only [Function.comp, spanOf, List.length_append, hx, List.length_singleton]
            omega

theorem digitsOf_cons (run : DigitRun) (runs : List DigitRun) : digitsOf (run :: runs) = run.digits ++ digitsOf runs :=
  List.flatMap_cons

/-- No stretch has more digits than are taken. -/
theorem le_taken {t room : Nat} {runs k : List DigitRun} (h : stretchRuns t runs = some k) (ht : t ≤ room) :
    t ≤ (digitsOf (taken room runs)).length := by
  induction runs generalizing t room k with
  | nil => cases h
  | cons run runs ih =>
    rw [stretchRuns] at h
    split at h
    · cases h
    · rename_i hlong
      rw [taken, if_neg (by omega), digitsOf_cons, List.length_append]
      split at h
      · omega
      · split at h
        · rename_i hrun
          obtain ⟨k, hk, rfl⟩ := Option.map_eq_some_iff.mp h
          rw [if_pos hrun]
          have hrest := ih hk (show t - run.digits.length ≤ room - run.digits.length by omega)
          omega
        · cases h

theorem digits_taken_pos {room : Nat} {runs : List DigitRun} (h : Proper isDecimal runs) (hne : taken room runs ≠ []) :
    0 < (digitsOf (taken room runs)).length := by
  cases runs with
  | nil => exact absurd rfl hne
  | cons run runs =>
    rw [taken] at hne ⊢
    split at hne
    · exact absurd rfl hne
    · rename_i hroom
      have hpos := List.length_pos_of_ne_nil h.1
      rw [if_neg hroom, digitsOf_cons, List.length_append]
      omega

theorem digits_taken_le (room : Nat) (runs : List DigitRun) : (digitsOf (taken room runs)).length ≤ room := by
  induction runs generalizing room with
  | nil => exact Nat.zero_le _
  | cons run runs ih =>
    rw [taken]
    split
    · exact Nat.zero_le _
    · have hrest := ih (room - run.digits.length)
      rw [digitsOf_cons, List.length_append]
      split
      · omega
      · simp only [digitsOf, List.flatMap_nil, List.length_nil]
        omega

/-- What is taken is a stretch. -/
theorem stretchRuns_taken {room : Nat} {runs : List DigitRun} (h : Proper isDecimal runs) (hne : taken room runs ≠ []) :
    stretchRuns (digitsOf (taken room runs)).length runs = some (taken room runs) := by
  induction runs generalizing room with
  | nil => exact absurd rfl hne
  | cons run runs ih =>
    obtain ⟨-, -, -, -, hproper⟩ := h
    rw [taken] at hne ⊢
    split at hne
    · exact absurd rfl hne
    · rename_i hroom
      rw [if_neg hroom]
      by_cases hmore : run.joined = true ∧ taken (room - run.digits.length) runs ≠ []
      · obtain ⟨hrun, hmore⟩ := hmore
        have hrest := ih hproper hmore
        have hpos := digits_taken_pos hproper hmore
        rw [if_pos hrun, digitsOf_cons, List.length_append, stretchRuns, if_neg (by omega), if_neg (by omega),
          if_pos hrun, Nat.add_sub_cancel_left, hrest]
        rfl
      · have hnone : (if run.joined = true then taken (room - run.digits.length) runs else []) = [] := by
          split
          · rename_i hrun
            by_contra hmore'
            exact hmore ⟨hrun, hmore'⟩
          · rfl
        rw [hnone, digitsOf_cons, stretchRuns]
        simp [digitsOf]

/-- The first success counts down to the number that succeeds. -/
theorem head?_filterMap_counts {β : Type} {f : Nat → Option β} {m n t : Nat} {b : β} (ht : t ∈ counts m n)
    (hb : f t = some b) (hmore : ∀ t', t < t' → t' ≤ m + n + 1 → f t' = none) :
    ((counts m n).filterMap f).head? = some b := by
  obtain ⟨before, after, hsplit⟩ := List.append_of_mem ht
  have hsorted : (counts m n).Pairwise (· > ·) := by
    unfold counts
    rw [List.pairwise_reverse]
    exact List.pairwise_lt_range'
  have hbefore : before.filterMap f = [] := by
    refine List.filterMap_eq_nil_iff.mpr fun t' ht' => ?_
    rw [hsplit] at hsorted
    refine hmore t' ((List.pairwise_append.mp hsorted).2.2 t' ht' t List.mem_cons_self) ?_
    refine (mem_counts.mp ?_).2
    rw [hsplit]
    exact List.mem_append_left _ ht'
  rw [hsplit, List.filterMap_append, hbefore, List.nil_append, List.filterMap_cons_some hb, List.head?_cons]

/-- **The longest stretch is what is taken**, if it is long enough. -/
theorem longestStretch_textOf (hjoin : ∀ x, isJoin x = true → isDecimal x = false) {runs : List DigitRun}
    (h : Proper isDecimal runs) :
    longestStretch isDecimal (textOf runs) =
      if 13 ≤ (digitsOf (taken 19 runs)).length then some (spanOf (taken 19 runs)).length else none := by
  have hmost := digits_taken_le 19 runs
  have hnone : ∀ t, (digitsOf (taken 19 runs)).length < t → t ≤ 19 → stretch isDecimal t (textOf runs) = none := by
    intro t hless hroom
    rw [stretch_textOf hjoin h, Option.map_eq_none_iff]
    by_contra hsome
    obtain ⟨k, hk⟩ := Option.ne_none_iff_exists'.mp hsome
    exact absurd (le_taken hk hroom) (not_le.mpr hless)
  unfold longestStretch
  split
  · rename_i hlong
    have hne : taken 19 runs ≠ [] := by
      intro hnil
      rw [hnil] at hlong
      exact absurd hlong (by decide)
    refine head?_filterMap_counts (mem_counts.mpr ⟨hlong, hmost⟩) ?_ hnone
    rw [stretch_textOf hjoin h, stretchRuns_taken h hne]
    rfl
  · rename_i hshort
    rw [List.filterMap_eq_nil_iff.mpr]
    · rfl
    · intro t ht
      obtain ⟨hmore, hroom⟩ := mem_counts.mp ht
      exact hnone t (by omega) hroom

end Runs

/-! ## The scan -/

/-- What the character tables agree on: a decimal is a digit, and blanks and hyphens are neither. -/
structure Interpreter.Lawful (py : Interpreter) : Prop where
  decimal : ∀ c, py.text.isDecimal c = true → py.isDigit c = true
  join_decimal : ∀ c, isJoin c = true → py.text.isDecimal c = false
  join_digit : ∀ c, isJoin c = true → py.isDigit c = false

section Scan

variable {py : Interpreter}

theorem getLast?_cons_or (x : Char) (l : List Char) (prev : Option Char) :
    (x :: l).getLast?.or prev = l.getLast?.or (some x) := by
  cases l with
  | nil => rfl
  | cons y l =>
    rw [List.getLast?_cons_cons, List.getLast?_eq_some_getLast (List.cons_ne_nil y l)]
    rfl

/-- Nothing is found where there is no digit. -/
theorem findall_gap (hpy : py.Lawful) {gap : List Char} (hgap : ∀ c ∈ gap, py.text.isDecimal c = false)
    (prev : Option Char) (rest : List Char) :
    (cardCandidatePattern py.text).findallFrom prev 0 (gap ++ rest) =
      (cardCandidatePattern py.text).findallFrom (gap.getLast?.or prev) 0 rest := by
  induction gap generalizing prev with
  | nil => rfl
  | cons x gap ih =>
    obtain ⟨hx, hgap⟩ := List.forall_mem_cons.mp hgap
    have hnone : longestStretch py.text.isDecimal (x :: (gap ++ rest)) = none := by
      unfold longestStretch
      rw [List.filterMap_eq_nil_iff.mpr fun t _ => stretch_of_join hx t _]
      rfl
    rw [List.cons_append, Re.findallFrom_none, ih hgap, getLast?_cons_or]
    rw [head?_ends_cardCandidate hpy.join_decimal, hnone]
    split <;> rfl

/-- Nothing is found inside a run. -/
theorem findall_digits (hpy : py.Lawful) {ds : List Char} (hds : ∀ c ∈ ds, py.text.isDecimal c = true)
    {prev : Option Char} (hprev : prev.any py.text.isDecimal = true) (rest : List Char) :
    (cardCandidatePattern py.text).findallFrom prev 0 (ds ++ rest) =
      (cardCandidatePattern py.text).findallFrom (ds.getLast?.or prev) 0 rest := by
  induction ds generalizing prev with
  | nil => rfl
  | cons x ds ih =>
    obtain ⟨hx, hds⟩ := List.forall_mem_cons.mp hds
    have hsome : (some x).any py.text.isDecimal = true := hx
    rw [List.cons_append, Re.findallFrom_none, ih hds hsome, getLast?_cons_or]
    rw [head?_ends_cardCandidate hpy.join_decimal, if_pos hprev]

/-- Behind a run the scan comes to the next one from something that is no digit. -/
theorem findall_behind (hpy : py.Lawful) {run : DigitRun} {runs : List DigitRun}
    (h : Proper py.text.isDecimal (run :: runs)) {found : List (List Char)}
    (hruns : ∀ prev : Option Char, prev.any py.text.isDecimal = false →
      ((cardCandidatePattern py.text).findallFrom prev 0 (textOf runs)).map (digits py) = found)
    (prev : Option Char) :
    ((cardCandidatePattern py.text).findallFrom prev 0 (run.gap ++ textOf runs)).map (digits py) = found := by
  obtain ⟨-, -, hgap, hsep, -⟩ := h
  rw [findall_gap hpy hgap]
  cases hg : run.gap.getLast? with
  | some x =>
    refine hruns (some x) (hgap x ?_)
    exact List.mem_of_getLast? hg
  | none =>
    obtain rfl : runs = [] := by
      by_contra hne
      exact hsep hne (List.getLast?_eq_none_iff.mp hg)
    exact hruns none rfl

theorem taken_prefix (room : Nat) (runs : List DigitRun) : taken room runs <+: runs := by
  induction runs generalizing room with
  | nil => exact List.nil_prefix
  | cons run runs ih =>
    rw [taken]
    split
    · exact List.nil_prefix
    · refine List.prefix_cons_inj run |>.mpr ?_
      split
      · exact ih _
      · exact List.nil_prefix

/-- The digits of the text that is taken. -/
theorem digits_spanOf_taken (hpy : py.Lawful) {runs : List DigitRun} (h : Proper py.text.isDecimal runs) (room : Nat) :
    digits py (spanOf (taken room runs)) = digitsOf (taken room runs) := by
  induction runs generalizing room with
  | nil => rfl
  | cons run runs ih =>
    obtain ⟨-, hdigits, -, -, hproper⟩ := h
    have hkept : digits py run.digits = run.digits :=
      List.filter_eq_self.mpr fun c hc => hpy.decimal c (hdigits c hc)
    rw [taken]
    split
    · rfl
    · split
      · rename_i hrun
        have hgap : digits py run.gap = [] :=
          List.filter_eq_nil_iff.mpr fun c hc => by
            rw [hpy.join_digit c (List.all_eq_true.mp (Bool.and_eq_true_iff.mp hrun).2 c hc)]
            exact Bool.false_ne_true
        have hrest := ih hproper (room - run.digits.length)
        rw [digitsOf_cons, ← hrest]
        cases taken (room - run.digits.length) runs with
        | nil => simpa [spanOf, digits] using hkept
        | cons next more =>
          show digits py (run.digits ++ run.gap ++ spanOf (next :: more)) = _
          unfold digits at hkept hgap ⊢
          rw [List.filter_append, List.filter_append, hkept, hgap, List.append_nil]
      · simpa [spanOf, digitsOf] using hkept

theorem packed_skip (skip : Nat) (runs : List DigitRun) : packed skip runs = packed 0 (runs.drop skip) := by
  induction runs generalizing skip with
  | nil =>
    rw [List.drop_nil]
    cases skip <;> rfl
  | cons run runs ih =>
    cases skip with
    | zero => rfl
    | succ skip => exact ih skip

/-- The text of runs is that of the stretch they make, and what stands behind its last run. -/
theorem textOf_eq_spanOf (runs : List DigitRun) (last : DigitRun) :
    textOf (runs ++ [last]) = spanOf (runs ++ [last]) ++ last.gap := by
  induction runs with
  | nil => simp [textOf, spanOf]
  | cons run runs ih =>
    have hcons : ∀ more, textOf (run :: more) = run.digits ++ run.gap ++ textOf more := fun more => by
      simp [textOf]
    rw [List.cons_append, hcons, ih]
    cases runs with
    | nil => simp [spanOf]
    | cons next runs => simp [spanOf]

theorem Proper.drop {isDecimal : Char → Bool} {before runs : List DigitRun} (h : Proper isDecimal (before ++ runs)) :
    Proper isDecimal runs := by
  induction before with
  | nil => exact h
  | cons run before ih => exact ih h.2.2.2.2

/-- **The scan packs the runs of the text.** -/
theorem findall_textOf (hpy : py.Lawful) (runs : List DigitRun) (h : Proper py.text.isDecimal runs)
    (prev : Option Char) (hprev : prev.any py.text.isDecimal = false) :
    ((cardCandidatePattern py.text).findallFrom prev 0 (textOf runs)).map (digits py) = packed 0 runs := by
  induction hn : runs.length using Nat.strong_induction_on generalizing runs prev with
  | _ n ih =>
    cases runs with
    | nil => rfl
    | cons run runs =>
      have hends : ∀ s, ((cardCandidatePattern py.text).ends ⟨prev, s, []⟩).head? =
          (longestStretch py.text.isDecimal s).map (Re.Cursor.advance ⟨prev, s, []⟩) := by
        intro s
        rw [head?_ends_cardCandidate hpy.join_decimal, if_neg (by rw [hprev]; exact Bool.false_ne_true)]
      have hstretch := longestStretch_textOf hpy.join_decimal h
      rw [packed]
      by_cases hlong : 13 ≤ (digitsOf (taken 19 (run :: runs))).length
      · -- the taken runs are found, and the scan goes on behind them
        rw [if_pos hlong] at hstretch ⊢
        have hdigits := digits_spanOf_taken hpy h 19
        obtain ⟨more, hmore⟩ := taken_prefix 19 (run :: runs)
        have hne : taken 19 (run :: runs) ≠ [] := by
          intro hnil
          rw [hnil] at hlong
          exact absurd hlong (by decide)
        generalize taken 19 (run :: runs) = tk at hlong hstretch hdigits hmore hne
        obtain ⟨front, last, rfl⟩ : ∃ front last, tk = front ++ [last] :=
          ⟨tk.dropLast, tk.getLast hne, (List.dropLast_concat_getLast hne).symm⟩
        have htext : textOf (run :: runs) = spanOf (front ++ [last]) ++ (last.gap ++ textOf more) := by
          rw [← hmore, ← List.append_assoc, ← textOf_eq_spanOf]
          exact List.flatMap_append
        have hspan : spanOf (front ++ [last]) ≠ [] := by
          intro hnil
          rw [hnil] at hdigits
          rw [← hdigits] at hlong
          exact absurd hlong (show ¬ 13 ≤ 0 by decide)
        have hmatch := hends (spanOf (front ++ [last]) ++ (last.gap ++ textOf more))
        rw [← htext, hstretch, htext] at hmatch
        have hproper : Proper py.text.isDecimal (last :: more) := by
          rw [← hmore, List.append_assoc] at h
          exact h.drop
        have hlength : more.length < n := by
          rw [← hn, ← hmore]
          simp
          omega
        have hrest : runs.drop ((front ++ [last]).length - 1) = more := by
          have hdrop : (run :: runs).drop (front ++ [last]).length = more := by
            rw [← hmore, List.drop_left]
          rw [List.length_append, List.length_singleton] at hdrop ⊢
          exact hdrop
        rw [htext, Re.findallFrom_match hspan hmatch, List.map_cons, hdigits, packed_skip, hrest]
        congr 1
        exact findall_behind hpy hproper (fun prev hprev => ih more.length hlength more hproper.2.2.2.2 prev hprev rfl) _
      · -- no match begins in this run
        rw [if_neg hlong] at hstretch ⊢
        have htext : textOf (run :: runs) = run.digits ++ (run.gap ++ textOf runs) := by
          simp [textOf]
        have hbehind := findall_behind hpy h (fun prev hprev => ih runs.length (by rw [← hn]; exact Nat.lt_succ_self _)
          runs h.2.2.2.2 prev hprev rfl)
        obtain ⟨hne, hdigits, -, -, -⟩ := h
        obtain ⟨d, ds, hds⟩ := List.exists_cons_of_ne_nil hne
        rw [hds] at hdigits
        obtain ⟨hd, hdigits⟩ := List.forall_mem_cons.mp hdigits
        have hnone := hends (textOf (run :: runs))
        have hsome : (some d).any py.text.isDecimal = true := hd
        rw [hstretch, htext, hds, List.cons_append] at hnone
        rw [htext, hds, List.cons_append, Re.findallFrom_none hnone, findall_digits hpy hdigits hsome]
        exact hbehind _

/-- **The candidates of a text are its runs of digits, packed.** -/
theorem cardCandidates_eq_packed (hpy : py.Lawful) (text : List Char) :
    (cardCandidates py text).map (digits py) = packed 0 (digitRuns py.text.isDecimal text).2 := by
  obtain ⟨htext, hgap, hproper⟩ := digitRuns_spec py.text.isDecimal text
  have hrest := findall_textOf hpy _ hproper
  unfold cardCandidates
  generalize digitRuns py.text.isDecimal text = rest at htext hgap hproper hrest
  rw [htext, findall_gap hpy hgap]
  refine hrest _ ?_
  cases hlast : rest.1.getLast? with
  | none => rfl
  | some x => exact hgap x (List.mem_of_getLast? hlast)

end Scan

/-! ## Cards in a text -/

/-- A run of 13 to 19 digits that passes the Luhn check, with no digit beside it. -/
def HasCard (py : Interpreter) (text : List Char) : Prop :=
  ∃ before card after, text = before ++ (card ++ after) ∧ (∀ c ∈ card, py.text.isDecimal c = true) ∧
    before.getLast?.any py.text.isDecimal = false ∧ after.head?.any py.text.isDecimal = false ∧
    passesLuhn py card = true

/-- One of the other patterns is found in the text. -/
def otherPatternFound (py : Interpreter) (value : String) : Bool :=
  (sensitivePatterns py.text).any (fun labelled => labelled.2.search value) || (emailPattern py.text).search value ||
    (usSsnPattern py.text).search value || (cnIdPattern py.text).search value ||
    (cnPhonePattern py.text).search value || (internationalPhonePattern py.text).search value

section Cards

variable {py : Interpreter}

/-- A check and those after it. -/
theorem if_invalid_ne_ok {found : Bool} {message : String} {later : Checked Unit} :
    (if found = true then invalid message else later) ≠ .ok () ↔ found = true ∨ later ≠ .ok () := by
  cases found with
  | true => exact iff_of_true not_invalid (Or.inl rfl)
  | false => exact (or_iff_right Bool.false_ne_true).symm

/-- **What a text is rejected for.** -/
theorem scan_rejects_iff (hpy : py.Lawful) {value : String} (hne : value ≠ "") (path : String) :
    scanSensitiveText py value path ≠ .ok () ↔
      otherPatternFound py value = true ∨
        ∃ stretch ∈ packed 0 (digitRuns py.text.isDecimal value.toList).2, passesLuhn py stretch = true := by
  have hcards : ((cardCandidates py value.toList).any fun candidate => passesLuhn py (digits py candidate)) = true ↔
      ∃ stretch ∈ packed 0 (digitRuns py.text.isDecimal value.toList).2, passesLuhn py stretch = true := by
    rw [← cardCandidates_eq_packed hpy, List.any_eq_true]
    simp only [List.mem_map, exists_exists_and_eq_and]
  rw [← hcards]
  unfold scanSensitiveText otherPatternFound
  rw [if_neg hne]
  cases hfind : (sensitivePatterns py.text).find? fun labelled => labelled.2.search value with
  | some labelled =>
    obtain ⟨hfound, -⟩ := List.find?_eq_some_iff_append.mp hfind
    have hany : ((sensitivePatterns py.text).any fun labelled => labelled.2.search value) = true :=
      List.any_eq_true.mpr ⟨labelled, List.mem_of_find?_eq_some hfind, hfound⟩
    rw [hany]
    exact iff_of_true not_invalid (Or.inl rfl)
  | none =>
    have hany : ((sensitivePatterns py.text).any fun labelled => labelled.2.search value) = false :=
      List.any_eq_false.mpr (List.find?_eq_none.mp hfind)
    rw [hany]
    simp only [if_invalid_ne_ok]
    simp only [Bool.or_eq_true, ne_eq, not_true_eq_false, or_false, or_assoc, Bool.false_eq_true, false_or]

theorem ne_empty_of_hasCard {value : String} (h : HasCard py value.toList) : value ≠ "" := by
  rintro rfl
  obtain ⟨before, card, after, htext, -, -, -, hluhn⟩ := h
  have hnil : before ++ (card ++ after) = [] := htext.symm
  obtain ⟨rfl, -⟩ := List.append_eq_nil_iff.mp (List.append_eq_nil_iff.mp hnil).2
  cases hluhn

/-- **When a payment card does not reach the training set**: another pattern is found in the text as well, or some
    stretch of its digits, packed from left to right, passes the check as a whole. -/
theorem card_rejected_iff (hpy : py.Lawful) (value path : String) :
    (HasCard py value.toList → scanSensitiveText py value path ≠ .ok ()) ↔
      ¬ HasCard py value.toList ∨ otherPatternFound py value = true ∨
        ∃ stretch ∈ packed 0 (digitRuns py.text.isDecimal value.toList).2, passesLuhn py stretch = true := by
  rw [imp_iff_not_or]
  by_cases hcard : HasCard py value.toList
  · rw [or_iff_right (not_not.mpr hcard), or_iff_right (not_not.mpr hcard)]
    exact scan_rejects_iff hpy (ne_empty_of_hasCard hcard) path
  · exact iff_of_true (Or.inl hcard) (Or.inl hcard)

/-! ### A card with room around it -/

/-- The runs before a card leave it alone: the last one is not joined to it, or too long to be taken with it. -/
def LeavesAlone (before : List DigitRun) (card : DigitRun) : Prop :=
  ∀ last ∈ before.getLast?, last.joined = true → 19 < last.digits.length + card.digits.length

/-- So does what stands behind it. -/
def LeftAlone (card : DigitRun) (after : List DigitRun) : Prop :=
  ∀ next ∈ after.head?, card.joined = true → 19 < card.digits.length + next.digits.length

theorem taken_prefix_before {before : List DigitRun} {card : DigitRun} {room : Nat} (after : List DigitRun)
    (hne : before ≠ []) (hroom : room ≤ 19) (h : LeavesAlone before card) : taken room (before ++ card :: after) <+: before := by
  induction before generalizing room with
  | nil => exact absurd rfl hne
  | cons run before ih =>
    rw [List.cons_append, taken]
    split
    · exact List.nil_prefix
    · rename_i hfits
      refine (List.prefix_cons_inj run).mpr ?_
      split
      · rename_i hrun
        cases before with
        | nil =>
          -- the card itself does not fit
          have hlong := h run rfl hrun
          have hnone : taken (room - run.digits.length) ([] ++ card :: after) = [] := by
            rw [List.nil_append, taken, if_pos (by omega)]
          exact List.prefix_nil.mpr hnone
        | cons next before =>
          refine ih (List.cons_ne_nil next before) (Nat.le_trans (Nat.sub_le _ _) hroom) ?_
          intro last hlast
          exact h last (by rwa [List.getLast?_cons_cons])
      · exact List.nil_prefix

theorem taken_alone {card : DigitRun} {after : List DigitRun} (hfits : card.digits.length ≤ 19)
    (h : LeftAlone card after) : taken 19 (card :: after) = [card] := by
  rw [taken, if_neg (not_lt.mpr hfits)]
  congr 1
  split
  · rename_i hrun
    cases after with
    | nil => rfl
    | cons next after =>
      have hlong := h next rfl hrun
      rw [taken, if_pos (by omega)]
  · rfl

/-- **A card with room around it is a stretch of its own.** -/
theorem mem_packed {before after : List DigitRun} {card : DigitRun} (hlong : 13 ≤ card.digits.length)
    (hfits : card.digits.length ≤ 19) (h : LeavesAlone before card) (h' : LeftAlone card after) :
    card.digits ∈ packed 0 (before ++ card :: after) := by
  induction hn : before.length using Nat.strong_induction_on generalizing before with
  | _ n ih =>
    cases before with
    | nil =>
      have hdigits : digitsOf [card] = card.digits := by simp [digitsOf]
      rw [List.nil_append, packed, taken_alone hfits h', hdigits, if_pos hlong]
      exact List.mem_cons_self
    | cons run before =>
      have hlater : ∀ k ≤ before.length, card.digits ∈ packed 0 (before.drop k ++ card :: after) := by
        intro k hk
        refine ih (before.drop k).length ?_ ?_ rfl
        · rw [List.length_drop, ← hn, List.length_cons]
          omega
        · intro last hlast
          refine h last ?_
          have hmem : before.drop k ≠ [] := by
            intro hnil
            rw [hnil] at hlast
            cases hlast
          rw [← List.take_append_drop k before, ← List.cons_append, List.getLast?_append_of_ne_nil _ hmem]
          exact hlast
      rw [List.cons_append, packed]
      split
      · refine List.mem_cons_of_mem _ ?_
        have htaken := (taken_prefix_before after (List.cons_ne_nil run before) (le_refl 19) h).length_le
        rw [List.cons_append, List.length_cons] at htaken
        rw [packed_skip, List.drop_append_of_le_length (by omega)]
        exact hlater _ (by omega)
      · exact hlater 0 (Nat.zero_le _)

/-- Such a card does not reach the training set. -/
theorem card_alone_rejected (hpy : py.Lawful) {value : String} {before after : List DigitRun} {card : DigitRun}
    (hruns : (digitRuns py.text.isDecimal value.toList).2 = before ++ card :: after)
    (hluhn : passesLuhn py card.digits = true) (h : LeavesAlone before card) (h' : LeftAlone card after)
    (path : String) : scanSensitiveText py value path ≠ .ok () := by
  have hlength := of_decide_eq_true (Bool.and_eq_true_iff.mp hluhn).1
  have hne : value ≠ "" := by
    rintro rfl
    have hnil : before ++ card :: after = [] := hruns.symm
    exact absurd hnil (by simp)
  refine (scan_rejects_iff hpy hne path).mpr (Or.inr ⟨card.digits, ?_, hluhn⟩)
  rw [hruns]
  exact mem_packed hlength.1 hlength.2 h h'

end Cards

/-! ### Two texts -/

theorem asciiInterpreter_lawful : asciiInterpreter.Lawful := by
  have hjoin : ∀ c, isJoin c = true → c = ' ' ∨ c = '-' := by
    intro c hc
    simpa [isJoin] using hc
  refine ⟨fun c hc => hc, fun c hc => ?_, fun c hc => ?_⟩
  · rcases hjoin c hc with rfl | rfl
    · decide
    · decide
  · rcases hjoin c hc with rfl | rfl
    · decide
    · decide

/-- A number of its own before a card. -/
def cardBehindNumber : String := "12 4111111111111111"

/-- **A number before the card hides it.** -/
theorem card_not_found :
    HasCard asciiInterpreter cardBehindNumber.toList ∧
      scanSensitiveText asciiInterpreter cardBehindNumber "records[0].messages[0]" = .ok () := by
  refine ⟨⟨"12 ".toList, "4111111111111111".toList, [], by decide, List.all_eq_true.mp (by decide), by decide, by decide, by decide⟩, ?_⟩
  decide +kernel

/-- After words it is found. -/
theorem card_found :
    HasCard asciiInterpreter "card 4111111111111111".toList ∧
      scanSensitiveText asciiInterpreter "card 4111111111111111" "records[0].messages[0]" ≠ .ok () := by
  have hcard : HasCard asciiInterpreter "card 4111111111111111".toList :=
    ⟨"card ".toList, "4111111111111111".toList, [], by decide, List.all_eq_true.mp (by decide), by decide, by decide, by decide⟩
  have hstretch : ∃ stretch ∈ packed 0 (digitRuns Char.isDigit "card 4111111111111111".toList).2,
      passesLuhn asciiInterpreter stretch = true :=
    ⟨"4111111111111111".toList, by decide, by decide⟩
  exact ⟨hcard, (card_rejected_iff asciiInterpreter_lawful "card 4111111111111111" "records[0].messages[0]").mpr
    (Or.inr (Or.inr hstretch)) hcard⟩

end FinancialRag.Training
