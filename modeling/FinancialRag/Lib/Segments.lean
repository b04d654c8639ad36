/-
  **Cutting a list into windows, and merging neighbours** — a small library of its own, over arbitrary
  elements.

  `windows` fills a window from the left until the next element does not fit; what the next window
  starts with is `carry` of the full one, so windows may OVERLAP.  `mergeSmall` walks over a list and
  merges every small element into its successor, or, at the end of the list, into its predecessor.

  What a proof needs of them: every element is in some window and none is invented (`mem_windows_iff`);
  merging divides the list into consecutive groups, one for each result (`exists_groups`).
-/
import Mathlib.Data.List.Chain
import Mathlib.Data.List.Forall2
import FinancialRag.Lib.Machine

set_option linter.unusedVariables false

namespace Segments

variable {α γ : Type}

/-! ## Windows -/

/-- A window is never empty. -/
abbrev Window (α : Type) := {w : List α // w ≠ []}

/-- The windows of the rest of a list, with `current` the window being filled. -/
def windows (full : List α → α → Bool) (carry : List α → α → List α) :
    List α → List α → List (Window α)
  | [], [] => []
  | x :: current, [] => [⟨x :: current, List.cons_ne_nil x current⟩]
  | [], y :: ys => windows full carry [y] ys
  | x :: current, y :: ys =>
    if full (x :: current) y then
      ⟨x :: current, List.cons_ne_nil x current⟩ ::
        windows full carry (carry (x :: current) y ++ [y]) ys
    else windows full carry (x :: current ++ [y]) ys

variable {full : List α → α → Bool} {carry : List α → α → List α}

/-- **No element is lost and none is invented**, as long as what is carried over was there. -/
theorem mem_windows_iff (hcarry : ∀ w y x, x ∈ carry w y → x ∈ w) {current ys : List α} {x : α} :
    (∃ w ∈ windows full carry current ys, x ∈ w.val) ↔ x ∈ current ∨ x ∈ ys := by
  fun_induction windows full carry current ys with
  | case1 => simp
  | case2 z current => simp
  | case3 y ys ih =>
    rw [ih]
    simp
  | case4 z current y ys hfull ih =>
    have hnew : x ∈ carry (z :: current) y → x ∈ z :: current := hcarry _ _ _
    have hrest : x ∈ y :: ys ↔ x = y ∨ x ∈ ys := List.mem_cons
    rw [List.exists_mem_cons_iff, ih, List.mem_append, List.mem_singleton, hrest]
    constructor
    · rintro (hw | (hc | hy) | hys)
      · exact Or.inl hw
      · exact Or.inl (hnew hc)
      · exact Or.inr (Or.inl hy)
      · exact Or.inr (Or.inr hys)
    · rintro (hw | hy | hys)
      · exact Or.inl hw
      · exact Or.inr (Or.inl (Or.inr hy))
      · exact Or.inr (Or.inr hys)
  | case5 z current y ys hfull ih =>
    rw [ih]
    simp only [List.mem_append, List.mem_cons, List.not_mem_nil, or_false, or_assoc]

/-! ## Windows as runs of the list -/

/-- The elements of a list between two indices. -/
def run (xs : List α) (b : Nat × Nat) : List α := (xs.drop b.1).take (b.2 - b.1)

/-- A list that is another's part between two indices. -/
structure IsRun (xs w : List α) (b : Nat × Nat) : Prop where
  eq : w = run xs b
  le : b.2 ≤ xs.length

theorem isRun_append (before w after : List α) :
    IsRun (before ++ w ++ after) w (before.length, before.length + w.length) where
  eq := by
    unfold run
    rw [List.append_assoc, List.drop_left, Nat.add_sub_cancel_left, List.take_left]
  le := by
    rw [List.length_append, List.length_append]
    exact Nat.le_add_right _ _

theorem IsRun.length {xs w : List α} {b : Nat × Nat} (h : IsRun xs w b) : w.length = b.2 - b.1 := by
  have hle := h.le
  rw [h.eq, run, List.length_take, List.length_drop]
  omega

/-- How the bounds of a window are followed by those of the next: it ends later, and it begins inside
    the last one or right behind it; if nothing is carried over, it begins behind it. -/
def Follows (alone : Prop) (a b : Nat × Nat) : Prop :=
  a.2 < b.2 ∧ a.1 ≤ b.1 ∧ b.1 ≤ a.2 ∧ (alone → b.1 = a.2)

/-- **The windows are runs of the list**, one after the other, as long as what is carried over is the
    end of a window.  `before` is what lies behind the window being filled. -/
theorem exists_bounds {alone : Prop} (hcarry : ∀ w y, carry w y <:+ w)
    (halone : alone → ∀ w y, carry w y = []) {before current ys xs : List α}
    (hxs : xs = before ++ current ++ ys) (hcurrent : current ≠ []) :
    ∃ first bounds, List.Forall₂ (fun w b => IsRun xs w.val b) (windows full carry current ys)
        (first :: bounds) ∧
      first.1 = before.length ∧ before.length + current.length ≤ first.2 ∧
      (first :: bounds).IsChain (Follows alone) ∧
      ((first :: bounds).getLast (List.cons_ne_nil _ _)).2 = xs.length := by
  fun_induction windows full carry current ys generalizing before with
  | case1 => exact absurd rfl hcurrent
  | case2 z current =>
    refine ⟨(before.length, before.length + (z :: current).length), [], ?_, rfl, le_rfl,
      List.isChain_singleton _, ?_⟩
    · refine .cons ?_ .nil
      rw [hxs]
      exact isRun_append _ _ _
    · rw [hxs, List.append_nil, List.length_append]
      rfl
  | case3 y ys ih => exact absurd rfl hcurrent
  | case4 z current y ys hfull ih =>
    obtain ⟨dropped, hdropped⟩ := hcarry (z :: current) y
    have hall : xs = before ++ dropped ++ (carry (z :: current) y ++ [y]) ++ ys := by
      calc xs = before ++ (dropped ++ carry (z :: current) y) ++ y :: ys := by rw [hxs, hdropped]
        _ = before ++ dropped ++ (carry (z :: current) y ++ [y]) ++ ys := by simp
    have hlength : dropped.length + (carry (z :: current) y).length = (z :: current).length := by
      rw [← List.length_append, hdropped]
    obtain ⟨next, bounds, hruns, hstart, hend, hchain, hlast⟩ := ih hall (by simp)
    rw [List.length_append, List.length_append] at hend
    rw [List.length_append] at hstart
    refine ⟨(before.length, before.length + (z :: current).length), next :: bounds, ?_, rfl, le_rfl,
      List.isChain_cons_cons.mpr ⟨⟨?_, ?_, ?_, ?_⟩, hchain⟩, ?_⟩
    · refine .cons ?_ hruns
      rw [hxs]
      exact isRun_append _ _ _
    · show before.length + (z :: current).length < next.2
      rw [List.length_singleton] at hend
      omega
    · show before.length ≤ next.1
      omega
    · show next.1 ≤ before.length + (z :: current).length
      omega
    · intro h
      have hnone := congrArg List.length (halone h (z :: current) y)
      rw [List.length_nil] at hnone
      show next.1 = before.length + (z :: current).length
      omega
    · rw [List.getLast_cons (List.cons_ne_nil _ _)]
      exact hlast
  | case5 z current y ys hfull ih =>
    have hall : xs = before ++ (z :: current ++ [y]) ++ ys := by
      rw [hxs]
      simp only [List.append_assoc, List.singleton_append]
    obtain ⟨first, bounds, hruns, hstart, hend, hrest⟩ := ih hall (by simp)
    rw [List.length_append] at hend
    exact ⟨first, bounds, hruns, hstart, by omega, hrest⟩

/-- Bounds that follow each other leave no gap. -/
theorem exists_bound {alone : Prop} {first : Nat × Nat} {bounds : List (Nat × Nat)}
    (hchain : (first :: bounds).IsChain (Follows alone)) {i : Nat} (hfrom : first.1 ≤ i)
    (hto : i < ((first :: bounds).getLast (List.cons_ne_nil _ _)).2) :
    ∃ b ∈ first :: bounds, b.1 ≤ i ∧ i < b.2 := by
  induction bounds generalizing first with
  | nil => exact ⟨first, List.mem_cons_self, hfrom, hto⟩
  | cons next bounds ih =>
    obtain ⟨⟨_, _, hgap, _⟩, hrest⟩ := List.isChain_cons_cons.mp hchain
    by_cases hin : i < first.2
    · exact ⟨first, List.mem_cons_self, hfrom, hin⟩
    · rw [List.getLast_cons (List.cons_ne_nil _ _)] at hto
      obtain ⟨b, hb, hib⟩ := ih hrest (by omega) hto
      exact ⟨b, List.mem_cons_of_mem _ hb, hib⟩

/-- What holds of a new window and is kept when an element is added holds of every window. -/
theorem forall_mem_windows {P : List α → Prop} (hone : ∀ y, P [y])
    (hadd : ∀ w y, full w y = false → P (w ++ [y])) (hcarry : ∀ w y, full w y = true → P (carry w y ++ [y]))
    {current ys : List α} (hcurrent : current ≠ [] → P current) :
    ∀ w ∈ windows full carry current ys, P w.val := by
  fun_induction windows full carry current ys with
  | case1 => simp
  | case2 z current => simpa using hcurrent
  | case3 y ys ih => exact ih fun _ => hone y
  | case4 z current y ys hfull ih =>
    exact List.forall_mem_cons.mpr ⟨hcurrent (List.cons_ne_nil _ _), ih fun _ => hcarry _ _ hfull⟩
  | case5 z current y ys hfull ih =>
    exact ih fun _ => hadd _ _ (by simpa using hfull)

/-! ## Merging neighbours -/

/-- At the last element `x`, with `before` what precedes it, backwards. -/
def mergeBack (small : α → Bool) (merge : α → α → α) (x : α) : List α → List α
  | [] => [x]
  | y :: before =>
    if small x then mergeBack small merge (merge y x) before
    else before.reverse ++ [y, x]

/-- At the element `x`, with `before` what precedes it, backwards, and more to come. -/
def mergeForward (small : α → Bool) (merge : α → α → α) (before : List α) (x : α) : List α → List α
  | [] => mergeBack small merge x before
  | y :: rest =>
    if small x then mergeForward small merge before (merge x y) rest
    else mergeForward small merge (x :: before) y rest

/-- The whole loop. -/
def mergeSmall (small : α → Bool) (merge : α → α → α) : List α → List α
  | [] => []
  | x :: rest => mergeForward small merge [] x rest

section Small

variable {small : α → Bool} {merge : α → α → α}

theorem small_mergeBack {before : List α} {x : α} (hbefore : ∀ y ∈ before, small y = false) :
    (mergeBack small merge x before).length ≤ 1 ∨
      ∀ y ∈ mergeBack small merge x before, small y = false := by
  induction before generalizing x with
  | nil => exact Or.inl (Nat.le_refl 1)
  | cons y before ih =>
    rw [mergeBack]
    by_cases hx : small x = true
    · rw [if_pos hx]
      exact ih fun z hz => hbefore z (List.mem_cons_of_mem _ hz)
    · rw [if_neg hx]
      right
      intro z hz
      rcases List.mem_append.mp hz with hz | hz
      · exact hbefore z (List.mem_cons_of_mem _ (List.mem_reverse.mp hz))
      · rcases List.mem_cons.mp hz with rfl | hz
        · exact hbefore z List.mem_cons_self
        · obtain rfl := List.mem_singleton.mp hz
          exact Bool.not_eq_true _ ▸ hx

/-- The invariant: nothing small is left behind. -/
theorem small_mergeForward {before rest : List α} {x : α} (hbefore : ∀ y ∈ before, small y = false) :
    (mergeForward small merge before x rest).length ≤ 1 ∨
      ∀ y ∈ mergeForward small merge before x rest, small y = false := by
  induction rest generalizing before x with
  | nil => exact small_mergeBack hbefore
  | cons y rest ih =>
    rw [mergeForward]
    by_cases hx : small x = true
    · rw [if_pos hx]
      exact ih hbefore
    · rw [if_neg hx]
      refine ih ?_
      intro z hz
      rcases List.mem_cons.mp hz with rfl | hz
      · exact Bool.not_eq_true _ ▸ hx
      · exact hbefore z hz

/-- **At most one element is left, or no small one.** -/
theorem small_mergeSmall (small : α → Bool) (merge : α → α → α) (xs : List α) :
    (mergeSmall small merge xs).length ≤ 1 ∨ ∀ y ∈ mergeSmall small merge xs, small y = false := by
  cases xs with
  | nil => exact Or.inl (Nat.zero_le 1)
  | cons x rest => exact small_mergeForward fun y hy => absurd hy List.not_mem_nil

end Small

/-! ### The loop over the indices -/

/-- One round of the loop that keeps the list and an index into it. -/
def mergeStep (small : α → Bool) (merge : α → α → α) (pending : List α) (index : Nat) :
    Option (List α × Nat) :=
  if h : 1 < pending.length ∧ index < pending.length then
    if !small pending[index] then some (pending, index + 1)
    else if h' : index + 1 < pending.length then
      some (pending.take index ++ [merge pending[index] pending[index + 1]] ++ pending.drop (index + 2),
        index)
    else
      some (pending.take (index - 1) ++ [merge pending[index - 1] pending[index]] ++
        pending.drop (index + 1), index - 1)
  else none

section Loop

variable {small : α → Bool} {merge : α → α → α} {before rest : List α} {x y : α}

theorem mergeStep_end {pending : List α} {index : Nat}
    (h : pending.length ≤ 1 ∨ pending.length ≤ index) : mergeStep small merge pending index = none := by
  unfold mergeStep
  rw [dif_neg (by omega)]

theorem mergeStep_skip (hmany : before ≠ [] ∨ rest ≠ []) (hx : small x = false) :
    mergeStep small merge (before.reverse ++ x :: rest) before.length =
      some (before.reverse ++ x :: rest, before.length + 1) := by
  have hlength : (before.reverse ++ x :: rest).length = before.length + (rest.length + 1) := by simp
  have hpos : 0 < before.length + rest.length := by
    rcases hmany with h | h
    · have hsome := List.length_pos_iff.mpr h
      omega
    · have hsome := List.length_pos_iff.mpr h
      omega
  have hget : ∀ h : before.length < (before.reverse ++ x :: rest).length,
      (before.reverse ++ x :: rest)[before.length] = x := by simp
  unfold mergeStep
  rw [dif_pos ⟨by omega, by omega⟩, hget, hx]
  rfl

theorem mergeStep_forward (hx : small x = true) :
    mergeStep small merge (before.reverse ++ x :: y :: rest) before.length =
      some (before.reverse ++ merge x y :: rest, before.length) := by
  have hlength : (before.reverse ++ x :: y :: rest).length = before.length + (rest.length + 2) := by simp
  have hget : ∀ h : before.length < (before.reverse ++ x :: y :: rest).length,
      (before.reverse ++ x :: y :: rest)[before.length] = x := by simp
  have hnext : ∀ h : before.length + 1 < (before.reverse ++ x :: y :: rest).length,
      (before.reverse ++ x :: y :: rest)[before.length + 1] = y := by simp
  have htake : (before.reverse ++ x :: y :: rest).take before.length = before.reverse := by simp
  have hdrop : (before.reverse ++ x :: y :: rest).drop (before.length + 2) = rest := by
    rw [← List.drop_drop, ← List.length_reverse, List.drop_left]
    rfl
  unfold mergeStep
  rw [dif_pos ⟨by omega, by omega⟩, hget, hx, dif_pos (by omega), hnext, htake, hdrop]
  simp

theorem mergeStep_back (hx : small x = true) :
    mergeStep small merge ((y :: before).reverse ++ [x]) (before.length + 1) =
      some (before.reverse ++ [merge y x], before.length) := by
  have hpending : (y :: before).reverse ++ [x] = before.reverse ++ [y, x] := by simp
  have hlength : (before.reverse ++ [y, x]).length = before.length + 2 := by simp
  have hget : ∀ h : before.length + 1 < (before.reverse ++ [y, x]).length,
      (before.reverse ++ [y, x])[before.length + 1] = x := by simp
  have hprevious : ∀ h : before.length + 1 - 1 < (before.reverse ++ [y, x]).length,
      (before.reverse ++ [y, x])[before.length + 1 - 1] = y := by simp
  have htake : (before.reverse ++ [y, x]).take (before.length + 1 - 1) = before.reverse := by simp
  have hdrop : (before.reverse ++ [y, x]).drop (before.length + 1 + 1) = [] := by
    rw [List.drop_eq_nil_iff, hlength]
  rw [hpending]
  unfold mergeStep
  rw [dif_pos ⟨by omega, by omega⟩, hget, hx, dif_neg (by omega), hprevious, htake, hdrop]
  simp

/-- The body of the loop, on the list and the index together. -/
def mergeBody (small : α → Bool) (merge : α → α → α) (s : List α × Nat) : Option (List α × Nat) :=
  mergeStep small merge s.1 s.2

/-- The next round of the loop merges the neighbours `x` and `y`. -/
def Merges (small : α → Bool) (merge : α → α → α) (s : List α × Nat) (x y : α) : Prop :=
  ∃ pre post, s.1 = pre ++ x :: y :: post ∧ mergeBody small merge s = some (pre ++ merge x y :: post, pre.length)

/-- A list cut at two neighbours. -/
theorem eq_take_append_two {pending : List α} {i : Nat} (h : i + 1 < pending.length) :
    pending = pending.take i ++ pending[i] :: pending[i + 1] :: pending.drop (i + 2) := by
  rw [← List.drop_eq_getElem_cons h, ← List.drop_eq_getElem_cons (by omega : i < pending.length),
    List.take_append_drop]

/-- **A round goes on to the next element, or merges two neighbours**: a small one into its successor, or a
    small last one into its predecessor. -/
theorem mergeBody_cases {s t : List α × Nat} (h : mergeBody small merge s = some t) :
    (∃ x, s.1[s.2]? = some x ∧ small x = false ∧ t = (s.1, s.2 + 1)) ∨
      ∃ pre x y post, s.1 = pre ++ x :: y :: post ∧ t = (pre ++ merge x y :: post, pre.length) ∧
        (s.2 = pre.length ∧ small x = true ∨ s.2 = pre.length + 1 ∧ post = [] ∧ small y = true) := by
  unfold mergeBody mergeStep at h
  split at h
  · rename_i hbounds
    split at h
    · rename_i hlarge
      obtain rfl := Option.some.inj h
      exact .inl ⟨_, List.getElem?_eq_getElem hbounds.2, Bool.not_eq_true' _ ▸ hlarge, rfl⟩
    · rename_i hsmall
      rw [Bool.not_eq_true', Bool.not_eq_false] at hsmall
      split at h
      · rename_i hnext
        obtain rfl := Option.some.inj h
        have hlength : (s.1.take s.2).length = s.2 := List.length_take_of_le (by omega)
        refine .inr ⟨_, _, _, _, eq_take_append_two hnext, ?_, .inl ⟨hlength.symm, hsmall⟩⟩
        rw [hlength]
        simp
      · -- the last element: it goes into the one before it
        rename_i hlast
        obtain rfl := Option.some.inj h
        have hindex : s.2 - 1 + 1 = s.2 := by omega
        have hrest : s.2 - 1 + 2 = s.2 + 1 := by omega
        have hlength : (s.1.take (s.2 - 1)).length = s.2 - 1 := List.length_take_of_le (by omega)
        have hcut := eq_take_append_two (by omega : s.2 - 1 + 1 < s.1.length)
        have hend : s.1.drop (s.2 + 1) = [] := List.drop_eq_nil_of_le (by omega)
        simp only [hindex, hrest] at hcut
        refine .inr ⟨_, _, _, _, hcut, ?_, .inr ⟨?_, hend, hsmall⟩⟩
        · rw [hlength]
          simp
        · rw [hlength, hindex]
  · cases h

theorem ends_mergeBack (small : α → Bool) (merge : α → α → α) (x : α) (before : List α) :
    ∃ index, Machine.Ends (mergeBody small merge) (before.reverse ++ [x], before.length)
      (mergeBack small merge x before, index) := by
  induction before generalizing x with
  | nil => exact ⟨0, .done (mergeStep_end (Or.inl (by simp)))⟩
  | cons y before ih =>
    rw [mergeBack]
    by_cases hx : small x = true
    · obtain ⟨index, hrest⟩ := ih (merge y x)
      rw [if_pos hx]
      exact ⟨index, .next (mergeStep_back hx) hrest⟩
    · have hskip : mergeStep small merge ((y :: before).reverse ++ [x]) (y :: before).length =
          some ((y :: before).reverse ++ [x], (y :: before).length + 1) :=
        mergeStep_skip (Or.inl (List.cons_ne_nil y before)) (Bool.not_eq_true _ ▸ hx)
      have hlist : (y :: before).reverse ++ [x] = before.reverse ++ [y, x] := by simp
      rw [if_neg hx, ← hlist]
      exact ⟨_, .next hskip (.done (mergeStep_end (Or.inr (by simp))))⟩

theorem ends_mergeForward (small : α → Bool) (merge : α → α → α) (before : List α) (x : α)
    (rest : List α) :
    ∃ index, Machine.Ends (mergeBody small merge) (before.reverse ++ x :: rest, before.length)
      (mergeForward small merge before x rest, index) := by
  induction rest generalizing before x with
  | nil => exact ends_mergeBack small merge x before
  | cons y rest ih =>
    rw [mergeForward]
    by_cases hx : small x = true
    · obtain ⟨index, hrest⟩ := ih before (merge x y)
      rw [if_pos hx]
      exact ⟨index, .next (mergeStep_forward hx) hrest⟩
    · obtain ⟨index, hrest⟩ := ih (x :: before) y
      have hlist : (x :: before).reverse ++ y :: rest = before.reverse ++ x :: y :: rest := by simp
      rw [hlist] at hrest
      rw [if_neg hx]
      exact ⟨index, .next (mergeStep_skip (Or.inr (List.cons_ne_nil y rest))
        (Bool.not_eq_true _ ▸ hx)) hrest⟩

/-- **The loop over the indices ends**, and with what `mergeSmall` computes. -/
theorem ends_mergeSmall (small : α → Bool) (merge : α → α → α) (xs : List α) :
    ∃ index, Machine.Ends (mergeBody small merge) (xs, 0) (mergeSmall small merge xs, index) := by
  cases xs with
  | nil => exact ⟨0, .done (mergeStep_end (Or.inl (by simp)))⟩
  | cons x rest => exact ends_mergeForward small merge [] x rest

end Loop

/-! ### Elements that carry more -/

section Map

variable {β : Type} {small : β → Bool} {merge : β → β → β} {merge' : α → α → α} {f : α → β}

theorem mergeBack_map (hf : ∀ x y, f (merge' x y) = merge (f x) (f y)) (x : α) (before : List α) :
    mergeBack small merge (f x) (before.map f) = (mergeBack (fun x => small (f x)) merge' x before).map f := by
  induction before generalizing x with
  | nil => rfl
  | cons y before ih =>
    rw [List.map_cons, mergeBack, mergeBack]
    split
    · rw [← hf, ih]
    · simp

theorem mergeForward_map (hf : ∀ x y, f (merge' x y) = merge (f x) (f y)) (before : List α) (x : α)
    (rest : List α) :
    mergeForward small merge (before.map f) (f x) (rest.map f) =
      (mergeForward (fun x => small (f x)) merge' before x rest).map f := by
  induction rest generalizing before x with
  | nil => exact mergeBack_map hf x before
  | cons y rest ih =>
    rw [List.map_cons, mergeForward, mergeForward]
    split
    · rw [← hf, ih]
    · rw [← List.map_cons, ih]

/-- **Elements that carry more are merged as without it.** -/
theorem mergeSmall_map (hf : ∀ x y, f (merge' x y) = merge (f x) (f y)) (xs : List α) :
    mergeSmall small merge (xs.map f) = (mergeSmall (fun x => small (f x)) merge' xs).map f := by
  cases xs with
  | nil => rfl
  | cons x rest => exact mergeForward_map hf [] x rest

end Map

section Groups

variable {small : α → Bool} {merge : α → α → α} {R : List γ → α → Prop}

theorem groups_mergeBack (hmerge : ∀ g g' x y, R g x → R g' y → R (g ++ g') (merge x y))
    {before : List α} {x : α} {gs : List (List γ)} {g : List γ} (hbefore : List.Forall₂ R gs before)
    (hx : R g x) :
    ∃ groups : List (List γ), groups.flatten = gs.reverse.flatten ++ g ∧
      List.Forall₂ R groups (mergeBack small merge x before) := by
  induction hbefore generalizing x g with
  | nil => exact ⟨[g], by simp, .cons hx .nil⟩
  | @cons g' y gs before hy hbefore ih =>
    rw [mergeBack]
    split
    · obtain ⟨groups, hflat, hgroups⟩ := ih (hmerge g' g y x hy hx)
      refine ⟨groups, ?_, hgroups⟩
      rw [hflat]
      simp
    · refine ⟨gs.reverse ++ [g', g], by simp, ?_⟩
      exact List.rel_append (List.rel_reverse hbefore) (.cons hy (.cons hx .nil))

theorem groups_mergeForward (hmerge : ∀ g g' x y, R g x → R g' y → R (g ++ g') (merge x y))
    {before rest : List α} {x : α} {gs hs : List (List γ)} {g : List γ}
    (hbefore : List.Forall₂ R gs before) (hx : R g x) (hrest : List.Forall₂ R hs rest) :
    ∃ groups : List (List γ), groups.flatten = gs.reverse.flatten ++ g ++ hs.flatten ∧
      List.Forall₂ R groups (mergeForward small merge before x rest) := by
  induction hrest generalizing before x gs g with
  | nil =>
    obtain ⟨groups, hflat, hgroups⟩ := groups_mergeBack hmerge hbefore hx
    exact ⟨groups, by rw [hflat]; simp, hgroups⟩
  | @cons h y hs rest hy hrest ih =>
    rw [mergeForward]
    split
    · obtain ⟨groups, hflat, hgroups⟩ := ih hbefore (hmerge g h x y hx hy)
      refine ⟨groups, ?_, hgroups⟩
      rw [hflat]
      simp
    · obtain ⟨groups, hflat, hgroups⟩ := ih (.cons hx hbefore) hy
      refine ⟨groups, ?_, hgroups⟩
      rw [hflat]
      simp

/-- **Merging divides the list into consecutive groups.**  `R` says how a result is made of what is in
    its group: if merging two results is making one of both groups, then each result is made of a group,
    and the groups are the list in order. -/
theorem exists_groups (small : α → Bool)
    (hmerge : ∀ g g' x y, R g x → R g' y → R (g ++ g') (merge x y)) {xs : List α}
    {gs : List (List γ)} (h : List.Forall₂ R gs xs) :
    ∃ groups : List (List γ), groups.flatten = gs.flatten ∧
      List.Forall₂ R groups (mergeSmall small merge xs) := by
  cases h with
  | nil => exact ⟨[], rfl, .nil⟩
  | cons hx hrest =>
    obtain ⟨groups, hflat, hgroups⟩ := groups_mergeForward hmerge .nil hx hrest
    exact ⟨groups, by rw [hflat]; simp, hgroups⟩

/-- What merging keeps is true of every result. -/
theorem forall_mem_mergeSmall {P : α → Prop} (hmerge : ∀ x y, P x → P y → P (merge x y)) {xs : List α}
    (h : ∀ x ∈ xs, P x) : ∀ x ∈ mergeSmall small merge xs, P x := by
  have hxs : List.Forall₂ (fun (_ : List α) x => P x) (xs.map fun _ => []) xs := by
    rw [List.forall₂_map_left_iff]
    exact List.forall₂_same.mpr h
  obtain ⟨groups, -, hgroups⟩ := exists_groups small (fun _ _ x y => hmerge x y) hxs
  generalize mergeSmall small merge xs = results at hgroups
  clear hxs
  induction hgroups with
  | nil => exact fun x hx => absurd hx List.not_mem_nil
  | cons hhead _ ih => exact List.forall_mem_cons.mpr ⟨hhead, ih⟩

end Groups

end Segments
