/-
  **Reciprocal-rank fusion of two rankings** — a small library of its own, over arbitrary keys and
  scores in any ordered field.

  A RANKING is a list of pairwise different keys, best first.  A key earns `weight / (offset + rank)`
  in each ranking that has it, and its score is the sum.  Keys are PLACED by score, higher first, then
  by their rank in the first ranking, then in the second, an absent rank after every other, and at last
  by an order of the keys themselves.  `IsFusion` says that a list is the two rankings in that order.

  The result is MONOTONE: a key that is promoted in a ranking, the others keeping their order, does not
  fall in the fusion (`IsFusion.promoted`).  The argument compares places: whoever is ahead of the key
  afterwards was ahead of it before.
-/
import Mathlib.Algebra.Order.Field.Basic
import Mathlib.Data.List.Nodup
import Mathlib.Data.Prod.Lex
import Mathlib.Order.WithBot
import Mathlib.Tactic.Linarith
import Mathlib.Tactic.Positivity
import FinancialRag.Lib.PyList

set_option linter.unusedVariables false

namespace RankFusion

variable {K : Type} [DecidableEq K]

/-! ## Ranks -/

/-- The rank of a key, counted from one. -/
def rank (ranking : List K) (k : K) : Option ℕ :=
  if k ∈ ranking then some (ranking.idxOf k + 1) else none

/-- Ranks as they are compared: an absent one comes last. -/
def lastIfAbsent : Option ℕ → WithTop ℕ
  | none => ⊤
  | some r => (r : WithTop ℕ)

theorem rank_of_mem {ranking : List K} {k : K} (h : k ∈ ranking) :
    rank ranking k = some (ranking.idxOf k + 1) := if_pos h

theorem rank_of_not_mem {ranking : List K} {k : K} (h : k ∉ ranking) : rank ranking k = none :=
  if_neg h

theorem mem_of_rank {ranking : List K} {k : K} {r : ℕ} (h : rank ranking k = some r) :
    k ∈ ranking := by
  by_contra hk
  rw [rank_of_not_mem hk] at h
  cases h

/-- Ranks count from one, and there are no more of them than keys. -/
theorem rank_bounds {ranking : List K} {k : K} {r : ℕ} (h : rank ranking k = some r) :
    1 ≤ r ∧ r ≤ ranking.length := by
  have hk := mem_of_rank h
  rw [rank_of_mem hk] at h
  have hlt := List.idxOf_lt_length_of_mem hk
  obtain rfl := Option.some.inj h
  omega

/-- Different keys have different ranks. -/
theorem eq_of_rank_eq {ranking : List K} {k k' : K} {r : ℕ} (h : rank ranking k = some r)
    (h' : rank ranking k' = some r) : k = k' := by
  have hk := mem_of_rank h
  have hk' := mem_of_rank h'
  rw [rank_of_mem hk] at h
  rw [rank_of_mem hk'] at h'
  have hidx : ranking.idxOf k = ranking.idxOf k' := by
    have hsucc := Option.some.inj (h.trans h'.symm)
    omega
  exact (List.idxOf_inj hk).mp hidx

/-- Two keys that tie in a ranking are not in it. -/
theorem not_mem_of_rank_tie {ranking : List K} {k k' : K} (hne : k ≠ k')
    (h : lastIfAbsent (rank ranking k) = lastIfAbsent (rank ranking k')) :
    k ∉ ranking ∧ k' ∉ ranking := by
  cases hr : rank ranking k with
  | none =>
    cases hr' : rank ranking k' with
    | none =>
      refine ⟨fun hk => ?_, fun hk => ?_⟩
      · rw [rank_of_mem hk] at hr
        cases hr
      · rw [rank_of_mem hk] at hr'
        cases hr'
    | some r' =>
      rw [hr, hr'] at h
      exact absurd h.symm (WithTop.coe_ne_top)
  | some r =>
    cases hr' : rank ranking k' with
    | none =>
      rw [hr, hr'] at h
      exact absurd h (WithTop.coe_ne_top)
    | some r' =>
      rw [hr, hr'] at h
      obtain rfl : r = r' := by simpa [lastIfAbsent] using h
      exact absurd (eq_of_rank_eq hr hr') hne

/-- A key appended to a ranking gets the next rank, the others keep theirs. -/
theorem rank_concat {ranking : List K} {x : K} (hx : x ∉ ranking) (k : K) :
    rank (ranking ++ [x]) k = if k = x then some (ranking.length + 1) else rank ranking k := by
  by_cases hk : k = x
  · subst hk
    rw [if_pos rfl, rank_of_mem (List.mem_append_right _ List.mem_cons_self),
      List.idxOf_append_of_notMem hx, List.idxOf_cons_self, Nat.add_zero]
  · rw [if_neg hk]
    by_cases hmem : k ∈ ranking
    · rw [rank_of_mem hmem, rank_of_mem (List.mem_append_left _ hmem), List.idxOf_append_of_mem hmem]
    · have hnot : k ∉ ranking ++ [x] := by
        intro h
        rcases List.mem_append.mp h with h | h
        · exact hmem h
        · exact hk (List.mem_singleton.mp h)
      rw [rank_of_not_mem hmem, rank_of_not_mem hnot]

/-! ## Promotion -/

/-- `x` stands in `after` no lower than in `before`, and the other keys stand in the same order. -/
structure Promoted (x : K) (before after : List K) : Prop where
  others : after.filter (fun k => decide (k ≠ x)) = before.filter fun k => decide (k ≠ x)
  rank_le : lastIfAbsent (rank after x) ≤ lastIfAbsent (rank before x)

theorem Promoted.refl (x : K) (ranking : List K) : Promoted x ranking ranking := ⟨rfl, le_rfl⟩

/-- Where a key stands once `x` is inserted: one further, unless it stands before `x`. -/
theorem idxOf_insert {pre suf : List K} {x y : K} (hne : y ≠ x) :
    (pre ++ x :: suf).idxOf y = (pre ++ suf).idxOf y + if y ∈ pre then 0 else 1 := by
  by_cases hy : y ∈ pre
  · rw [List.idxOf_append_of_mem hy, List.idxOf_append_of_mem hy, if_pos hy, Nat.add_zero]
  · rw [List.idxOf_append_of_notMem hy, List.idxOf_append_of_notMem hy, if_neg hy,
      List.idxOf_cons_ne _ hne.symm]
    omega

/-- The other keys, around the place of `x`. -/
theorem filter_ne_split {pre suf : List K} {x : K} (hnodup : (pre ++ x :: suf).Nodup) :
    (pre ++ x :: suf).filter (fun k => decide (k ≠ x)) = pre ++ suf := by
  obtain ⟨hpre, hsuf, hdisjoint⟩ := List.nodup_append.mp hnodup
  obtain ⟨hx, _⟩ := List.nodup_cons.mp hsuf
  have hleft : pre.filter (fun k => decide (k ≠ x)) = pre :=
    List.filter_eq_self.mpr fun k hk => decide_eq_true (hdisjoint k hk x List.mem_cons_self)
  have hright : suf.filter (fun k => decide (k ≠ x)) = suf :=
    List.filter_eq_self.mpr fun k hk => decide_eq_true fun heq => hx (heq ▸ hk)
  rw [List.filter_append, List.filter_cons_of_neg (by simp), hleft, hright]

theorem filter_ne_eq_self {ranking : List K} {x : K} (hx : x ∉ ranking) :
    ranking.filter (fun k => decide (k ≠ x)) = ranking :=
  List.filter_eq_self.mpr fun k hk => decide_eq_true fun heq => hx (heq ▸ hk)

/-- The promoted key stays in the ranking. -/
theorem Promoted.mem_of_mem {x : K} {before after : List K} (h : Promoted x before after)
    (hx : x ∈ before) : x ∈ after := by
  by_contra hx'
  have hle := h.rank_le
  rw [rank_of_not_mem hx', rank_of_mem hx] at hle
  exact absurd hle (by simp [lastIfAbsent])

/-- **What a promotion is**: nothing changes, or `x` is inserted before `mid`, after which it stood or
    without having stood in the ranking. -/
theorem Promoted.cases {x : K} {before after : List K} (h : Promoted x before after)
    (hbefore : before.Nodup) (hafter : after.Nodup) :
    after = before ∨
    ∃ pre mid suf, after = pre ++ x :: (mid ++ suf) ∧
      (before = (pre ++ mid) ++ x :: suf ∨ x ∉ before ∧ before = pre ++ (mid ++ suf)) := by
  by_cases hx' : x ∈ after
  · obtain ⟨pre, rest, rfl⟩ := List.append_of_mem hx'
    have hothers := h.others
    rw [filter_ne_split hafter] at hothers
    by_cases hx : x ∈ before
    · obtain ⟨pre₀, suf, rfl⟩ := List.append_of_mem hx
      rw [filter_ne_split hbefore] at hothers
      -- the place of `x` afterwards cuts the list no later than its place before
      have hnot : x ∉ pre := fun hpre => (List.nodup_append.mp hafter).2.2 x hpre x List.mem_cons_self rfl
      have hnot₀ : x ∉ pre₀ := fun hpre => (List.nodup_append.mp hbefore).2.2 x hpre x List.mem_cons_self rfl
      have hle := h.rank_le
      rw [rank_of_mem hx', rank_of_mem hx, List.idxOf_append_of_notMem hnot,
        List.idxOf_append_of_notMem hnot₀, List.idxOf_cons_self] at hle
      have hlength : pre.length ≤ pre₀.length := by
        have hcast : pre.length + 0 + 1 ≤ pre₀.length + 0 + 1 := by simpa [lastIfAbsent] using hle
        omega
      obtain ⟨mid, rfl⟩ : pre <+: pre₀ :=
        List.prefix_of_prefix_length_le ⟨rest, hothers⟩ ⟨suf, rfl⟩ hlength
      rw [List.append_assoc, List.append_cancel_left_eq] at hothers
      subst hothers
      exact .inr ⟨pre, mid, suf, rfl, .inl rfl⟩
    · rw [filter_ne_eq_self hx] at hothers
      exact .inr ⟨pre, [], rest, rfl, .inr ⟨hx, hothers.symm⟩⟩
  · have hx : x ∉ before := fun hx => hx' (h.mem_of_mem hx)
    have hothers := h.others
    rw [filter_ne_eq_self hx', filter_ne_eq_self hx] at hothers
    exact .inl hothers

/-- The other keys stay in the ranking. -/
theorem Promoted.mem_iff {x y : K} {before after : List K} (h : Promoted x before after)
    (hne : y ≠ x) : y ∈ after ↔ y ∈ before := by
  have hmem : y ∈ after.filter (fun k => decide (k ≠ x)) ↔ y ∈ before.filter fun k => decide (k ≠ x) := by
    rw [h.others]
  simpa [hne] using hmem

/-- **Another key does not rise, and keeps its rank where it stands before the promoted one.** -/
theorem Promoted.rank_other {x y : K} {before after : List K} (h : Promoted x before after)
    (hbefore : before.Nodup) (hafter : after.Nodup) (hne : y ≠ x) :
    lastIfAbsent (rank before y) ≤ lastIfAbsent (rank after y) ∧
    (lastIfAbsent (rank after y) < lastIfAbsent (rank after x) → rank before y = rank after y) := by
  rcases h.cases hbefore hafter with rfl | ⟨pre, mid, suf, hafter_eq, hbefore_eq⟩
  · exact ⟨le_rfl, fun _ => rfl⟩
  · by_cases hy : y ∈ after
    · have hy₀ := (h.mem_iff hne).mp hy
      have hidx : after.idxOf y = (pre ++ (mid ++ suf)).idxOf y + if y ∈ pre then 0 else 1 := by
        rw [hafter_eq]
        exact idxOf_insert hne
      have hidx₀ : before.idxOf y = (pre ++ (mid ++ suf)).idxOf y ∨
          y ∉ pre ∧ before.idxOf y = (pre ++ (mid ++ suf)).idxOf y + 1 := by
        rcases hbefore_eq with hbefore_eq | ⟨_, hbefore_eq⟩
        · rw [hbefore_eq, idxOf_insert hne, List.append_assoc]
          split
          · exact .inl rfl
          · rename_i hnot
            exact .inr ⟨fun hpre => hnot (List.mem_append_left _ hpre), rfl⟩
        · exact .inl (by rw [hbefore_eq])
      have hx : x ∈ after := hafter_eq ▸ List.mem_append_right _ List.mem_cons_self
      have hidx_x : after.idxOf x = pre.length := by
        have hnot : x ∉ pre := by
          intro hpre
          rw [hafter_eq] at hafter
          exact (List.nodup_append.mp hafter).2.2 x hpre x List.mem_cons_self rfl
        rw [hafter_eq, List.idxOf_append_of_notMem hnot, List.idxOf_cons_self, Nat.add_zero]
      rw [rank_of_mem hy, rank_of_mem hy₀, rank_of_mem hx]
      simp only [lastIfAbsent, Nat.cast_le, Nat.cast_lt]
      refine ⟨?_, ?_⟩
      · rcases hidx₀ with hidx₀ | ⟨hnot, hidx₀⟩
        · omega
        · rw [if_neg hnot] at hidx
          omega
      · intro hlt
        -- `y` stands before `x`, so it is in `pre`
        have hpre : y ∈ pre := by
          by_contra hnot
          rw [if_neg hnot, List.idxOf_append_of_notMem hnot] at hidx
          omega
        rw [if_pos hpre] at hidx
        rcases hidx₀ with hidx₀ | ⟨hnot, _⟩
        · rw [hidx₀, hidx]
        · exact absurd hpre hnot
    · have hy₀ : y ∉ before := fun hy₀ => hy ((h.mem_iff hne).mpr hy₀)
      rw [rank_of_not_mem hy, rank_of_not_mem hy₀]
      exact ⟨le_rfl, fun _ => rfl⟩

/-- A key that stays out of the ranking leaves it as it is. -/
theorem Promoted.eq_of_not_mem {x : K} {before after : List K} (h : Promoted x before after)
    (hbefore : before.Nodup) (hafter : after.Nodup) (hx : x ∉ after) : after = before := by
  rcases h.cases hbefore hafter with heq | ⟨pre, mid, suf, rfl, _⟩
  · exact heq
  · exact absurd (List.mem_append_right _ List.mem_cons_self) hx

/-! ## Scores and places -/

/-- The constants of a fusion. -/
structure Scheme (F : Type) [Field F] [LinearOrder F] where
  offset : F
  first : F
  second : F
  offset_pos : 0 < offset
  first_nonneg : 0 ≤ first
  second_nonneg : 0 ≤ second

section Scores

variable {F : Type} [Field F] [LinearOrder F] [IsStrictOrderedRing F]

/-- What a ranking with weight `w` contributes. -/
def share (w offset : F) : Option ℕ → F
  | none => 0
  | some r => w / (offset + r)

theorem share_nonneg {w offset : F} (hw : 0 ≤ w) (hoffset : 0 < offset) (r : Option ℕ) :
    0 ≤ share w offset r := by
  cases r with
  | none => exact le_rfl
  | some r => exact div_nonneg hw (by positivity)

/-- A better rank contributes no less. -/
theorem share_le_share {w offset : F} (hw : 0 ≤ w) (hoffset : 0 < offset) {r r' : Option ℕ}
    (h : lastIfAbsent r' ≤ lastIfAbsent r) : share w offset r ≤ share w offset r' := by
  cases r with
  | none => exact share_nonneg hw hoffset r'
  | some r =>
    cases r' with
    | none => exact absurd h (by simp [lastIfAbsent])
    | some r' =>
      have hle : r' ≤ r := by simpa [lastIfAbsent] using h
      have hcast : (r' : F) ≤ r := Nat.cast_le.mpr hle
      have hpos : 0 < offset + r' := by positivity
      exact div_le_div_of_nonneg_left hw hpos (by linarith)

/-- No rank contributes more than the first. -/
theorem share_le_first {w offset : F} (hw : 0 ≤ w) (hoffset : 0 < offset) (ranking : List K) (k : K) :
    share w offset (rank ranking k) ≤ w / (offset + 1) := by
  have hfirst : share w offset (some 1) = w / (offset + 1) := by rw [share, Nat.cast_one]
  rw [← hfirst]
  refine share_le_share hw hoffset ?_
  cases h : rank ranking k with
  | none => exact le_top
  | some r => simpa [lastIfAbsent] using (rank_bounds h).1

/-- The score of a key in the fusion of two rankings. -/
def score (s : Scheme F) (V L : List K) (k : K) : F :=
  share s.first s.offset (rank V k) + share s.second s.offset (rank L k)

theorem score_nonneg (s : Scheme F) (V L : List K) (k : K) : 0 ≤ score s V L k :=
  add_nonneg (share_nonneg s.first_nonneg s.offset_pos _) (share_nonneg s.second_nonneg s.offset_pos _)

/-- The score of a key that leads both rankings is the largest. -/
theorem score_le (s : Scheme F) (V L : List K) (k : K) :
    score s V L k ≤ (s.first + s.second) / (s.offset + 1) := by
  have hfirst := share_le_first s.first_nonneg s.offset_pos V k
  have hsecond := share_le_first s.second_nonneg s.offset_pos L k
  rw [add_div]
  exact add_le_add hfirst hsecond

variable {O : Type} [LinearOrder O] (tie : K → O)

/-- Where a key belongs: the smaller place is further ahead. -/
def place (s : Scheme F) (V L : List K) (k : K) : Fᵒᵈ ×ₗ WithTop ℕ ×ₗ WithTop ℕ ×ₗ O :=
  toLex (OrderDual.toDual (score s V L k), toLex (lastIfAbsent (rank V k),
    toLex (lastIfAbsent (rank L k), tie k)))

variable {tie}

omit [IsStrictOrderedRing F] in
/-- Who is ahead has no lower score. -/
theorem score_le_of_place_lt {s : Scheme F} {V L : List K} {a b : K}
    (h : place tie s V L a < place tie s V L b) : score s V L b ≤ score s V L a := by
  rcases Prod.Lex.toLex_lt_toLex.mp h with hlt | ⟨heq, _⟩
  · exact le_of_lt hlt
  · exact le_of_eq (OrderDual.toDual_inj.mp heq).symm

omit [IsStrictOrderedRing F] in
theorem place_lt_of_score_lt {s : Scheme F} {V L : List K} {a b : K} (h : score s V L b < score s V L a) :
    place tie s V L a < place tie s V L b := Prod.Lex.toLex_lt_toLex.mpr (.inl h)

omit [IsStrictOrderedRing F] in
/-- The score of a key that one ranking has, in its last place. -/
theorem score_last_first (s : Scheme F) {V L : List K} {a : K} (hV : (V ++ [a]).Nodup) (hL : a ∉ L) :
    score s (V ++ [a]) L a = s.first / (s.offset + (V.length + 1)) := by
  have hnew : a ∉ V := fun h => (List.nodup_append.mp hV).2.2 a h a List.mem_cons_self rfl
  rw [score, rank_concat hnew, if_pos rfl, rank_of_not_mem hL, share, share, add_zero, Nat.cast_add_one]

omit [IsStrictOrderedRing F] in
theorem score_last_second (s : Scheme F) {V L : List K} {b : K} (hL : (L ++ [b]).Nodup) (hV : b ∉ V) :
    score s V (L ++ [b]) b = s.second / (s.offset + (L.length + 1)) := by
  have hnew : b ∉ L := fun h => (List.nodup_append.mp hL).2.2 b h b List.mem_cons_self rfl
  rw [score, rank_concat hnew, if_pos rfl, rank_of_not_mem hV, share, share, zero_add, Nat.cast_add_one]

/-! ## The fusion -/

/-- `order` has the keys of the two rankings, by their places. -/
structure IsFusion (tie : K → O) (s : Scheme F) (V L order : List K) : Prop where
  mem : ∀ k, k ∈ order ↔ k ∈ V ∨ k ∈ L
  sorted : order.Pairwise fun a b => place tie s V L a < place tie s V L b

omit [IsStrictOrderedRing F] in
theorem IsFusion.nodup {s : Scheme F} {V L order : List K} (h : IsFusion tie s V L order) :
    order.Nodup := h.sorted.imp fun hlt heq => absurd (heq ▸ hlt) (lt_irrefl _)

omit [IsStrictOrderedRing F] in
/-- **Nothing left out of a prefix beats what is in it.** -/
theorem IsFusion.score_le_of_prefix {s : Scheme F} {V L order front : List K}
    (h : IsFusion tie s V L order) (hfront : front <+: order) {a b : K} (ha : a ∈ front)
    (hb : b ∈ V ∨ b ∈ L) (hout : b ∉ front) : score s V L b ≤ score s V L a := by
  obtain ⟨rest, rfl⟩ := hfront
  have hrest : b ∈ rest := (List.mem_append.mp ((h.mem b).mpr hb)).resolve_left hout
  exact score_le_of_place_lt ((List.pairwise_append.mp h.sorted).2.2 a ha b hrest)

omit [IsStrictOrderedRing F] in
/-- No list is the fusion under two schemes that score two of its keys in opposite orders. -/
theorem IsFusion.false_of_swapped {s s' : Scheme F} {V L order : List K} (h : IsFusion tie s V L order)
    (h' : IsFusion tie s' V L order) {a b : K} (ha : a ∈ order) (hb : b ∈ order)
    (hab : score s V L b < score s V L a) (hba : score s' V L a < score s' V L b) : False := by
  have hne : a ≠ b := fun heq => absurd (heq ▸ hab) (lt_irrefl _)
  rcases PyList.sublist_pair ha hb hne with hsub | hsub
  · have hplace := List.rel_of_pairwise_cons (h'.sorted.sublist hsub) List.mem_cons_self
    exact lt_asymm hplace (place_lt_of_score_lt hba)
  · have hplace := List.rel_of_pairwise_cons (h.sorted.sublist hsub) List.mem_cons_self
    exact lt_asymm hplace (place_lt_of_score_lt hab)

section Promotion

variable {s : Scheme F} {x : K} {V V' L L' : List K}

/-- The promoted key scores no less. -/
theorem score_promoted (hV : Promoted x V V') (hL : Promoted x L L') :
    score s V L x ≤ score s V' L' x :=
  add_le_add (share_le_share s.first_nonneg s.offset_pos hV.rank_le)
    (share_le_share s.second_nonneg s.offset_pos hL.rank_le)

/-- Another key scores no more. -/
theorem score_other (hV : Promoted x V V') (hL : Promoted x L L') (hnV : V.Nodup) (hnV' : V'.Nodup)
    (hnL : L.Nodup) (hnL' : L'.Nodup) {y : K} (hne : y ≠ x) : score s V' L' y ≤ score s V L y :=
  add_le_add (share_le_share s.first_nonneg s.offset_pos (hV.rank_other hnV hnV' hne).1)
    (share_le_share s.second_nonneg s.offset_pos (hL.rank_other hnL hnL' hne).1)

/-- **Whoever is ahead of the promoted key was ahead of it before.** -/
theorem place_lt_of_promoted (hV : Promoted x V V') (hL : Promoted x L L') (hnV : V.Nodup)
    (hnV' : V'.Nodup) (hnL : L.Nodup) (hnL' : L'.Nodup) {y : K}
    (h : place tie s V' L' y < place tie s V' L' x) : place tie s V L y < place tie s V L x := by
  have hne : y ≠ x := fun heq => absurd (heq ▸ h) (lt_irrefl _)
  have hx := score_promoted (s := s) hV hL
  have hy := score_other (s := s) hV hL hnV hnV' hnL hnL' hne
  obtain ⟨hrankV, hkeepV⟩ := hV.rank_other hnV hnV' hne
  obtain ⟨hrankL, hkeepL⟩ := hL.rank_other hnL hnL' hne
  have hscore' := score_le_of_place_lt h
  refine Prod.Lex.toLex_lt_toLex.mpr ?_
  -- the score decides, unless nothing changed it
  rcases lt_or_eq_of_le (hx.trans (hscore'.trans hy)) with hlt | heq
  · exact .inl hlt
  · refine .inr ⟨congrArg OrderDual.toDual heq.symm, ?_⟩
    have htied : score s V' L' y = score s V' L' x := by linarith
    rcases Prod.Lex.toLex_lt_toLex.mp h with hlt | ⟨_, hranks⟩
    · exact absurd htied (ne_of_gt hlt)
    · refine Prod.Lex.toLex_lt_toLex.mpr ?_
      rcases Prod.Lex.toLex_lt_toLex.mp hranks with hlt | ⟨hsame, hranks⟩
      · refine .inl ?_
        show lastIfAbsent (rank V y) < lastIfAbsent (rank V x)
        rw [hkeepV hlt]
        exact lt_of_lt_of_le hlt hV.rank_le
      · -- two keys that tie in the first ranking are not in it, so it did not change
        obtain ⟨hyV, hxV⟩ := not_mem_of_rank_tie hne hsame
        obtain rfl := hV.eq_of_not_mem hnV hnV' hxV
        refine .inr ⟨hsame, Prod.Lex.toLex_lt_toLex.mpr ?_⟩
        rcases Prod.Lex.toLex_lt_toLex.mp hranks with hlt | ⟨hsame, htie⟩
        · refine .inl ?_
          show lastIfAbsent (rank L y) < lastIfAbsent (rank L x)
          rw [hkeepL hlt]
          exact lt_of_lt_of_le hlt hL.rank_le
        · obtain ⟨hyL, hxL⟩ := not_mem_of_rank_tie hne hsame
          obtain rfl := hL.eq_of_not_mem hnL hnL' hxL
          exact .inr ⟨hsame, htie⟩

omit [IsStrictOrderedRing F] in
/-- The keys of the fusion are the same, where the promoted one is among them already. -/
theorem IsFusion.perm_of_promoted {order order' : List K} (h : IsFusion tie s V L order)
    (h' : IsFusion tie s V' L' order') (hV : Promoted x V V') (hL : Promoted x L L') (hx : x ∈ order) :
    order.Perm order' := by
  refine (List.perm_ext_iff_of_nodup h.nodup h'.nodup).mpr ?_
  intro y
  by_cases hne : y = x
  · subst hne
    exact iff_of_true hx ((h'.mem y).mpr (((h.mem y).mp hx).imp hV.mem_of_mem hL.mem_of_mem))
  · rw [h.mem, h'.mem, hV.mem_iff hne, hL.mem_iff hne]

/-- **A promoted key does not fall.** -/
theorem IsFusion.promoted {order order' : List K} (h : IsFusion tie s V L order)
    (h' : IsFusion tie s V' L' order') (hV : Promoted x V V') (hL : Promoted x L L') (hnV : V.Nodup)
    (hnV' : V'.Nodup) (hnL : L.Nodup) (hnL' : L'.Nodup) {p : ℕ} (hp : order[p]? = some x) :
    ∃ p' ≤ p, order'[p']? = some x := by
  have hperm := h.perm_of_promoted h' hV hL (List.mem_of_getElem? hp)
  have hx' : x ∈ order' := hperm.subset (List.mem_of_getElem? hp)
  obtain ⟨ahead', behind', rfl⟩ := List.append_of_mem hx'
  refine ⟨ahead'.length, ?_, by simp⟩
  obtain ⟨hlt, hget⟩ := List.getElem?_eq_some_iff.mp hp
  have hsplit : order.take p ++ x :: order.drop (p + 1) = order := by
    rw [← hget, ← List.drop_eq_getElem_cons hlt, List.take_append_drop]
  have hsorted := h.sorted
  rw [← hsplit] at hsorted
  have hbehind := (List.pairwise_cons.mp (List.pairwise_append.mp hsorted).2.1).1
  -- everybody ahead of `x` afterwards stands in the first `p` places before
  have hsub : ahead' ⊆ order.take p := by
    intro y hy
    have hahead' := (List.pairwise_append.mp h'.sorted).2.2 y hy x List.mem_cons_self
    have hahead := place_lt_of_promoted hV hL hnV hnV' hnL hnL' hahead'
    have hne : y ≠ x := fun heq => absurd (heq ▸ hahead) (lt_irrefl _)
    have hmem : y ∈ order := hperm.symm.subset (List.mem_append_left _ hy)
    rw [← hsplit] at hmem
    rcases List.mem_append.mp hmem with hmem | hmem
    · exact hmem
    · rcases List.mem_cons.mp hmem with heq | hmem
      · exact absurd heq hne
      · exact absurd hahead (lt_asymm (hbehind y hmem))
  have hnodup : ahead'.Nodup := (List.nodup_append.mp h'.nodup).1
  have hlength := (hnodup.subperm hsub).length_le
  rw [List.length_take] at hlength
  omega

end Promotion

end Scores

end RankFusion
