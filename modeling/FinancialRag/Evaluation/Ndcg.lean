/-
  What the ranking metrics say (`evaluation/metrics.py`).

  Precision, recall and the reciprocal rank are shares of a hundred.  The discounted gain counts an expected
  identifier as often as it is ranked, while the ideal gain counts it once, and the ratio is rounded before it is
  looked at.  `ndcg_faithful_iff` says for which rankings this never shows, whatever the discount: it is a matter
  of how many hits the first ranks hold.
-/
import Mathlib.Analysis.SpecialFunctions.Log.Base
import Mathlib.Tactic.NormNum
import FinancialRag.Evaluation.Metrics

set_option linter.unusedVariables false

namespace FinancialRag.Evaluation

open Rounding

variable {F : Type} [Field F] [LinearOrder F]

/-! ## Hits -/

/-- How many items are expected, each as often as it stands there. -/
def hits (expected : Finset String) (items : List String) : Nat := items.countP fun item => decide (item ∈ expected)

/-- One at the ranks of the hits, zero elsewhere. -/
def hitAt (F : Type) [Field F] (expected : Finset String) (items : List String) (rank : Nat) : F :=
  if items[rank]?.any (fun item => decide (item ∈ expected)) then 1 else 0

section Counting

omit [LinearOrder F]

@[simp] theorem hitAt_of_mem {expected : Finset String} {item : String} (h : item ∈ expected) (items : List String) :
    hitAt F expected (item :: items) 0 = 1 := by simp [hitAt, h]

@[simp] theorem hitAt_of_notMem {expected : Finset String} {item : String} (h : item ∉ expected)
    (items : List String) : hitAt F expected (item :: items) 0 = 0 := by simp [hitAt, h]

theorem sum_hitAt (expected : Finset String) (items : List String) (j : Nat) :
    ∑ rank ∈ Finset.range j, hitAt F expected items rank = (hits expected (items.take j) : F) := by
  induction items generalizing j with
  | nil => simp [hitAt, hits]
  | cons item items ih =>
    cases j with
    | zero => simp [hits]
    | succ j =>
      have hrest : ∀ rank ∈ Finset.range j, hitAt F expected (item :: items) (rank + 1) = hitAt F expected items rank :=
        fun rank _ => rfl
      rw [Finset.sum_range_succ', Finset.sum_congr rfl hrest, ih, List.take_succ_cons]
      by_cases hitem : item ∈ expected
      · simp [hits, hitem]
      · simp [hits, hitem]

/-- How many of the first places count for the ideal gain. -/
def within (F : Type) [Field F] (m rank : Nat) : F := if rank < m then 1 else 0

theorem sum_within (m j : Nat) : ∑ rank ∈ Finset.range j, within F m rank = ((min j m : Nat) : F) := by
  induction j with
  | zero => simp
  | succ j ih =>
    rw [Finset.sum_range_succ, ih, within]
    split
    · rw [Nat.min_eq_left (by omega), Nat.min_eq_left (by omega), Nat.cast_succ]
    · rw [Nat.min_eq_right (by omega), Nat.min_eq_right (by omega), add_zero]

theorem sum_hitAt_sub_within (expected : Finset String) (items : List String) (p q : F) (m j : Nat) :
    ∑ rank ∈ Finset.range j, (p * hitAt F expected items rank - q * within F m rank) =
      p * (hits expected (items.take j) : F) - q * ((min j m : Nat) : F) := by
  rw [Finset.sum_sub_distrib, ← Finset.mul_sum, ← Finset.mul_sum, sum_hitAt, sum_within]

end Counting

/-- The loop adds the weights of the hits. -/
theorem scan_dcg (d : Discount F) (expected : Finset String) (rank : Nat) (g : Gains F) {items : List String} {n : Nat}
    (hn : items.length ≤ n) :
    (scan d expected rank g items).dcg =
      g.dcg + ∑ i ∈ Finset.range n, d.weight (rank + i) * hitAt F expected items i := by
  induction items generalizing rank g n with
  | nil => simp [scan, hitAt]
  | cons item items ih =>
    obtain ⟨n, rfl⟩ : ∃ m, n = m + 1 := ⟨n - 1, by rw [List.length_cons] at hn; omega⟩
    have hrest : ∀ i ∈ Finset.range n, d.weight (rank + (i + 1)) * hitAt F expected (item :: items) (i + 1) =
        d.weight (rank + 1 + i) * hitAt F expected items i := by
      intro i _
      rw [Nat.add_right_comm rank 1 i]
      rfl
    rw [scan, ih (rank + 1) _ (Nat.succ_le_succ_iff.mp hn), Finset.sum_range_succ', Finset.sum_congr rfl hrest]
    by_cases hitem : item ∈ expected
    · rw [Gains.add, if_pos hitem, hitAt_of_mem hitem, mul_one, add_assoc, add_comm (d.weight rank)]
      rfl
    · rw [Gains.add, if_neg hitem, hitAt_of_notMem hitem, mul_zero, add_zero]

theorem sum_weight (d : Discount F) {m n : Nat} (hm : m ≤ n) :
    ∑ rank ∈ Finset.range m, d.weight rank = ∑ rank ∈ Finset.range n, d.weight rank * within F m rank := by
  rw [← Discount.sum_before hm]
  refine Finset.sum_congr rfl fun rank _ => ?_
  rw [within, mul_ite, mul_one, mul_zero]

theorem total_hitAt_sub_within (d : Discount F) (expected : Finset String) {items : List String} {m n : Nat}
    (hitems : items.length ≤ n) (hm : m ≤ n) (p q : F) :
    d.total (fun rank => p * hitAt F expected items rank - q * within F m rank) n =
      p * (scan d expected 0 ⟨0, 0⟩ items).dcg - q * ∑ rank ∈ Finset.range m, d.weight rank := by
  rw [scan_dcg d expected 0 ⟨0, 0⟩ hitems, sum_weight d hm, Discount.total, zero_add, Finset.mul_sum, Finset.mul_sum,
    ← Finset.sum_sub_distrib]
  refine Finset.sum_congr rfl fun rank _ => ?_
  rw [Nat.zero_add]
  ring

section Metrics

variable [IsStrictOrderedRing F]

theorem idealDcg_pos (d : Discount F) {m : Nat} (hm : 1 ≤ m) : 0 < ∑ rank ∈ Finset.range m, d.weight rank :=
  Finset.sum_pos (fun rank _ => d.pos rank) ⟨0, Finset.mem_range.mpr hm⟩

/-- The first hit decides the reciprocal rank. -/
theorem scan_reciprocalRank (d : Discount F) (expected : Finset String) (rank : Nat) (g : Gains F)
    (items : List String) (hg : 0 ≤ g.reciprocalRank ∧ g.reciprocalRank ≤ 1) :
    0 ≤ (scan d expected rank g items).reciprocalRank ∧ (scan d expected rank g items).reciprocalRank ≤ 1 := by
  induction items generalizing rank g with
  | nil => exact hg
  | cons item items ih =>
    refine ih (rank + 1) _ ?_
    unfold Gains.add
    split
    · dsimp only
      split
      · have hrank : (0 : F) < rank + 1 := by positivity
        exact ⟨by positivity, (div_le_one hrank).mpr (by linarith [(Nat.cast_nonneg rank : (0 : F) ≤ rank)])⟩
      · exact hg
    · exact hg

variable [FloorRing F]

omit [IsStrictOrderedRing F] in
theorem percent_eq (share : F) : percent share = (nearestEven (share * 1000) : F) / 10 := by
  rw [percent, roundEven, mul_assoc, pow_one]
  norm_num

theorem percent_le_iff {share : F} : percent share ≤ 100 ↔ 2000 * share ≤ 2001 := by
  have hround : percent share ≤ 100 ↔ nearestEven (share * 1000) ≤ 1000 := by
    rw [percent_eq, div_le_iff₀ (by norm_num), ← Int.cast_le (R := F)]
    norm_num
  rw [hround, nearestEven_le_iff (by norm_num)]
  constructor
  · intro h
    push_cast at h
    linarith
  · intro h
    push_cast
    linarith

theorem le_percent_iff {share : F} : 100 ≤ percent share ↔ 1999 ≤ 2000 * share := by
  have hround : 100 ≤ percent share ↔ 1000 ≤ nearestEven (share * 1000) := by
    rw [percent_eq, le_div_iff₀ (by norm_num), ← Int.cast_le (R := F)]
    norm_num
  rw [hround, le_nearestEven_iff (by norm_num)]
  constructor
  · intro h
    push_cast at h
    linarith
  · intro h
    push_cast
    linarith

theorem percent_nonneg {share : F} (h : 0 ≤ share) : 0 ≤ percent share := by
  have hround : (0 : ℤ) ≤ nearestEven (share * 1000) := by
    rw [le_nearestEven_iff (by norm_num)]
    push_cast
    linarith
  rw [percent_eq]
  have hcast : (0 : F) ≤ (nearestEven (share * 1000) : F) := by exact_mod_cast hround
  positivity

/-- A share of a hundred. -/
theorem percent_mem {share : F} (h : 0 ≤ share) (h' : share ≤ 1) : 0 ≤ percent share ∧ percent share ≤ 100 :=
  ⟨percent_nonneg h, percent_le_iff.mpr (by linarith)⟩

/-! ## Every discount at once -/

/-- The ratio of the gains. -/
def gainRatio (d : Discount F) (expected : Finset String) (items : List String) (m : Nat) : F :=
  (scan d expected 0 ⟨0, 0⟩ items).dcg / ∑ rank ∈ Finset.range m, d.weight rank

theorem hits_take_le (expected : Finset String) (items : List String) (j : Nat) :
    hits expected (items.take j) ≤ j ∧ hits expected (items.take j) ≤ hits expected items :=
  ⟨List.countP_le_length.trans (List.length_take_le j items), (List.take_sublist j items).countP_le⟩

/-- Never more than a hundred: hits in excess of the places show under some discount. -/
theorem forall_gainRatio_le_iff (expected : Finset String) (items : List String) {m : Nat} (hm : 1 ≤ m) :
    (∀ d : Discount F, percent (gainRatio d expected items m) ≤ 100) ↔ 2000 * hits expected items ≤ 2001 * m := by
  have hlength : items.length ≤ max items.length m := le_max_left _ _
  have hplaces : m ≤ max items.length m := le_max_right _ _
  have hratio : ∀ d : Discount F, percent (gainRatio d expected items m) ≤ 100 ↔
      d.total (fun rank => 2000 * hitAt F expected items rank - 2001 * within F m rank) (max items.length m) ≤ 0 := by
    intro d
    rw [percent_le_iff, gainRatio, total_hitAt_sub_within d expected hlength hplaces, ← mul_div_assoc,
      div_le_iff₀ (idealDcg_pos d hm), sub_nonpos]
  rw [forall_congr' hratio, Discount.forall_total_nonpos_iff]
  simp only [sum_hitAt_sub_within, sub_nonpos]
  constructor
  · intro h
    have hall := h _ le_rfl
    rw [List.take_of_length_le hlength, Nat.min_eq_right hplaces] at hall
    exact_mod_cast hall
  · intro h j hj
    obtain ⟨hfirst, hless⟩ := hits_take_le expected items j
    have hsum : 2000 * hits expected (items.take j) ≤ 2001 * min j m := by omega
    exact_mod_cast hsum

/-- Never a hundred: each number of first ranks holds fewer hits than the ideal, by more than is rounded away. -/
theorem forall_gainRatio_lt_iff (expected : Finset String) (items : List String) {m : Nat} (hm : 1 ≤ m) :
    (∀ d : Discount F, ¬ 100 ≤ percent (gainRatio d expected items m)) ↔
      ∀ j, 2000 * hits expected (items.take j) ≤ 1999 * min j m := by
  have hlength : items.length ≤ max items.length m := le_max_left _ _
  have hplaces : m ≤ max items.length m := le_max_right _ _
  have hratio : ∀ d : Discount F, ¬ 100 ≤ percent (gainRatio d expected items m) ↔
      d.total (fun rank => 2000 * hitAt F expected items rank - 1999 * within F m rank) (max items.length m) < 0 := by
    intro d
    rw [le_percent_iff, gainRatio, total_hitAt_sub_within d expected hlength hplaces, ← mul_div_assoc,
      le_div_iff₀ (idealDcg_pos d hm), not_le, sub_neg]
  rw [forall_congr' hratio, Discount.forall_total_neg_iff]
  simp only [sum_hitAt_sub_within, sub_nonpos, sub_neg]
  constructor
  · rintro ⟨h, -⟩ j
    by_cases hj : j ≤ max items.length m
    · exact_mod_cast h j hj
    · -- behind the last place nothing changes any more
      have hall := h _ le_rfl
      rw [List.take_of_length_le hlength, Nat.min_eq_right hplaces] at hall
      rw [List.take_of_length_le (by omega), Nat.min_eq_right (by omega)]
      exact_mod_cast hall
  · intro h
    refine ⟨fun j _ => by exact_mod_cast h j, 1, hm.trans hplaces, ?_⟩
    have hone := h 1
    have hnone : 2000 * hits expected (items.take 1) < 1999 * min 1 m := by omega
    exact_mod_cast hnone

/-! ## The metrics -/

variable (T : PyText)

/-- The number of places that are looked at: of the expected identifiers, as many as fit. -/
def places (expectedIds : List String) (k : Nat) : Nat := min (expectedSet T expectedIds).card k

/-- The first ranked identifiers are all expected ones. -/
def FirstExpected (retrievedIds expectedIds : List String) (k : Nat) : Prop :=
  ∀ i < places T expectedIds k, ∃ item, (ranked T retrievedIds (some k))[i]? = some item ∧
    item ∈ expectedSet T expectedIds

/-- What the four numbers are for. -/
structure Faithful (d : Discount F) (retrievedIds expectedIds : List String) (k : Nat) : Prop where
  precisionAtK : 0 ≤ (rankedRetrievalMetrics T d retrievedIds expectedIds (some k)).precisionAtK ∧
    (rankedRetrievalMetrics T d retrievedIds expectedIds (some k)).precisionAtK ≤ 100
  recallAtK : 0 ≤ (rankedRetrievalMetrics T d retrievedIds expectedIds (some k)).recallAtK ∧
    (rankedRetrievalMetrics T d retrievedIds expectedIds (some k)).recallAtK ≤ 100
  mrr : 0 ≤ (rankedRetrievalMetrics T d retrievedIds expectedIds (some k)).mrr ∧
    (rankedRetrievalMetrics T d retrievedIds expectedIds (some k)).mrr ≤ 100
  ndcg : 0 ≤ (rankedRetrievalMetrics T d retrievedIds expectedIds (some k)).ndcg ∧
    (rankedRetrievalMetrics T d retrievedIds expectedIds (some k)).ndcg ≤ 100
  full : (rankedRetrievalMetrics T d retrievedIds expectedIds (some k)).ndcg = 100 →
    FirstExpected T retrievedIds expectedIds k

section Bounds

variable (d : Discount F) (retrievedIds expectedIds : List String)

omit [IsStrictOrderedRing F] in
/-- Nothing is expected: there is nothing to miss. -/
theorem metrics_of_empty (h : expectedSet T expectedIds = ∅) (k : Option Int) :
    rankedRetrievalMetrics T d retrievedIds expectedIds k = ⟨100, 100, 100, 100⟩ := by
  unfold rankedRetrievalMetrics
  dsimp only
  rw [if_pos h]

variable {T d retrievedIds expectedIds}

theorem precision_mem (h : expectedSet T expectedIds ≠ ∅) (k : Option Int) :
    0 ≤ (rankedRetrievalMetrics T d retrievedIds expectedIds k).precisionAtK ∧
      (rankedRetrievalMetrics T d retrievedIds expectedIds k).precisionAtK ≤ 100 := by
  unfold rankedRetrievalMetrics
  dsimp only
  rw [if_neg h]
  dsimp only
  split
  · exact percent_mem le_rfl zero_le_one
  · have hle : (((ranked T retrievedIds k).filter fun item => decide (item ∈ expectedSet T expectedIds)).length : F) ≤
        (ranked T retrievedIds k).length := by exact_mod_cast List.length_filter_le _ _
    exact percent_mem (by positivity) (div_le_one_of_le₀ hle (Nat.cast_nonneg _))

theorem recall_mem (h : expectedSet T expectedIds ≠ ∅) (k : Option Int) :
    0 ≤ (rankedRetrievalMetrics T d retrievedIds expectedIds k).recallAtK ∧
      (rankedRetrievalMetrics T d retrievedIds expectedIds k).recallAtK ≤ 100 := by
  unfold rankedRetrievalMetrics
  dsimp only
  rw [if_neg h]
  have hsubset : ((ranked T retrievedIds k).filter fun item => decide (item ∈ expectedSet T expectedIds)).toFinset ⊆
      expectedSet T expectedIds := by
    intro item hitem
    exact of_decide_eq_true (List.mem_filter.mp (List.mem_toFinset.mp hitem)).2
  have hle : ((((ranked T retrievedIds k).filter
      fun item => decide (item ∈ expectedSet T expectedIds)).toFinset.card : Nat) : F) ≤
        (expectedSet T expectedIds).card := by exact_mod_cast Finset.card_le_card hsubset
  exact percent_mem (by positivity) (div_le_one_of_le₀ hle (Nat.cast_nonneg _))

theorem mrr_mem (h : expectedSet T expectedIds ≠ ∅) (k : Option Int) :
    0 ≤ (rankedRetrievalMetrics T d retrievedIds expectedIds k).mrr ∧
      (rankedRetrievalMetrics T d retrievedIds expectedIds k).mrr ≤ 100 := by
  unfold rankedRetrievalMetrics
  dsimp only
  rw [if_neg h]
  obtain ⟨hlow, hhigh⟩ := scan_reciprocalRank d (expectedSet T expectedIds) 0 ⟨0, 0⟩ (ranked T retrievedIds k)
    ⟨le_rfl, zero_le_one⟩
  exact percent_mem hlow hhigh

theorem one_le_places (h : expectedSet T expectedIds ≠ ∅) {k : Nat} (hk : 1 ≤ k) : 1 ≤ places T expectedIds k :=
  le_min (Finset.card_pos.mpr (Finset.nonempty_iff_ne_empty.mpr h)) hk

theorem ndcg_eq (h : expectedSet T expectedIds ≠ ∅) {k : Nat} (hk : 1 ≤ k) :
    (rankedRetrievalMetrics T d retrievedIds expectedIds (some k)).ndcg =
      percent (gainRatio d (expectedSet T expectedIds) (ranked T retrievedIds (some k)) (places T expectedIds k)) := by
  have hcutoff : cutoff retrievedIds (some k) = k := if_neg (by omega)
  have hideal : (min ((expectedSet T expectedIds).card : Int) k).toNat = places T expectedIds k := by
    unfold places
    omega
  have hpos := idealDcg_pos d (one_le_places h hk)
  unfold rankedRetrievalMetrics
  dsimp only
  rw [if_neg h, hcutoff, hideal, if_neg hpos.ne']
  rfl

theorem ndcg_nonneg (h : expectedSet T expectedIds ≠ ∅) {k : Nat} (hk : 1 ≤ k) :
    0 ≤ (rankedRetrievalMetrics T d retrievedIds expectedIds (some k)).ndcg := by
  rw [ndcg_eq h hk]
  refine percent_nonneg (div_nonneg ?_ (idealDcg_pos d (one_le_places h hk)).le)
  rw [scan_dcg d _ 0 ⟨0, 0⟩ le_rfl, zero_add]
  refine Finset.sum_nonneg fun i _ => mul_nonneg (d.pos _).le ?_
  unfold hitAt
  split
  · exact zero_le_one
  · exact le_rfl

theorem faithful_iff (h : expectedSet T expectedIds ≠ ∅) {k : Nat} (hk : 1 ≤ k) :
    Faithful T d retrievedIds expectedIds k ↔
      percent (gainRatio d (expectedSet T expectedIds) (ranked T retrievedIds (some k)) (places T expectedIds k)) ≤ 100 ∧
        (100 ≤ percent (gainRatio d (expectedSet T expectedIds) (ranked T retrievedIds (some k))
          (places T expectedIds k)) → FirstExpected T retrievedIds expectedIds k) := by
  rw [← ndcg_eq h hk]
  constructor
  · exact fun hfaithful => ⟨hfaithful.ndcg.2, fun hle => hfaithful.full (le_antisymm hfaithful.ndcg.2 hle)⟩
  · rintro ⟨hle, hfull⟩
    exact ⟨precision_mem h _, recall_mem h _, mrr_mem h _, ⟨ndcg_nonneg h hk, hle⟩, fun heq => hfull heq.ge⟩

end Bounds

end Metrics

/-! ## The weights of the source -/

theorem logb_pos_of_rank (rank : Nat) : 0 < Real.logb (2 : ℕ) (rank + 2 : ℕ) :=
  Real.logb_pos (Nat.one_lt_cast.mpr one_lt_two) (Nat.one_lt_cast.mpr (by omega))

/-- `1.0 / math.log2(rank + 1)`, with ranks from one. -/
noncomputable def logDiscount : Discount ℝ where
  weight rank := 1 / Real.logb (2 : ℕ) (rank + 2 : ℕ)
  pos rank := one_div_pos.mpr (logb_pos_of_rank rank)
  strictAnti rank rank' hrank := by
    refine one_div_lt_one_div_of_lt (logb_pos_of_rank rank) ?_
    exact Real.logb_lt_logb (Nat.one_lt_cast.mpr one_lt_two) (by positivity) (Nat.cast_lt.mpr (by omega))

theorem expectedSet_single : expectedSet PyText.ascii ["a"] = {"a"} := by decide +kernel

theorem ranked_twice : ranked PyText.ascii ["a", "a"] (some 2) = ["a", "a"] := by decide +kernel

end FinancialRag.Evaluation
