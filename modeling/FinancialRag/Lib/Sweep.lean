/-
  **Going through a directory and erasing** — a small library of its own, over arbitrary keys and values.

  `sweep` goes through a list of keys and erases those that pass a test; the test looks at what is there WHEN THEIR
  TURN COMES.  Such a loop erases what passes the test in the beginning if and only if no test is changed by the
  erasures before it, and these may be taken to be the ones of the beginning (`sweep_exact_iff`): the first test that
  goes another way is the whole difference.
-/
import FinancialRag.Lib.Dict

set_option linter.unusedVariables false

namespace Dict

variable {K V : Type} [DecidableEq K] {test : (K → Option V) → K → Bool} {d : Dict K V}

/-- Go through the keys and erase what passes the test. -/
def sweep (test : (K → Option V) → K → Bool) : List K → Dict K V → Dict K V
  | [], d => d
  | k :: ks, d => sweep test ks (if test d.get k then d.erase k else d)

/-- What is there without some keys. -/
def without (get : K → Option V) (keys : List K) (k : K) : Option V := if k ∈ keys then none else get k

theorem without_filter_of_mem {get : K → Option V} {keys : List K} {p : K → Bool} {k : K} (h : k ∈ keys) :
    without get (keys.filter p) k = if p k then none else get k := by
  unfold without
  simp [h]

theorem sweep_append (pre suf : List K) (d : Dict K V) :
    sweep test (pre ++ suf) d = sweep test suf (sweep test pre d) := by
  induction pre generalizing d with
  | nil => rfl
  | cons k pre ih => exact ih _

theorem get_eraseIf (c : Bool) (k k' : K) :
    (if c then d.erase k else d).get k' = if c ∧ k' = k then none else d.get k' := by
  cases c with
  | false => simp
  | true => simp

/-- A key that the loop does not come to stays. -/
theorem get_sweep_of_notMem {keys : List K} {k : K} (h : k ∉ keys) : (sweep test keys d).get k = d.get k := by
  induction keys generalizing d with
  | nil => rfl
  | cons k' keys ih =>
    rw [List.mem_cons, not_or] at h
    rw [sweep, ih h.2, get_eraseIf, if_neg fun hk => h.1 hk.2]

/-- A key is erased if it passes the test when its turn comes. -/
theorem get_sweep_split {pre suf : List K} {k : K} (h : (pre ++ k :: suf).Nodup) :
    (sweep test (pre ++ k :: suf) d).get k = if test (sweep test pre d).get k then none else d.get k := by
  obtain ⟨-, hsuf, hdisjoint⟩ := List.nodup_append.mp h
  have hpre : k ∉ pre := fun hk => hdisjoint k hk k List.mem_cons_self rfl
  rw [sweep_append, sweep, get_sweep_of_notMem (List.nodup_cons.mp hsuf).1, get_eraseIf, get_sweep_of_notMem hpre]
  simp

/-- A key that fails the test when its turn comes stays. -/
theorem get_sweep_of_forall {keys : List K} (hnodup : keys.Nodup) {k : K}
    (h : ∀ pre suf, keys = pre ++ k :: suf → test (sweep test pre d).get k = false) :
    (sweep test keys d).get k = d.get k := by
  by_cases hk : k ∈ keys
  · obtain ⟨pre, suf, hsplit⟩ := List.append_of_mem hk
    have hturn := h pre suf hsplit
    subst hsplit
    rw [get_sweep_split hnodup, hturn, if_neg Bool.false_ne_true]
  · exact get_sweep_of_notMem hk

/-- **A sweep erases what passes the test in the beginning, exactly if no test is changed by the erasures before
it.** -/
theorem sweep_exact_iff {keys : List K} (hnodup : keys.Nodup) :
    (∀ k, (sweep test keys d).get k = without d.get (keys.filter (test d.get)) k) ↔
      ∀ pre k suf, keys = pre ++ k :: suf → d.get k ≠ none →
        test (without d.get (pre.filter (test d.get))) k = test d.get k := by
  constructor
  · rintro hexact pre k suf rfl hk
    obtain ⟨-, hsuf, hdisjoint⟩ := List.nodup_append.mp hnodup
    have hpre : (sweep test pre d).get = without d.get (pre.filter (test d.get)) := by
      funext j
      by_cases hj : j ∈ pre
      · -- what happens to a key before `k` has happened when `k` has its turn
        have hlater : j ∉ k :: suf := fun hj' => hdisjoint j hj j hj' rfl
        have hwhole := hexact j
        rw [sweep_append, get_sweep_of_notMem hlater] at hwhole
        rw [hwhole, without_filter_of_mem (List.mem_append_left _ hj), without_filter_of_mem hj]
      · rw [get_sweep_of_notMem hj, without, if_neg fun hj' => hj (List.mem_filter.mp hj').1]
    have hturn := hexact k
    rw [get_sweep_split hnodup, hpre, without_filter_of_mem (List.mem_append_right _ List.mem_cons_self)] at hturn
    cases hold : test d.get k with
    | true =>
      by_contra hnew
      rw [hold, if_pos rfl, if_neg hnew] at hturn
      exact hk hturn
    | false =>
      by_contra hnew
      rw [hold, if_neg Bool.false_ne_true, if_pos (Bool.not_eq_false _ ▸ hnew)] at hturn
      exact hk hturn.symm
  · intro hsame
    have hupTo : ∀ pre suf, keys = pre ++ suf →
        (sweep test pre d).get = without d.get (pre.filter (test d.get)) := by
      intro pre
      induction pre using List.reverseRecOn with
      | nil =>
        intro suf _
        funext j
        simp [sweep, without]
      | append_singleton pre k ih =>
        intro suf hkeys
        rw [List.append_assoc, List.singleton_append] at hkeys
        have hget := ih (k :: suf) hkeys
        have hkpre : k ∉ pre := by
          rw [hkeys] at hnodup
          exact fun hk => (List.nodup_append.mp hnodup).2.2 k hk k List.mem_cons_self rfl
        funext j
        rw [sweep_append]
        show (if test (sweep test pre d).get k then (sweep test pre d).erase k else sweep test pre d).get j = _
        rw [get_eraseIf, hget]
        by_cases hjk : j = k
        · subst hjk
          by_cases hj : d.get j = none
          · simp [without, hj]
          · rw [hsame pre j suf hkeys hj]
            unfold without
            simp [hkpre]
        · unfold without
          simp [hjk]
    intro k
    rw [hupTo keys [] (List.append_nil keys).symm]

end Dict
