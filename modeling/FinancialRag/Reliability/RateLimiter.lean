/-
  The rate limiter over histories of calls (`mechanisms/rate_limiter_reliability.py`).

  The record keeps only the times that were in the window at the last call.  `applyCalls_eq_slide`: a history
  of calls is a sliding log, and what a sliding log guarantees for every position of the window
  (`RateLimit.length_admitted_le`, `RateLimit.slideAll_rejects_iff`) is then read off the log that forgets
  nothing.
-/
import FinancialRag.Lib.RateLimit
import FinancialRag.Reliability.Engine

set_option linter.unusedVariables false

namespace FinancialRag.Reliability

open RateLimit

/-- `__init__`. -/
def RateLimiterReliability.new : RateLimiterReliability := ⟨[], 0, 0⟩

/-- `RateLimiterReliability.apply` at a time of the clock. -/
def RateLimiterReliability.apply {W : Type} (r : RateLimiterReliability) (policy : ReliabilityPolicy W)
    (now : ℚ) : ReliabilityResult × RateLimiterReliability :=
  let settings := limiterSettings policy
  if !policy.enabled then (succeeded .rateLimiter, r) else r.admission settings.1 settings.2 now

/-- A history of calls on one record, each with whether it was allowed. -/
def applyCalls {W : Type} (policy : ReliabilityPolicy W) (r : RateLimiterReliability) : List ℚ → List (ℚ × Bool)
  | [] => []
  | now :: later =>
    (now, (r.apply policy now).1.success) :: applyCalls policy (r.apply policy now).2 later

/-- An enabled `RateLimiterPolicy`. -/
def rateLimiterPolicy (W : Type) (maxRequests windowMs : Int) : ReliabilityPolicy W :=
  ⟨true, .rateLimiter maxRequests windowMs⟩

/-- The width of the window in seconds. -/
def windowSeconds (windowMs : Int) : ℚ := (windowMs : ℚ) / 1000

section

variable {W : Type} {maxRequests windowMs : Int}

/-- What is left after clearing the window. -/
theorem filter_eq_recent (now : ℚ) (timestamps : List ℚ) :
    timestamps.filter (fun t => decide (now - (windowMs : ℚ) / 1000 < t)) =
      recent (windowSeconds windowMs) now timestamps :=
  List.filter_congr fun t _ => decide_eq_decide.mpr Iff.rfl

/-- One call: what is out of the window is forgotten, and the call is blocked if the limit is left. -/
theorem apply_of_blocked {r : RateLimiterReliability} {now : ℚ}
    (h : maxRequests ≤ (recent (windowSeconds windowMs) now r.timestamps).length) :
    (r.apply (rateLimiterPolicy W maxRequests windowMs) now).1.success = false ∧
      (r.apply (rateLimiterPolicy W maxRequests windowMs) now).2.timestamps =
        recent (windowSeconds windowMs) now r.timestamps := by
  show (r.admission maxRequests windowMs now).1.success = false ∧
    (r.admission maxRequests windowMs now).2.timestamps = _
  simp only [RateLimiterReliability.admission, filter_eq_recent]
  rw [if_pos h]
  exact ⟨rfl, rfl⟩

/-- One call while there is room. -/
theorem apply_of_room {r : RateLimiterReliability} {now : ℚ}
    (h : ¬ maxRequests ≤ (recent (windowSeconds windowMs) now r.timestamps).length) :
    (r.apply (rateLimiterPolicy W maxRequests windowMs) now).1.success = true ∧
      (r.apply (rateLimiterPolicy W maxRequests windowMs) now).2.timestamps =
        recent (windowSeconds windowMs) now r.timestamps ++ [now] := by
  show (r.admission maxRequests windowMs now).1.success = true ∧
    (r.admission maxRequests windowMs now).2.timestamps = _
  simp only [RateLimiterReliability.admission, filter_eq_recent]
  rw [if_neg h]
  exact ⟨rfl, rfl⟩

/-- **The limiter is a sliding log.** -/
theorem applyCalls_eq_slide (r : RateLimiterReliability) (times : List ℚ) :
    applyCalls (rateLimiterPolicy W maxRequests windowMs) r times =
      slide maxRequests (windowSeconds windowMs) r.timestamps times := by
  induction times generalizing r with
  | nil => rfl
  | cons now later ih =>
    rw [applyCalls, slide, ih]
    split
    · rename_i hfull
      obtain ⟨hblocked, hkept⟩ := apply_of_blocked (W := W) hfull
      rw [hblocked, hkept]
    · rename_i hroom
      obtain ⟨hallowed, hkept⟩ := apply_of_room (W := W) hroom
      rw [hallowed, hkept]

/-- On a clock that does not go back, it is the log that forgets nothing. -/
theorem applyCalls_eq_slideAll {times : List ℚ} (hsorted : times.Pairwise (· ≤ ·)) :
    applyCalls (rateLimiterPolicy W maxRequests windowMs) .new times =
      slideAll maxRequests (windowSeconds windowMs) [] times := by
  rw [applyCalls_eq_slide]
  exact slide_eq_slideAll hsorted fun now hnow => rfl

end

/-- The calls of a history that were allowed at a time in the interval. -/
def allowedIn (interval : ℚ → Bool) (calls : List (ℚ × Bool)) : Nat :=
  ((admittedTimes calls).filter interval).length

/-- `[a, a + width)`. -/
def closedOpen (a width : ℚ) (t : ℚ) : Bool := decide (a ≤ t ∧ t < a + width)

/-- `(a, a + width]`. -/
def openClosed (a width : ℚ) (t : ℚ) : Bool := decide (a < t ∧ t ≤ a + width)

section

variable {N : Int} {width : ℚ} {times : List ℚ}

/-- Either kind of half-open interval as long as the window holds no more than the limit. -/
theorem allowedIn_le (N : Int) (width : ℚ) (times : List ℚ) (a : ℚ) : (allowedIn (closedOpen a width) (slideAll N width [] times) : Int) ≤ max N 0 ∧
    (allowedIn (openClosed a width) (slideAll N width [] times) : Int) ≤ max N 0 := by
  constructor
  · refine length_admitted_le fun x y hx hy => ?_
    have hx := (of_decide_eq_true hx).2
    have hy := (of_decide_eq_true hy).1
    linarith
  · refine length_admitted_le fun x y hx hy => ?_
    have hx := (of_decide_eq_true hx).2
    have hy := (of_decide_eq_true hy).1
    linarith

/-- What is recent at a call is what was allowed in the interval that ends at it. -/
theorem length_recent_eq_allowedIn {before after : List (ℚ × Bool)} {now : ℚ} {allowed : Bool}
    (hsorted : times.Pairwise (· ≤ ·))
    (h : slideAll N width [] times = before ++ (now, allowed) :: after) :
    (recent width now (admittedTimes before)).length = allowedIn (openClosed (now - width) width) before := by
  unfold allowedIn recent
  congr 1
  refine List.filter_congr fun t ht => decide_eq_decide.mpr ?_
  rw [sub_add_cancel]
  exact (and_iff_left (le_of_mem_before hsorted h t ht)).symm

/-- What was allowed before a call is part of what is allowed in the whole history. -/
theorem allowedIn_before_le (before after : List (ℚ × Bool)) (interval : ℚ → Bool) :
    allowedIn interval before ≤ allowedIn interval (before ++ after) := by
  unfold allowedIn admittedTimes
  rw [List.filter_append, List.map_append, List.filter_append, List.length_append]
  exact Nat.le_add_right _ _

end

/-- **The window of the limiter.**  No half-open interval as long as the window holds more than `max_requests`
    allowed calls; a call is rejected exactly when that many were allowed in the window behind it; and rejected
    calls delay nothing, for a history without them decides the others alike. -/
theorem rate_limiter_window {W : Type} (maxRequests windowMs : Int) {times : List ℚ}
    (hsorted : times.Pairwise (· ≤ ·)) :
    (∀ a : ℚ,
      (allowedIn (closedOpen a (windowSeconds windowMs))
        (applyCalls (rateLimiterPolicy W maxRequests windowMs) .new times) : Int) ≤ max maxRequests 0 ∧
      (allowedIn (openClosed a (windowSeconds windowMs))
        (applyCalls (rateLimiterPolicy W maxRequests windowMs) .new times) : Int) ≤ max maxRequests 0) ∧
    (∀ (before after : List (ℚ × Bool)) (now : ℚ) (allowed : Bool),
      applyCalls (rateLimiterPolicy W maxRequests windowMs) .new times = before ++ (now, allowed) :: after →
      (allowed = false ↔ maxRequests ≤
        allowedIn (openClosed (now - windowSeconds windowMs) (windowSeconds windowMs)) before) ∧
      (0 ≤ maxRequests → (allowed = false ↔ maxRequests =
        allowedIn (openClosed (now - windowSeconds windowMs) (windowSeconds windowMs)) before))) ∧
    (∀ fewer : List (ℚ × Bool),
      fewer.Sublist (applyCalls (rateLimiterPolicy W maxRequests windowMs) .new times) →
      admittedTimes fewer = admittedTimes (applyCalls (rateLimiterPolicy W maxRequests windowMs) .new times) →
      applyCalls (rateLimiterPolicy W maxRequests windowMs) .new (fewer.map Prod.fst) = fewer) := by
  rw [applyCalls_eq_slideAll hsorted]
  refine ⟨fun a => allowedIn_le _ _ _ a, ?_, ?_⟩
  · intro before after now allowed hcalls
    have hrejects := slideAll_rejects_iff hcalls
    rw [List.nil_append, length_recent_eq_allowedIn hsorted hcalls] at hrejects
    refine ⟨hrejects, fun hlimit => hrejects.trans ?_⟩
    -- the window behind the call never holds more
    have hmost := (allowedIn_le maxRequests (windowSeconds windowMs) times (now - windowSeconds windowMs)).2
    rw [hcalls] at hmost
    have hbefore := allowedIn_before_le before ((now, allowed) :: after)
      (openClosed (now - windowSeconds windowMs) (windowSeconds windowMs))
    omega
  · intro fewer hsub hadmitted
    rw [applyCalls_eq_slideAll]
    · exact slideAll_of_sublist hsub hadmitted
    · -- the times of some of the calls are in order, too
      have htimes := hsub.map Prod.fst
      rw [slideAll_times] at htimes
      exact hsorted.sublist htimes

/-- Two calls a minute: the third waits until the first two have left the window. -/
theorem rate_limiter_window_sample :
    applyCalls (rateLimiterPolicy Unit 2 60000) .new [0, 0, 1, 60] =
      [(0, true), (0, true), (1, false), (60, true)] ∧
    allowedIn (closedOpen 0 (windowSeconds 60000))
      (applyCalls (rateLimiterPolicy Unit 2 60000) .new [0, 0, 1, 60]) ≤ 2 := by
  have hsorted : ([0, 0, 1, 60] : List ℚ).Pairwise (· ≤ ·) := by decide
  refine ⟨by decide +kernel, ?_⟩
  exact_mod_cast ((rate_limiter_window 2 60000 hsorted).1 0).1

end FinancialRag.Reliability
