/-
  **Two ways to limit a rate** — a small library of its own, over times of any linearly ordered group.

  `slide` keeps the times it has admitted and forgets those that have left the window: a call is admitted
  while fewer than `limit` are kept.  What it forgets no later call asks for, so it decides as `slideAll`,
  which forgets nothing (`slide_eq_slideAll`); of that the guarantees are read off.

  `anchored` counts in a window that starts ANEW at the first call after the last one has run out.  No
  interval as long as a window meets three windows, so it holds at most twice the limit
  (`countP_forwarded_le`).
-/
import Mathlib.Algebra.Order.Group.Defs
import Mathlib.Data.List.Basic
import Mathlib.Tactic.Abel
import Mathlib.Tactic.Linarith

set_option linter.unusedVariables false
set_option linter.unusedSectionVars false

namespace RateLimit

variable {τ : Type} [AddCommGroup τ] [LinearOrder τ] [IsOrderedAddMonoid τ]

/-! ## The sliding log -/

/-- The times that are still in the window behind `now`. -/
def recent (width now : τ) (kept : List τ) : List τ := kept.filter fun t => decide (now - width < t)

/-- The calls at these times, each with whether it is admitted. -/
def slide (limit : Int) (width : τ) (kept : List τ) : List τ → List (τ × Bool)
  | [] => []
  | now :: later =>
    if limit ≤ (recent width now kept).length then
      (now, false) :: slide limit width (recent width now kept) later
    else (now, true) :: slide limit width (recent width now kept ++ [now]) later

/-- The same with all the admitted times at hand. -/
def slideAll (limit : Int) (width : τ) (admitted : List τ) : List τ → List (τ × Bool)
  | [] => []
  | now :: later =>
    if limit ≤ (recent width now admitted).length then (now, false) :: slideAll limit width admitted later
    else (now, true) :: slideAll limit width (admitted ++ [now]) later

/-- The times of the admitted calls. -/
def admittedTimes (calls : List (τ × Bool)) : List τ := (calls.filter Prod.snd).map Prod.fst

variable {limit : Int} {width : τ}

theorem recent_append (now : τ) (kept kept' : List τ) :
    recent width now (kept ++ kept') = recent width now kept ++ recent width now kept' :=
  List.filter_append ..

/-- What has left an earlier window has left a later one. -/
theorem recent_recent {now later : τ} (h : now ≤ later) (kept : List τ) :
    recent width later (recent width now kept) = recent width later kept := by
  unfold recent
  rw [List.filter_filter]
  refine List.filter_congr fun t _ => ?_
  rw [Bool.and_eq_left_iff_imp, decide_eq_true_iff, decide_eq_true_iff]
  exact fun ht => (sub_le_sub_right h width).trans_lt ht

/-- **Forgetting changes no decision**: all that matters of the kept times is what is recent at the calls. -/
theorem slide_eq_slideAll {times kept admitted : List τ} (hsorted : times.Pairwise (· ≤ ·))
    (h : ∀ now ∈ times, recent width now kept = recent width now admitted) :
    slide limit width kept times = slideAll limit width admitted times := by
  induction times generalizing kept admitted with
  | nil => rfl
  | cons now later ih =>
    obtain ⟨hfirst, hsorted⟩ := List.pairwise_cons.mp hsorted
    obtain ⟨hnow, hlater⟩ := List.forall_mem_cons.mp h
    have hforget : ∀ t ∈ later, recent width t (recent width now kept) = recent width t admitted := by
      intro t ht
      rw [recent_recent (hfirst t ht), hlater t ht]
    rw [slide, slideAll, ← hnow]
    split
    · rw [ih hsorted hforget]
    · rw [ih hsorted]
      intro t ht
      rw [recent_append, recent_append, hforget t ht]

theorem slideAll_times (limit : Int) (width : τ) (times admitted : List τ) :
    (slideAll limit width admitted times).map Prod.fst = times := by
  induction times generalizing admitted with
  | nil => rfl
  | cons now later ih =>
    rw [slideAll]
    split
    · rw [List.map_cons, ih]
    · rw [List.map_cons, ih]

/-- The calls before a call are at times up to its own. -/
theorem le_of_mem_before {times admitted : List τ} {before after : List (τ × Bool)} {now : τ} {b : Bool}
    (hsorted : times.Pairwise (· ≤ ·))
    (h : slideAll limit width admitted times = before ++ (now, b) :: after) :
    ∀ t ∈ admittedTimes before, t ≤ now := by
  intro t ht
  obtain ⟨call, hcall, rfl⟩ := List.mem_map.mp ht
  have htimes := (slideAll_times limit width times admitted).symm
  rw [h, List.map_append] at htimes
  rw [htimes] at hsorted
  exact (List.pairwise_append.mp hsorted).2.2 _ (List.mem_map_of_mem (List.mem_of_mem_filter hcall)) _
    List.mem_cons_self

/-- **A call is rejected exactly when the limit is reached in the window behind it.** -/
theorem slideAll_rejects_iff {times admitted : List τ} {before after : List (τ × Bool)} {now : τ} {b : Bool}
    (h : slideAll limit width admitted times = before ++ (now, b) :: after) :
    b = false ↔ limit ≤ (recent width now (admitted ++ admittedTimes before)).length := by
  induction times generalizing admitted before with
  | nil => cases before <;> cases h
  | cons t later ih =>
    rw [slideAll] at h
    cases before with
    | nil =>
      split at h
      · rename_i hfull
        obtain ⟨hhead, -⟩ := List.cons.inj h
        obtain ⟨rfl, rfl⟩ := Prod.mk.inj hhead
        exact iff_of_true rfl (by simpa [admittedTimes] using hfull)
      · rename_i hfree
        obtain ⟨hhead, -⟩ := List.cons.inj h
        obtain ⟨rfl, rfl⟩ := Prod.mk.inj hhead
        exact iff_of_false Bool.true_eq_false_eq_False (by simpa [admittedTimes] using hfree)
    | cons first before =>
      split at h
      · obtain ⟨rfl, hrest⟩ := List.cons.inj h
        have hlater := ih hrest
        exact hlater
      · obtain ⟨rfl, hrest⟩ := List.cons.inj h
        rw [ih hrest, List.append_assoc]
        rfl

/-- Every admitted call has fewer than the limit in the window behind it. -/
theorem slideAll_admits {times admitted : List τ} {pre post : List τ} {now : τ}
    (h : admittedTimes (slideAll limit width admitted times) = pre ++ now :: post) :
    ((recent width now (admitted ++ pre)).length : Int) < limit := by
  induction times generalizing admitted pre with
  | nil => cases pre <;> cases h
  | cons t later ih =>
    rw [slideAll] at h
    split at h
    · exact ih h
    · rename_i hfree
      cases pre with
      | nil =>
        obtain ⟨rfl, -⟩ := List.cons.inj h
        rw [List.append_nil]
        exact not_le.mp hfree
      | cons first pre =>
        obtain ⟨rfl, hrest⟩ := List.cons.inj h
        have hlater := ih hrest
        rwa [List.append_assoc] at hlater

/-- **No interval shorter than the window holds more admitted calls than the limit.** -/
theorem length_admitted_le {times : List τ} {I : τ → Bool}
    (hI : ∀ x y, I x = true → I y = true → x - width < y) :
    (((admittedTimes (slideAll limit width [] times)).filter I).length : Int) ≤ max limit 0 := by
  generalize hcalls : admittedTimes (slideAll limit width [] times) = calls
  by_cases hnone : calls.filter I = []
  · rw [hnone]
    exact le_max_right _ _
  · -- the last call in the interval has all the others in the window behind it
    obtain ⟨pre, now, post, hsplit, hnow, hpost⟩ : ∃ pre now post, calls = pre ++ now :: post ∧ I now = true ∧
        post.filter I = [] := by
      clear hcalls
      induction calls with
      | nil => exact absurd rfl hnone
      | cons t calls ih =>
        by_cases hrest : calls.filter I = []
        · refine ⟨[], t, calls, rfl, ?_, hrest⟩
          by_contra ht
          exact hnone (by rw [List.filter_cons_of_neg ht, hrest])
        · obtain ⟨pre, now, post, rfl, hnow, hpost⟩ := ih hrest
          exact ⟨t :: pre, now, post, rfl, hnow, hpost⟩
    have hfew := slideAll_admits (hcalls.trans hsplit)
    have hpre : (pre.filter I).length ≤ (recent width now pre).length := by
      refine List.Sublist.length_le (List.monotone_filter_right pre fun t ht => ?_)
      exact decide_eq_true (hI now t hnow ht)
    rw [hsplit, List.filter_append, List.filter_cons_of_pos hnow, hpost, List.length_append]
    rw [List.nil_append] at hfew
    simp only [List.length_singleton]
    omega

/-- **Leaving out rejected calls changes no other decision.** -/
theorem slideAll_of_sublist {times admitted : List τ} {calls : List (τ × Bool)}
    (hsub : calls.Sublist (slideAll limit width admitted times))
    (hadmitted : admittedTimes calls = admittedTimes (slideAll limit width admitted times)) :
    slideAll limit width admitted (calls.map Prod.fst) = calls := by
  induction times generalizing admitted calls with
  | nil =>
    obtain rfl := List.sublist_nil.mp hsub
    rfl
  | cons now later ih =>
    rw [slideAll] at hsub hadmitted
    split at hsub
    · rename_i hfull
      rw [if_pos hfull] at hadmitted
      rcases List.sublist_cons_iff.mp hsub with hrest | ⟨rest, rfl, hrest⟩
      · exact ih hrest hadmitted
      · show slideAll limit width admitted (now :: rest.map Prod.fst) = _
        rw [slideAll, if_pos hfull, ih hrest hadmitted]
    · rename_i hfree
      rw [if_neg hfree] at hadmitted
      rcases List.sublist_cons_iff.mp hsub with hrest | ⟨rest, rfl, hrest⟩
      · -- an admitted call is not left out
        have hless := (hrest.filter Prod.snd).length_le
        have hlength := congrArg List.length hadmitted
        simp only [admittedTimes, List.length_map, List.filter_cons_of_pos, List.length_cons] at hlength
        omega
      · show slideAll limit width admitted (now :: rest.map Prod.fst) = _
        rw [slideAll, if_neg hfree, ih hrest (List.cons.inj hadmitted).2]

/-! ## Windows that start anew -/

/-- What is kept of the current window: how many calls it has counted, and when it started. -/
structure Window (τ : Type) where
  count : Nat
  start : τ

/-- The window has run out. -/
def Window.isOver (width : τ) (w : Window τ) (now : τ) : Bool := decide (width < now - w.start)

/-- The window after a call. -/
def Window.enter (width : τ) (w : Window τ) (now : τ) : Window τ :=
  if w.isOver width now then ⟨1, now⟩ else ⟨w.count + 1, w.start⟩

/-- A call: its time, the start of its window, and whether it is forwarded. -/
structure Call (τ : Type) where
  time : τ
  start : τ
  forwarded : Bool

/-- The calls at these times, from the window `w` on. -/
def anchored (limit : Int) (width : τ) (w : Window τ) : List τ → List (Call τ)
  | [] => []
  | now :: later =>
    ⟨now, (w.enter width now).start, decide (((w.enter width now).count : Int) ≤ limit)⟩ ::
      anchored limit width (w.enter width now) later

/-- Forwarded in the interval from `a` on that is as long as the window. -/
def forwardedFrom (width a : τ) (call : Call τ) : Bool :=
  call.forwarded && decide (a ≤ call.time ∧ call.time ≤ a + width)

theorem forwardedFrom_of_lt {a b : τ} {call : Call τ} (h : a + width < b) (hb : b ≤ call.time) :
    forwardedFrom width a call = false := by
  unfold forwardedFrom
  rw [Bool.and_eq_false_imp]
  intro _
  exact decide_eq_false fun hin => absurd (h.trans_le hb) (not_lt.mpr hin.2)

theorem time_mem_of_mem_anchored {times : List τ} {w : Window τ} {call : Call τ}
    (h : call ∈ anchored limit width w times) : call.time ∈ times := by
  induction times generalizing w with
  | nil => cases h
  | cons now later ih =>
    rcases List.mem_cons.mp h with rfl | h
    · exact List.mem_cons_self
    · exact List.mem_cons_of_mem _ (ih h)

/-- Behind the interval nothing counts. -/
theorem countP_anchored_behind {times : List τ} {w : Window τ} {a now : τ}
    (hnow : ¬ now ≤ a + width) (h : ∀ t ∈ times, now ≤ t) :
    (anchored limit width w (now :: times)).countP (forwardedFrom width a) = 0 := by
  refine List.countP_eq_zero.mpr fun call hcall => ?_
  have htime : now ≤ call.time := by
    rcases List.mem_cons.mp (time_mem_of_mem_anchored hcall) with heq | hmem
    · exact heq.ge
    · exact h _ hmem
  rw [forwardedFrom_of_lt (not_le.mp hnow) htime]
  exact Bool.false_ne_true

/-- A call whose window goes on. -/
theorem enter_of_open {w : Window τ} {now : τ} (h : w.isOver width now = false) :
    w.enter width now = ⟨w.count + 1, w.start⟩ := by
  unfold Window.enter
  rw [h]
  rfl

/-- A call that starts a window. -/
theorem enter_of_over {w : Window τ} {now : τ} (h : w.isOver width now = true) :
    w.enter width now = ⟨1, now⟩ := by
  unfold Window.enter
  rw [if_pos h]

/-- A forwarded call takes one of what its window has left. -/
theorem forwarded_takes_one {count : Nat} {call : Call τ} {a : τ}
    (hcall : call.forwarded = decide (((count + 1 : Nat) : Int) ≤ limit)) :
    (limit - ((count + 1 : Nat) : Int)).toNat + (if forwardedFrom width a call = true then 1 else 0) ≤
      (limit - count).toNat := by
  split
  · rename_i hforwarded
    have hroom := of_decide_eq_true (hcall.symm.trans (Bool.and_eq_true_iff.mp hforwarded).1)
    omega
  · omega

/-- **From a window that started in the interval no more is forwarded than it has left**: it does not run out
    before the interval does. -/
theorem countP_window {times : List τ} (w : Window τ) {a : τ}
    (hsorted : times.Pairwise (· ≤ ·)) (hstart : a ≤ w.start) :
    (anchored limit width w times).countP (forwardedFrom width a) ≤ (limit - w.count).toNat := by
  induction times generalizing w with
  | nil => exact Nat.zero_le _
  | cons now later ih =>
    obtain ⟨hfirst, hsorted⟩ := List.pairwise_cons.mp hsorted
    by_cases hin : now ≤ a + width
    · have hopen : w.isOver width now = false := by
        refine decide_eq_false (not_lt.mpr ?_)
        rw [sub_le_iff_le_add, add_comm]
        exact hin.trans (add_le_add_left hstart width)
      rw [anchored, enter_of_open hopen, List.countP_cons]
      exact (Nat.add_le_add_right (ih ⟨w.count + 1, w.start⟩ hsorted hstart) _).trans (forwarded_takes_one rfl)
    · rw [countP_anchored_behind hin hfirst]
      exact Nat.zero_le _

/-- From any window on, the calls of the interval meet what is left of it and ONE more window. -/
theorem countP_two_windows {times : List τ} (w : Window τ) {a : τ}
    (hsorted : times.Pairwise (· ≤ ·)) (hafter : ∀ t ∈ times, a ≤ t) :
    (anchored limit width w times).countP (forwardedFrom width a) ≤
      (limit - w.count).toNat + limit.toNat := by
  induction times generalizing w with
  | nil => exact Nat.zero_le _
  | cons now later ih =>
    obtain ⟨hfirst, hsorted⟩ := List.pairwise_cons.mp hsorted
    obtain ⟨hnow, hafter⟩ := List.forall_mem_cons.mp hafter
    rw [anchored, List.countP_cons]
    by_cases hover : w.isOver width now = true
    · -- the one window that starts in the interval
      rw [enter_of_over hover]
      have htotal : (anchored limit width ⟨1, now⟩ later).countP (forwardedFrom width a) +
          (if forwardedFrom width a ⟨now, now, decide (((1 : Nat) : Int) ≤ limit)⟩ = true then 1 else 0) ≤
            (limit - ((0 : Nat) : Int)).toNat :=
        (Nat.add_le_add_right (countP_window ⟨1, now⟩ hsorted hnow) _).trans
          (forwarded_takes_one (by rw [Nat.zero_add]))
      rw [Nat.cast_zero, sub_zero] at htotal
      exact htotal.trans (Nat.le_add_left _ _)
    · rw [Bool.not_eq_true] at hover
      rw [enter_of_open hover]
      have hlater := ih ⟨w.count + 1, w.start⟩ hsorted hafter
      refine (Nat.add_le_add_right hlater _).trans ?_
      rw [Nat.add_right_comm]
      exact Nat.add_le_add_right (forwarded_takes_one rfl) _

/-- **No interval as long as the window holds more than twice the limit.** -/
theorem countP_forwarded_le {times : List τ} (w : Window τ) (hsorted : times.Pairwise (· ≤ ·))
    (a : τ) : (anchored limit width w times).countP (forwardedFrom width a) ≤ 2 * limit.toNat := by
  induction times generalizing w with
  | nil => exact Nat.zero_le _
  | cons now later ih =>
    obtain ⟨hfirst, hlater⟩ := List.pairwise_cons.mp hsorted
    by_cases hnow : a ≤ now
    · have hafter : ∀ t ∈ now :: later, a ≤ t :=
        List.forall_mem_cons.mpr ⟨hnow, fun t ht => hnow.trans (hfirst t ht)⟩
      refine (countP_two_windows w hsorted hafter).trans ?_
      have hleft : (limit - w.count).toNat ≤ limit.toNat := by omega
      omega
    · have hno : ∀ call : Call τ, call.time = now → ¬ forwardedFrom width a call = true := by
        intro call htime
        unfold forwardedFrom
        rw [htime]
        simp [hnow]
      rw [anchored, List.countP_cons, if_neg (hno _ rfl)]
      exact ih _ hlater

/-- What the calls so far say of the current window: how many it has counted, and that it forwarded those up to
    the limit. -/
structure Counted (limit : Int) (past : List (Call τ)) (w : Window τ) : Prop where
  forwarded : past.countP (fun call => decide (call.start = w.start) && call.forwarded) = min w.count limit.toNat
  starts : ∀ call ∈ past, call.start ≤ w.start

/-- A call keeps the account. -/
theorem Counted.enter {past : List (Call τ)} {w : Window τ} (hwidth : 0 ≤ width) (h : Counted limit past w)
    (now : τ) : Counted limit
      (past ++ [⟨now, (w.enter width now).start, decide (((w.enter width now).count : Int) ≤ limit)⟩])
      (w.enter width now) := by
  by_cases hover : w.isOver width now = true
  · -- a new window: it starts after all there were
    have hlater : w.start < now := sub_pos.mp (hwidth.trans_lt (of_decide_eq_true hover))
    have hnone : past.countP (fun call => decide (call.start = now) && call.forwarded) = 0 := by
      refine List.countP_eq_zero.mpr fun call hcall => ?_
      rw [decide_eq_false ((h.starts call hcall).trans_lt hlater).ne]
      exact Bool.false_ne_true
    rw [enter_of_over hover]
    constructor
    · rw [List.countP_append, hnone]
      by_cases hroom : ((1 : Nat) : Int) ≤ limit
      · simp only [hroom, List.countP_singleton]
        simp
        omega
      · simp only [hroom, List.countP_singleton]
        simp
        omega
    · intro call hcall
      rcases List.mem_append.mp hcall with hcall | hcall
      · exact (h.starts call hcall).trans hlater.le
      · obtain rfl := List.mem_singleton.mp hcall
        exact le_refl _
  · rw [Bool.not_eq_true] at hover
    rw [enter_of_open hover]
    constructor
    · rw [List.countP_append, h.forwarded]
      by_cases hroom : ((w.count + 1 : Nat) : Int) ≤ limit
      · simp only [hroom, List.countP_singleton]
        simp
        omega
      · simp only [hroom, List.countP_singleton]
        simp
        omega
    · intro call hcall
      rcases List.mem_append.mp hcall with hcall | hcall
      · exact h.starts call hcall
      · obtain rfl := List.mem_singleton.mp hcall
        exact le_refl _

/-- **A call is refused only when its window has forwarded the limit.** -/
theorem forwarded_of_refused {times : List τ} {w : Window τ} {past before after : List (Call τ)}
    {now start : τ} (hwidth : 0 ≤ width) (hpast : Counted limit past w)
    (h : anchored limit width w times = before ++ ⟨now, start, false⟩ :: after) :
    (past ++ before).countP (fun call => decide (call.start = start) && call.forwarded) = limit.toNat := by
  induction times generalizing w past before with
  | nil => cases before <;> cases h
  | cons t later ih =>
    have hnext := hpast.enter hwidth t
    cases before with
    | nil =>
      obtain ⟨hhead, -⟩ := List.cons.inj h
      obtain ⟨-, hstart, hrefused⟩ := Call.mk.inj hhead
      have hfull : ¬ ((w.enter width t).count : Int) ≤ limit := of_decide_eq_false hrefused
      have hforwarded := hnext.forwarded
      rw [hrefused, hstart, List.countP_append, List.countP_singleton, Bool.and_false] at hforwarded
      rw [List.append_nil]
      exact hforwarded.trans (min_eq_right (by omega))
    | cons first before =>
      obtain ⟨rfl, hrest⟩ := List.cons.inj h
      have hlater := ih hnext hrest
      rwa [List.append_assoc] at hlater

/-- Every call counts itself, so under a limit below one nothing is forwarded. -/
theorem refused_of_limit {times : List τ} {w : Window τ} (hlimit : limit < 1) :
    ∀ call ∈ anchored limit width w times, call.forwarded = false := by
  induction times generalizing w with
  | nil => exact fun call hcall => absurd hcall List.not_mem_nil
  | cons now later ih =>
    refine List.forall_mem_cons.mpr ⟨decide_eq_false ?_, ih⟩
    unfold Window.enter
    split <;> simp only <;> omega

/-- A window of negative length is over at the next call, so each call is the first of its own. -/
theorem forwarded_of_neg {times : List τ} {w : Window τ} (hwidth : width < 0) (hlimit : 1 ≤ limit)
    (hsorted : times.Pairwise (· ≤ ·)) (hw : ∀ t ∈ times, w.start ≤ t) :
    ∀ call ∈ anchored limit width w times, call.forwarded = true := by
  induction times generalizing w with
  | nil => exact fun call hcall => absurd hcall List.not_mem_nil
  | cons now later ih =>
    obtain ⟨hfirst, hsorted⟩ := List.pairwise_cons.mp hsorted
    have hover : w.isOver width now = true :=
      decide_eq_true (hwidth.trans_le (sub_nonneg.mpr (hw now List.mem_cons_self)))
    rw [anchored, enter_of_over hover]
    exact List.forall_mem_cons.mpr ⟨decide_eq_true (by omega), ih hsorted hfirst⟩

/-- **From the first call on, a call is refused only when its window has forwarded the limit**, whatever the
    length of the windows.  The first window may start a little after the first call. -/
theorem forwarded_of_refused_first {first created : τ} {later : List τ} {before after : List (Call τ)}
    {now start : τ} (hsorted : later.Pairwise (· ≤ ·)) (hfirst : first ≤ created)
    (hlater : ∀ t ∈ later, created ≤ t)
    (h : anchored limit width ⟨0, created⟩ (first :: later) = before ++ ⟨now, start, false⟩ :: after) :
    before.countP (fun call => decide (call.start = start) && call.forwarded) = limit.toNat := by
  have hcall : (⟨now, start, false⟩ : Call τ) ∈ anchored limit width ⟨0, created⟩ (first :: later) := by
    rw [h]
    exact List.mem_append_right _ List.mem_cons_self
  by_cases hlimit : limit < 1
  · -- nothing is forwarded at all
    have hnone : before.countP (fun call => decide (call.start = start) && call.forwarded) = 0 := by
      refine List.countP_eq_zero.mpr fun call hbefore => ?_
      rw [refused_of_limit hlimit call (by rw [h]; exact List.mem_append_left _ hbefore), Bool.and_false]
      exact Bool.false_ne_true
    rw [hnone]
    omega
  · by_cases hwidth : 0 ≤ width
    · have hempty : Counted limit [] (⟨0, created⟩ : Window τ) :=
        ⟨by simp, fun call hcall => absurd hcall List.not_mem_nil⟩
      have hcount := forwarded_of_refused hwidth hempty h
      rwa [List.nil_append] at hcount
    · -- nothing is refused
      exfalso
      rw [anchored] at hcall
      rcases List.mem_cons.mp hcall with hhead | hcall
      · have hone : (Window.enter width ⟨0, created⟩ first).count = 1 := by
          unfold Window.enter
          split <;> rfl
        rw [hone] at hhead
        have hforwarded := (Call.mk.inj hhead).2.2
        exact Bool.false_ne_true (hforwarded.trans (decide_eq_true (by omega)))
      · refine Bool.false_ne_true (forwarded_of_neg (not_le.mp hwidth) (not_lt.mp hlimit) hsorted ?_ _ hcall)
        intro t ht
        unfold Window.enter
        split
        · exact hfirst.trans (hlater t ht)
        · exact hlater t ht

end RateLimit
