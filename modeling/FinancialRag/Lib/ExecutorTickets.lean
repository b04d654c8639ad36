/-
  **Abandoned jobs.**  Who waits for a job, and what a caller leaves behind when it ends.

  As long as no timer of a caller fires, each of its jobs is waited for by a thread of its own
  (`attended_step`), so it ends with none left: the one on the worker would have to wait for itself
  (`Attended.gone`).  A caller that is gone does nothing more.
-/
import FinancialRag.Lib.Executor

set_option linter.unusedVariables false

namespace Executor

variable {κ σ α ε : Type}

/-- A thread of the owner waits for the job: the caller's, or the worker's on an earlier job. -/
def Awaited (s : Executor κ σ α ε) (c : κ) (ticket : Nat) : Prop :=
  (∃ next, s.callers c = some (.waiting ticket next)) ∨
    ∃ job next, s.worker = some job ∧ job.owner = c ∧ job.ticket < ticket ∧
      job.thread = .waiting ticket next

/-- The tickets of the unfinished jobs are pairwise different, and their futures have no result. -/
structure Tickets (s : Executor κ σ α ε) : Prop where
  nodup : (s.queue.map Job.ticket).Nodup
  worker : ∀ job, s.worker = some job → job.ticket ∉ s.queue.map Job.ticket
  futures : ∀ job, s.Unfinished job → s.futures[job.ticket]? = some (job.owner, none)

/-- Every ticket in use is below the number of futures. -/
theorem Tickets.lt_length {s : Executor κ σ α ε} (hinv : s.Tickets) {job : Job κ σ α ε}
    (h : s.Unfinished job) : job.ticket < s.futures.length :=
  (List.getElem?_eq_some_iff.mp (hinv.futures job h)).1

/-- Every unfinished job of `c` is waited for. -/
def Attended (s : Executor κ σ α ε) (c : κ) : Prop :=
  ∀ job, s.Unfinished job → job.owner = c → s.Awaited c job.ticket

/-- A timer of `c` has fired. -/
def Fired (s : Executor κ σ α ε) (c : κ) : Prop := s.Earned (fun o => o = .fired) c

/-- A caller that has ended and has left no job behind. -/
structure Gone (s : Executor κ σ α ε) (c : κ) : Prop where
  ended : ∃ r, s.callers c = some (.ended r)
  noJob : ∀ job, s.Unfinished job → job.owner ≠ c

/-- A caller whose jobs are all waited for has left none behind when it ends: the one on the worker
    would have to wait for itself. -/
theorem Attended.gone {s : Executor κ σ α ε} {c : κ} (hinv : s.Attended c) {r : α}
    (hended : s.callers c = some (.ended r)) : s.Gone c := by
  have hcaller : ∀ ticket next, s.callers c ≠ some (.waiting ticket next) := by
    intro ticket next habs
    rw [hended] at habs
    cases habs
  have hworker : ∀ job, s.worker = some job → job.owner ≠ c := by
    intro job hjob howner
    rcases hinv job (Or.inl hjob) howner with ⟨next, habs⟩ | ⟨job', next, hjob', _, hlt, _⟩
    · exact hcaller _ _ habs
    · obtain rfl : job = job' := Option.some.inj (hjob.symm.trans hjob')
      exact absurd hlt (Nat.lt_irrefl _)
  refine ⟨⟨r, hended⟩, ?_⟩
  rintro job (hjob | hjob) howner
  · exact hworker job hjob howner
  · rcases hinv job (Or.inr hjob) howner with ⟨next, habs⟩ | ⟨job', next, hjob', howner', _⟩
    · exact hcaller _ _ habs
    · exact hworker job' hjob' howner'

/-- The thread that moves is not one of a caller that is gone. -/
theorem Gone.ne_owner {s : Executor κ σ α ε} {c c' : κ} (hgone : s.Gone c) {p : Party κ}
    {th : Thread σ α ε} (hthread : s.thread p = some (c', th)) (hlive : ∀ r, th ≠ .ended r) :
    c' ≠ c := by
  rintro rfl
  obtain ⟨r, hended⟩ := hgone.ended
  cases p with
  | caller c₀ =>
    obtain ⟨rfl, hth⟩ := thread_caller hthread
    rw [hended] at hth
    exact hlive r (Option.some.inj hth).symm
  | worker =>
    obtain ⟨job, hjob, howner, _⟩ := thread_worker hthread
    exact hgone.noJob job (Or.inl hjob) howner

theorem tickets_idle (shared : σ) : (idle shared : Executor κ σ α ε).Tickets where
  nodup := List.nodup_nil
  worker := by
    intro job hjob
    cases hjob
  futures := by
    rintro job (hjob | hjob)
    · cases hjob
    · cases hjob

variable [DecidableEq κ]

theorem Tickets.setThread {s : Executor κ σ α ε} (hinv : s.Tickets) (th : Thread σ α ε)
    (p : Party κ) : (s.setThread th p).Tickets := by
  refine ⟨?_, ?_, ?_⟩
  · rw [queue_setThread]
    exact hinv.nodup
  · intro job hjob
    rw [queue_setThread]
    cases p with
    | caller c => exact hinv.worker job hjob
    | worker =>
      obtain ⟨job₀, hjob₀, rfl⟩ := Option.map_eq_some_iff.mp hjob
      exact hinv.worker job₀ hjob₀
  · intro job hjob
    obtain ⟨job₀, hjob₀, howner, hticket⟩ := job_setThread hjob
    rw [futures_setThread, ← howner, ← hticket]
    exact hinv.futures job₀ hjob₀

theorem tickets_step {program : κ → Proc σ α ε} {s t : Executor κ σ α ε} (hinv : s.Tickets)
    (h : Stepped program s t) : t.Tickets := by
  cases h with
  | begin c _ => exact hinv.setThread _ _
  | @move p c th th' os shared _ _ =>
    obtain ⟨hnodup, hworker, hfutures⟩ := hinv.setThread th' p
    exact ⟨hnodup, hworker, hfutures⟩
  | @submit p c job next hthread =>
    obtain ⟨hnodup, hworker, hfutures⟩ := hinv.setThread (.waiting s.futures.length next) p
    have hlt : ∀ j, (s.setThread (.waiting s.futures.length next) p).Unfinished j →
        j.ticket < s.futures.length := by
      intro j hj
      obtain ⟨j₀, hj₀, _, hticket⟩ := job_setThread hj
      rw [← hticket]
      exact hinv.lt_length hj₀
    refine ⟨?_, ?_, ?_⟩
    · rw [List.map_append, List.nodup_append]
      rw [queue_setThread] at hnodup
      refine ⟨hnodup, List.nodup_singleton _, ?_⟩
      intro a ha b hb hab
      obtain rfl : b = s.futures.length := List.mem_singleton.mp hb
      obtain ⟨j, hj, rfl⟩ := List.mem_map.mp ha
      exact absurd hab (Nat.ne_of_lt (hinv.lt_length (Or.inr hj)))
    · intro j hj
      rw [List.map_append, List.mem_append, not_or]
      refine ⟨?_, ?_⟩
      · have := hworker j hj
        rwa [queue_setThread] at this
      · intro hnew
        have heq : j.ticket = s.futures.length := List.mem_singleton.mp hnew
        exact absurd heq (Nat.ne_of_lt (hlt j (Or.inl hj)))
    · rintro j (hj | hj)
      · have hget := hfutures j (Or.inl hj)
        rw [futures_setThread] at hget
        rw [List.getElem?_append_left (hlt j (Or.inl hj))]
        exact hget
      · rcases List.mem_append.mp hj with hold | hnew
        · rw [List.getElem?_append_left (hinv.lt_length (Or.inr hold))]
          exact hinv.futures j (Or.inr hold)
        · obtain rfl := List.mem_singleton.mp hnew
          simp
  | ended c _ => exact hinv.setThread _ _
  | @finished job r hworker hthread =>
    refine ⟨hinv.nodup, fun j hj => ?_, ?_⟩
    · cases hj
    · rintro j (hj | hj)
      · cases hj
      · have hne : job.ticket ≠ j.ticket :=
          fun heq => hinv.worker job hworker (heq ▸ List.mem_map_of_mem hj)
        rw [List.getElem?_modify, hinv.futures j (Or.inr hj)]
        simp [hne]
  | @take job rest hworker hqueue =>
    have hnodup := hinv.nodup
    rw [hqueue, List.map_cons, List.nodup_cons] at hnodup
    refine ⟨hnodup.2, ?_, ?_⟩
    · intro j hj
      obtain rfl : job = j := Option.some.inj hj
      exact hnodup.1
    · rintro j (hj | hj)
      · obtain rfl : job = j := Option.some.inj hj
        exact hinv.futures job (Or.inr (hqueue ▸ List.mem_cons_self))
      · exact hinv.futures j (Or.inr (hqueue ▸ List.mem_cons_of_mem _ hj))
  | disturb shared => exact ⟨hinv.nodup, hinv.worker, hinv.futures⟩

/-- A wait survives the move of another thread, or of one that was not waiting for this ticket. -/
theorem awaited_setThread {s : Executor κ σ α ε} {p : Party κ} {c c' : κ} {th th' : Thread σ α ε}
    {ticket : Nat} (hthread : s.thread p = some (c, th))
    (hother : c' = c → ∀ next, th ≠ .waiting ticket next) (h : s.Awaited c' ticket) :
    (s.setThread th' p).Awaited c' ticket := by
  rcases h with ⟨next, hcaller⟩ | ⟨job, next, hworker, howner, hlt, hwaits⟩
  · left
    cases p with
    | caller c₀ =>
      obtain ⟨rfl, hth⟩ := thread_caller hthread
      by_cases hc : c' = c
      · subst hc
        have heq := Option.some.inj (hth.symm.trans hcaller)
        exact absurd heq (hother rfl next)
      · exact ⟨next, (Function.update_of_ne hc _ _).trans hcaller⟩
    | worker => exact ⟨next, hcaller⟩
  · right
    cases p with
    | caller c₀ => exact ⟨job, next, hworker, howner, hlt, hwaits⟩
    | worker =>
      obtain ⟨job₀, hjob₀, howner₀, hth⟩ := thread_worker hthread
      obtain rfl : job = job₀ := Option.some.inj (hworker.symm.trans hjob₀)
      exact absurd (hth.symm.trans hwaits) (hother (howner.symm.trans howner₀) next)

/-- A thread of `c` that moves without its timer firing goes on waiting for what is not there yet. -/
theorem Attended.move {s : Executor κ σ α ε} {c c₀ : κ} {p : Party κ} {th th' : Thread σ α ε}
    {os : List (Obs α ε)} (shared : σ) (htickets : s.Tickets) (hinv : s.Attended c)
    (hthread : s.thread p = some (c₀, th)) (hlocal : th.Local s.futures th' os)
    (hfired : ¬ Fired { (s.setThread th' p).noteAll c₀ os with shared := shared } c) :
    Attended { (s.setThread th' p).noteAll c₀ os with shared := shared } c := by
  intro job hjob howner
  have hbefore : (s.setThread th' p).Unfinished job := hjob
  obtain ⟨job₀, hjob₀, howner₀, hticket⟩ := job_setThread hbefore
  have hawaited : s.Awaited c job.ticket := hticket ▸ hinv job₀ hjob₀ (howner₀.trans howner)
  refine awaited_setThread hthread ?_ hawaited
  -- who resumed had its result, and nobody's timer fired
  rintro rfl next rfl
  have hopen := htickets.futures job₀ hjob₀
  cases hlocal with
  | resume next hget =>
    rw [← hticket, hopen] at hget
    cases hget
  | fire next hget =>
    have hlogged : ((s.setThread (.run (next none)) p).noteAll c [.fired]).Fired c :=
      earned_noteAll.mpr (Or.inr ⟨rfl, .fired, List.mem_singleton.mpr rfl, rfl⟩)
    exact hfired hlogged

/-- The new job is waited for by the thread that has submitted it. -/
theorem Attended.submit {s : Executor κ σ α ε} {c c₀ : κ} {p : Party κ} {job₁ : Proc σ α ε}
    {next : Option α → Proc σ α ε} (htickets : s.Tickets) (hinv : s.Attended c)
    (hthread : s.thread p = some (c₀, .run (.await job₁ next))) :
    Attended
      { s.setThread (.waiting s.futures.length next) p with
        futures := s.futures ++ [(c₀, none)]
        queue := s.queue ++ [⟨c₀, s.futures.length, .run job₁⟩] } c := by
  intro job hjob howner
  have hold : ∀ ticket, s.Awaited c ticket →
      (s.setThread (.waiting s.futures.length next) p).Awaited c ticket := by
    intro ticket
    refine awaited_setThread hthread ?_
    intro _ next' habs
    cases habs
  have hcase : (s.setThread (.waiting s.futures.length next) p).Unfinished job ∨
      job = ⟨c₀, s.futures.length, .run job₁⟩ := by
    rcases hjob with hworker | hqueue
    · exact Or.inl (Or.inl hworker)
    · rcases List.mem_append.mp hqueue with hold | hnew
      · refine Or.inl (Or.inr ?_)
        rw [queue_setThread]
        exact hold
      · exact Or.inr (List.mem_singleton.mp hnew)
  rcases hcase with hunfinished | rfl
  · obtain ⟨job₀, hjob₀, howner₀, hticket⟩ := job_setThread hunfinished
    exact hold job.ticket (hticket ▸ hinv job₀ hjob₀ (howner₀.trans howner))
  · obtain rfl : c₀ = c := howner
    cases p with
    | caller c₁ =>
      obtain ⟨rfl, _⟩ := thread_caller hthread
      exact Or.inl ⟨next, Function.update_self ..⟩
    | worker =>
      obtain ⟨job₀, hjob₀, howner₀, _⟩ := thread_worker hthread
      have hlt := htickets.lt_length (Or.inl hjob₀)
      refine Or.inr ⟨{ job₀ with thread := .waiting s.futures.length next }, next, ?_, howner₀, hlt,
        rfl⟩
      show s.worker.map _ = _
      rw [hjob₀]
      rfl

/-- **As long as no timer of `c` fires, its jobs are waited for.** -/
theorem attended_step {program : κ → Proc σ α ε} {c : κ} {s t : Executor κ σ α ε}
    (htickets : s.Tickets) (hinv : s.Attended c) (h : Stepped program s t) (hfired : ¬ t.Fired c) :
    t.Attended c := by
  cases h with
  | begin c₀ hnone =>
    intro job hjob howner
    rcases hinv job hjob howner with ⟨next, hcaller⟩ | hworker
    · left
      have hne : c ≠ c₀ := by
        rintro rfl
        rw [hnone] at hcaller
        cases hcaller
      exact ⟨next, (Function.update_of_ne hne _ _).trans hcaller⟩
    · exact Or.inr hworker
  | move p c₀ shared hthread hlocal => exact hinv.move shared htickets hthread hlocal hfired
  | submit p c₀ hthread => exact hinv.submit htickets hthread
  | @ended c₀ r hcaller =>
    intro job hjob howner
    refine awaited_setThread (thread_of_caller hcaller) ?_ (hinv job hjob howner)
    intro _ next habs
    cases habs
  | @finished job₁ r hworker hthread =>
    intro job hjob howner
    have hold : s.Unfinished job := by
      rcases hjob with hj | hj
      · cases hj
      · exact Or.inr hj
    rcases hinv job hold howner with hcaller | ⟨job₀, next, hworker₀, _, _, hwaits⟩
    · exact Or.inl hcaller
    · obtain rfl : job₁ = job₀ := Option.some.inj (hworker.symm.trans hworker₀)
      rw [hthread] at hwaits
      cases hwaits
  | @take job₁ rest hworker hqueue =>
    intro job hjob howner
    have hold : s.Unfinished job := by
      rcases hjob with hj | hj
      · obtain rfl : job₁ = job := Option.some.inj hj
        exact Or.inr (hqueue ▸ List.mem_cons_self)
      · exact Or.inr (hqueue ▸ List.mem_cons_of_mem _ hj)
    rcases hinv job hold howner with hcaller | ⟨job₀, next, hworker₀, _⟩
    · exact Or.inl hcaller
    · rw [hworker] at hworker₀
      cases hworker₀
  | disturb shared => exact hinv

/-- A caller's end is not undone by a thread that is still running. -/
theorem ended_setThread {s : Executor κ σ α ε} {p : Party κ} {c c' : κ} {th : Thread σ α ε} {r : α}
    (hended : s.callers c = some (.ended r)) (hthread : s.thread p = some (c', th))
    (hlive : ∀ r, th ≠ .ended r) (th' : Thread σ α ε) :
    (s.setThread th' p).callers c = some (.ended r) := by
  cases p with
  | caller c₀ =>
    obtain ⟨rfl, hth⟩ := thread_caller hthread
    have hne : c ≠ c' := by
      rintro rfl
      exact hlive r (Option.some.inj (hth.symm.trans hended))
    exact (Function.update_of_ne hne _ _).trans hended
  | worker => exact hended

/-- A caller that has ended stays ended. -/
theorem ended_step {program : κ → Proc σ α ε} {c : κ} {r : α} {s t : Executor κ σ α ε}
    (hended : s.callers c = some (.ended r)) (h : Stepped program s t) :
    t.callers c = some (.ended r) := by
  cases h with
  | begin c₀ hnone =>
    have hne : c ≠ c₀ := by
      rintro rfl
      rw [hended] at hnone
      cases hnone
    exact (Function.update_of_ne hne _ _).trans hended
  | @move p c' th th' os shared hthread hlocal =>
    exact ended_setThread hended hthread (by rintro r rfl; cases hlocal) th'
  | submit p c' hthread => exact ended_setThread hended hthread (by rintro r habs; cases habs) _
  | ended c' hcaller =>
    exact ended_setThread hended (thread_of_caller hcaller) (by rintro r habs; cases habs) _
  | finished hworker hthread => exact hended
  | take hworker hqueue => exact hended
  | disturb shared => exact hended

/-- A caller that is gone does nothing more. -/
theorem gone_step {program : κ → Proc σ α ε} {c : κ} {s t : Executor κ σ α ε} (hgone : s.Gone c)
    (h : Stepped program s t) : t.Gone c ∧ t.calls c = s.calls c := by
  obtain ⟨r, hended⟩ := hgone.ended
  have hended' : ∃ r, t.callers c = some (.ended r) := ⟨r, ended_step hended h⟩
  have hjobs : ∀ (p : Party κ) (th : Thread σ α ε) (job : Job κ σ α ε),
      (s.setThread th p).Unfinished job → job.owner ≠ c := by
    intro p th job hjob
    obtain ⟨job₀, hjob₀, howner, _⟩ := job_setThread hjob
    rw [← howner]
    exact hgone.noJob job₀ hjob₀
  cases h with
  | begin c₀ hnone => exact ⟨⟨hended', hgone.noJob⟩, rfl⟩
  | @move p c' th th' os shared hthread hlocal =>
    have hne : c' ≠ c := hgone.ne_owner hthread (by rintro r rfl; cases hlocal)
    refine ⟨⟨hended', hjobs p th'⟩, ?_⟩
    show ((s.setThread th' p).noteAll c' os).calls c = s.calls c
    rw [calls_noteAll, calls_setThread, if_neg (Ne.symm hne), Nat.add_zero]
  | @submit p c' job next hthread =>
    have hne : c' ≠ c := hgone.ne_owner hthread (by rintro r habs; cases habs)
    refine ⟨⟨hended', ?_⟩, calls_setThread ..⟩
    rintro j (hj | hj)
    · exact hjobs p (.waiting s.futures.length next) j (Or.inl hj)
    · rcases List.mem_append.mp hj with hold | hnew
      · exact hgone.noJob j (Or.inr hold)
      · obtain rfl := List.mem_singleton.mp hnew
        exact hne
  | ended c' hcaller => exact ⟨⟨hended', hgone.noJob⟩, rfl⟩
  | @finished job r' hworker hthread =>
    refine ⟨⟨hended', ?_⟩, rfl⟩
    rintro j (hj | hj)
    · cases hj
    · exact hgone.noJob j (Or.inr hj)
  | @take job rest hworker hqueue =>
    refine ⟨⟨hended', ?_⟩, rfl⟩
    rintro j (hj | hj)
    · obtain rfl : job = j := Option.some.inj hj
      exact hgone.noJob job (Or.inr (hqueue ▸ List.mem_cons_self))
    · exact hgone.noJob j (Or.inr (hqueue ▸ List.mem_cons_of_mem _ hj))
  | disturb shared => exact ⟨⟨hended', hgone.noJob⟩, rfl⟩

/-- What has fired stays in the log. -/
theorem fired_mono {program : κ → Proc σ α ε} {c : κ} {s t : Executor κ σ α ε}
    (h : Stepped program s t) (hfired : s.Fired c) : t.Fired c := by
  have hset : ∀ (th : Thread σ α ε) (p : Party κ), (s.setThread th p).Fired c := by
    intro th p
    unfold Fired Earned
    rw [log_setThread]
    exact hfired
  cases h with
  | begin c₀ _ => exact hset _ _
  | @move p c₀ th th' os shared _ _ =>
    have hnoted : ((s.setThread th' p).noteAll c₀ os).Fired c :=
      earned_noteAll.mpr (Or.inl (hset th' p))
    exact hnoted
  | submit p c₀ _ => exact hset _ p
  | ended c₀ _ => exact hset _ _
  | finished _ _ => exact hfired
  | take _ _ => exact hfired
  | disturb shared => exact hfired

/-- The jobs of a caller none of whose timers has fired are waited for, all along a run. -/
theorem attended_of_run {program : κ → Proc σ α ε} {shared : σ} {ms : List (Move κ σ α)}
    {t : Executor κ σ α ε} (h : Machine.Run (step program) Machine.Always (idle shared) ms t) {c : κ}
    (hfired : ¬ t.Fired c) : t.Attended c := by
  have hinv : t.Tickets ∧ (t.Fired c ∨ t.Attended c) := by
    refine h.invariant (I := fun t => t.Tickets ∧ (t.Fired c ∨ t.Attended c)) ?_
      ⟨tickets_idle shared, Or.inr ?_⟩
    · rintro s m t ⟨htickets, hs⟩ _ hstep
      have hstepped := stepped_of_step hstep
      refine ⟨tickets_step htickets hstepped, ?_⟩
      by_cases hf : t.Fired c
      · exact Or.inl hf
      · rcases hs with hold | hattended
        · exact absurd (fired_mono hstepped hold) hf
        · exact Or.inr (attended_step htickets hattended hstepped hf)
    · rintro job (hjob | hjob)
      · cases hjob
      · cases hjob
  exact hinv.2.resolve_left hfired

/-- **A caller that ended without a timer having fired calls no more.** -/
theorem no_call_after_end {program : κ → Proc σ α ε} {shared : σ} {ms ms' : List (Move κ σ α)}
    {s t : Executor κ σ α ε} (h : Machine.Run (step program) Machine.Always (idle shared) ms s)
    (h' : Machine.Run (step program) Machine.Always s ms' t) {c : κ} {r : α}
    (hended : s.callers c = some (.ended r)) (hfired : ¬ s.Fired c) : t.calls c = s.calls c := by
  have hgone : s.Gone c := (attended_of_run h hfired).gone hended
  have hinv : t.Gone c ∧ t.calls c = s.calls c := by
    refine h'.invariant (I := fun t => t.Gone c ∧ t.calls c = s.calls c) ?_ ⟨hgone, rfl⟩
    rintro u m v ⟨hu, hcalls⟩ _ hstep
    obtain ⟨hv, hsame⟩ := gone_step hu (stepped_of_step hstep)
    exact ⟨hv, hsame.trans hcalls⟩
  exact hinv.2

/-- A caller that has ended stays ended along a run. -/
theorem ended_of_run {program : κ → Proc σ α ε} {s t : Executor κ σ α ε} {ms : List (Move κ σ α)}
    (h : Machine.Run (step program) Machine.Always s ms t) {c : κ} {r : α}
    (hended : s.callers c = some (.ended r)) : t.callers c = some (.ended r) :=
  h.invariant (I := fun t => t.callers c = some (.ended r))
    (fun _ _ _ hs _ hstep => ended_step hs (stepped_of_step hstep)) hended

/-- A move that logs anything but a call starts none. -/
theorem calls_note {s : Executor κ σ α ε} {o : Obs α ε} (ho : o.isCalled = false) (c c' : κ) :
    (s.note c' o).calls c = s.calls c := by
  have hall : (s.note c' o).calls c = _ := calls_noteAll s c' c [o]
  rw [List.countP_singleton, ho] at hall
  simpa using hall

/-- What one action of a process calls. -/
theorem calls_perform {s : Executor κ σ α ε} {p : Party κ} {c c' : κ} {q : Proc σ α ε}
    (hthread : s.thread p = some (c', .run q)) (hother : c' = c → ∀ next, q ≠ .call next) :
    (s.perform p c' q).calls c = s.calls c := by
  cases q with
  | ret r =>
    cases p with
    | caller c₁ => exact calls_setThread ..
    | worker =>
      obtain ⟨job, hjob, _⟩ := thread_worker hthread
      show (s.finish r .worker).calls c = s.calls c
      unfold finish
      rw [hjob]
      rfl
  | act update next => exact calls_setThread ..
  | emit e next => exact (calls_note rfl c c').trans (calls_setThread ..)
  | call next =>
    have hne : ¬ c = c' := fun heq => hother heq.symm next rfl
    have hall := calls_noteAll (s.setThread (.calling next) p) c' c [.called]
    rw [if_neg hne, calls_setThread, Nat.add_zero] at hall
    exact hall
  | await job next => exact calls_setThread ..

/-- **Who starts a call**: a thread of that caller whose process is at a call. -/
theorem step_of_new_call {program : κ → Proc σ α ε} {s t : Executor κ σ α ε} {m : Move κ σ α}
    {c : κ} (hstep : step program s m = some t) (hcalls : t.calls c ≠ s.calls c) :
    ∃ p next, m = .step p ∧ s.thread p = some (c, .run (.call next)) := by
  cases m with
  | begin c₀ =>
    simp only [step] at hstep
    split at hstep
    · cases hstep
      exact absurd (calls_setThread ..) hcalls
    · cases hstep
  | step p =>
    simp only [step] at hstep
    split at hstep
    · rename_i c₀ q hthread
      cases hstep
      by_contra hnone
      refine hcalls (calls_perform hthread ?_)
      rintro rfl next rfl
      exact hnone ⟨p, next, rfl, hthread⟩
    · cases hstep
  | answer p r' =>
    simp only [step] at hstep
    split at hstep
    · cases hstep
      exact absurd ((calls_note rfl _ _).trans (calls_setThread ..)) hcalls
    · cases hstep
  | resume p =>
    simp only [step] at hstep
    split at hstep
    · split at hstep
      · cases hstep
        exact absurd (calls_setThread ..) hcalls
      · cases hstep
    · cases hstep
  | fire p =>
    simp only [step] at hstep
    split at hstep
    · split at hstep
      · cases hstep
        exact absurd ((calls_note rfl _ _).trans (calls_setThread ..)) hcalls
      · cases hstep
    · cases hstep
  | take =>
    simp only [step] at hstep
    split at hstep
    · cases hstep
      exact absurd rfl hcalls
    · cases hstep
  | disturb shared =>
    cases hstep
    exact absurd rfl hcalls

/-- Only a step of the worker, on a job of its own, starts a call of a caller that has ended. -/
theorem worker_of_late_call {program : κ → Proc σ α ε} {s t : Executor κ σ α ε} {m : Move κ σ α}
    {c : κ} {r : α} (hended : s.callers c = some (.ended r)) (hstep : step program s m = some t)
    (hcalls : t.calls c ≠ s.calls c) :
    m = .step .worker ∧ ∃ job, s.worker = some job ∧ job.owner = c := by
  obtain ⟨p, next, rfl, hthread⟩ := step_of_new_call hstep hcalls
  cases p with
  | caller c₀ =>
    obtain ⟨rfl, hth⟩ := thread_caller hthread
    rw [hended] at hth
    cases hth
  | worker =>
    obtain ⟨job, hjob, howner, _⟩ := thread_worker hthread
    exact ⟨rfl, job, hjob, howner⟩

end Executor
