/-
  **An honest caller that ends well has earned it.**

  `HonestInv` follows a caller through the machine: its threads are honest about what its log has earned,
  the good results of its jobs are earned, and it waits only for futures of its own.
-/
import FinancialRag.Lib.Executor

set_option linter.unusedVariables false

/-- A thread that ends well only if it has earned it. -/
def Thread.Honest {σ α ε : Type} (ok : α → Prop) (credit : Obs α ε → Prop) (earned : Prop) :
    Thread σ α ε → Prop
  | .run p => p.Honest ok credit earned
  | .calling next => ∀ r, (next r).Honest ok credit (earned ∨ credit (.returned r))
  | .waiting _ next => ∀ r, (next r).Honest ok credit (earned ∨ ∃ a, r = some a ∧ ok a)
  | .ended r => ok r → earned

namespace Executor

variable {κ σ α ε : Type} {ok : α → Prop} {credit : Obs α ε → Prop}

/-- `th` is a thread of `c`: its own, the worker on a job of `c`, or a job of `c` in the queue. -/
def Has (s : Executor κ σ α ε) (c : κ) (th : Thread σ α ε) : Prop :=
  s.callers c = some th ∨ (∃ job, s.worker = some job ∧ job.owner = c ∧ job.thread = th) ∨
    ∃ job ∈ s.queue, job.owner = c ∧ job.thread = th

theorem has_of_thread {s : Executor κ σ α ε} {p : Party κ} {c : κ} {th : Thread σ α ε}
    (h : s.thread p = some (c, th)) : s.Has c th := by
  cases p with
  | caller c' =>
    obtain ⟨rfl, hcaller⟩ := thread_caller h
    exact Or.inl hcaller
  | worker => exact Or.inr (Or.inl (thread_worker h))

theorem honest_mono {th : Thread σ α ε} {earned earned' : Prop} (himp : earned → earned')
    (h : th.Honest ok credit earned) : th.Honest ok credit earned' := by
  cases th with
  | run p => exact Proc.Honest.mono himp h
  | calling next => exact fun r => (h r).mono (Or.imp_left himp)
  | waiting ticket next => exact fun r => (h r).mono (Or.imp_left himp)
  | ended r => exact fun hr => himp (h hr)

/-- A local move keeps a thread honest; a result that is waited for was earned by the job. -/
theorem honest_local {futures : List (κ × Option α)} {th th' : Thread σ α ε} {os : List (Obs α ε)}
    {earned : Prop} (hlocal : th.Local futures th' os)
    (hfuture : ∀ ticket next, th = .waiting ticket next → ∀ c r,
      futures[ticket]? = some (c, some r) → ok r → earned)
    (h : th.Honest ok credit earned) :
    th'.Honest ok credit (earned ∨ ∃ o ∈ os, credit o) := by
  cases hlocal with
  | act update next s => exact (h s).mono Or.inl
  | emit e next =>
    refine Proc.Honest.mono ?_ h
    exact Or.imp_right fun hcredit => ⟨_, List.mem_singleton.mpr rfl, hcredit⟩
  | call next => exact fun r => (h r).mono (Or.imp_left Or.inl)
  | answer next r =>
    refine Proc.Honest.mono ?_ (h r)
    exact Or.imp_right fun hcredit => ⟨_, List.mem_singleton.mpr rfl, hcredit⟩
  | @resume ticket c r next hget =>
    refine Proc.Honest.mono ?_ (h (some r))
    rintro (hearned | ⟨a, ha, hok⟩)
    · exact Or.inl hearned
    · obtain rfl : r = a := Option.some.inj ha
      exact Or.inl (hfuture ticket next rfl c r hget hok)
  | fire next hget =>
    refine Proc.Honest.mono ?_ (h none)
    rintro (hearned | ⟨a, ha, _⟩)
    · exact Or.inl hearned
    · cases ha

/-- What the machine keeps of an honest caller: its threads are honest about what its log has earned,
    good results of its jobs are earned, and it waits only for futures of its own. -/
structure HonestInv (ok : α → Prop) (credit : Obs α ε → Prop) (c : κ) (s : Executor κ σ α ε) :
    Prop where
  threads : ∀ th, s.Has c th → th.Honest ok credit (s.Earned credit c)
  results : ∀ (ticket : Nat) (r : α), s.futures[ticket]? = some (c, some r) → ok r → s.Earned credit c
  waits : ∀ ticket next, s.Has c (.waiting ticket next) →
    ∃ future, s.futures[ticket]? = some (c, future)
  jobs : ∀ job, s.Unfinished job →
    ∃ future, s.futures[job.ticket]? = some (job.owner, future)

/-- A thread of `c` waits for a future of `c`, so a good result it gets is earned. -/
theorem HonestInv.future {c : κ} {s : Executor κ σ α ε} (hinv : s.HonestInv ok credit c)
    {ticket : Nat} {next : Option α → Proc σ α ε} (hhas : s.Has c (.waiting ticket next)) {c' : κ}
    {r : α} (hget : s.futures[ticket]? = some (c', some r)) (hok : ok r) : s.Earned credit c := by
  obtain ⟨future, hown⟩ := hinv.waits ticket next hhas
  rw [hown, Option.some.injEq, Prod.mk.injEq] at hget
  obtain ⟨rfl, rfl⟩ := hget
  exact hinv.results ticket r hown hok

/-- The worker's result is the job's own, which has earned it. -/
theorem HonestInv.finished {s : Executor κ σ α ε} {c : κ} {job : Job κ σ α ε} {r : α}
    (hinv : s.HonestInv ok credit c) (hworker : s.worker = some job)
    (hthread : job.thread = .run (.ret r)) :
    HonestInv ok credit c
      { s with
        worker := none
        futures := s.futures.modify job.ticket fun future => (future.1, some r) } := by
  have hhas : ∀ x, Has { s with
        worker := none
        futures := s.futures.modify job.ticket fun future => (future.1, some r) } c x →
      s.Has c x := by
    rintro x (hcaller | ⟨j, hj, _⟩ | hqueue)
    · exact Or.inl hcaller
    · cases hj
    · exact Or.inr (Or.inr hqueue)
  have hkeep : ∀ {ticket : Nat} {c' : κ}, (∃ future, s.futures[ticket]? = some (c', future)) →
      ∃ future, (s.futures.modify job.ticket fun future => (future.1, some r))[ticket]? =
        some (c', future) := by
    rintro ticket c' ⟨future, hget⟩
    rw [List.getElem?_modify]
    split
    · exact ⟨some r, by rw [hget]; rfl⟩
    · exact ⟨future, by rw [hget]; rfl⟩
  refine ⟨fun x hx => hinv.threads x (hhas x hx), ?_,
    fun ticket next hx => hkeep (hinv.waits ticket next (hhas _ hx)), ?_⟩
  · intro ticket r' hget hok
    rw [List.getElem?_modify] at hget
    obtain ⟨⟨c', future⟩, hold, heq⟩ := Option.map_eq_some_iff.mp hget
    split at heq
    · -- the worker's own result: the job has earned it
      rename_i hticket
      obtain ⟨rfl, rfl⟩ : c' = c ∧ r = r' := by simpa using heq
      obtain ⟨future', hown⟩ := hinv.jobs job (Or.inl hworker)
      rw [hticket, hold, Option.some.injEq, Prod.mk.injEq] at hown
      have hended := hinv.threads job.thread (Or.inr (Or.inl ⟨job, hworker, hown.1.symm, rfl⟩))
      rw [hthread] at hended
      exact hended hok
    · obtain ⟨rfl, rfl⟩ : c' = c ∧ future = some r' := by simpa using heq
      exact hinv.results ticket r' hold hok
  · rintro j (hj | hj)
    · cases hj
    · exact hkeep (hinv.jobs j (Or.inr hj))

theorem HonestInv.take {s : Executor κ σ α ε} {c : κ} {job : Job κ σ α ε}
    {rest : List (Job κ σ α ε)} (hinv : s.HonestInv ok credit c) (hqueue : s.queue = job :: rest) :
    HonestInv ok credit c { s with worker := some job, queue := rest } := by
  have hhas : ∀ x, Has { s with worker := some job, queue := rest } c x → s.Has c x := by
    rintro x (hcaller | ⟨j, hj, howner, hx⟩ | ⟨j, hj, howner, hx⟩)
    · exact Or.inl hcaller
    · obtain rfl : job = j := Option.some.inj hj
      exact Or.inr (Or.inr ⟨job, hqueue ▸ List.mem_cons_self, howner, hx⟩)
    · exact Or.inr (Or.inr ⟨j, hqueue ▸ List.mem_cons_of_mem _ hj, howner, hx⟩)
  refine ⟨fun x hx => hinv.threads x (hhas x hx), hinv.results,
    fun ticket next hx => hinv.waits ticket next (hhas _ hx), ?_⟩
  rintro j (hj | hj)
  · obtain rfl : job = j := Option.some.inj hj
    exact hinv.jobs job (Or.inr (hqueue ▸ List.mem_cons_self))
  · exact hinv.jobs j (Or.inr (hqueue ▸ List.mem_cons_of_mem _ hj))

variable [DecidableEq κ]

/-- The threads after one has moved. -/
theorem has_setThread {s : Executor κ σ α ε} {p : Party κ} {c c' : κ} {th th' x : Thread σ α ε}
    (h : s.thread p = some (c, th)) (hhas : (s.setThread th' p).Has c' x) :
    (c' = c ∧ x = th') ∨ s.Has c' x := by
  rcases hhas with hcaller | ⟨job, hjob, howner, hthread⟩ | ⟨job, hjob, howner, hthread⟩
  · cases p with
    | caller c₀ =>
      obtain ⟨rfl, _⟩ := thread_caller h
      rcases Machine.update_cases hcaller with ⟨heq, hx⟩ | ⟨_, hx⟩
      · exact Or.inl ⟨heq, (Option.some.inj hx).symm⟩
      · exact Or.inr (Or.inl hx)
    | worker => exact Or.inr (Or.inl hcaller)
  · cases p with
    | caller c₀ => exact Or.inr (Or.inr (Or.inl ⟨job, hjob, howner, hthread⟩))
    | worker =>
      obtain ⟨job₀, hjob₀, howner₀, _⟩ := thread_worker h
      obtain ⟨job₁, hjob₁, rfl⟩ := Option.map_eq_some_iff.mp hjob
      obtain rfl : job₀ = job₁ := Option.some.inj (hjob₀.symm.trans hjob₁)
      exact Or.inl ⟨howner.symm.trans howner₀, hthread.symm⟩
  · rw [queue_setThread] at hjob
    exact Or.inr (Or.inr (Or.inr ⟨job, hjob, howner, hthread⟩))

/-- A new thread, of an honest program if it is the caller's. -/
theorem HonestInv.begin {program : κ → Proc σ α ε} {s : Executor κ σ α ε} {c c₀ : κ}
    (hinv : s.HonestInv ok credit c) (hprogram : (program c).Honest ok credit False) :
    (s.setThread (.run (program c₀)) (.caller c₀)).HonestInv ok credit c := by
  have hhas : ∀ x, (s.setThread (.run (program c₀)) (.caller c₀)).Has c x →
      (c = c₀ ∧ x = .run (program c₀)) ∨ s.Has c x := by
    rintro x (hcaller | hrest)
    · rcases Machine.update_cases hcaller with ⟨heq, hx⟩ | ⟨_, hx⟩
      · exact Or.inl ⟨heq, (Option.some.inj hx).symm⟩
      · exact Or.inr (Or.inl hx)
    · exact Or.inr (Or.inr hrest)
  refine ⟨?_, hinv.results, ?_, hinv.jobs⟩
  · intro x hx
    rcases hhas x hx with ⟨rfl, rfl⟩ | hold
    · exact Proc.Honest.mono False.elim hprogram
    · exact hinv.threads x hold
  · intro ticket next hx
    rcases hhas _ hx with ⟨_, habs⟩ | hold
    · cases habs
    · exact hinv.waits ticket next hold

theorem HonestInv.move {s : Executor κ σ α ε} {c c₀ : κ} {p : Party κ}
    {th th' : Thread σ α ε} {os : List (Obs α ε)} (shared : σ) (hinv : s.HonestInv ok credit c)
    (hthread : s.thread p = some (c₀, th)) (hlocal : th.Local s.futures th' os) :
    HonestInv ok credit c { (s.setThread th' p).noteAll c₀ os with shared := shared } := by
  have hhas : ∀ x, (s.setThread th' p).Has c x → (c = c₀ ∧ x = th') ∨ s.Has c x :=
    fun x hx => has_setThread hthread hx
  have hearned : s.Earned credit c → ((s.setThread th' p).noteAll c₀ os).Earned credit c := by
    intro he
    refine earned_noteAll.mpr (Or.inl ?_)
    unfold Earned
    rw [log_setThread]
    exact he
  refine ⟨?_, ?_, ?_, ?_⟩
  · intro x hx
    rcases hhas x hx with ⟨rfl, rfl⟩ | hold
    · have hmoved : x.Honest ok credit (s.Earned credit c ∨ ∃ o ∈ os, credit o) :=
        honest_local hlocal
          (fun ticket next heq c' r hget hok =>
            hinv.future (heq ▸ has_of_thread hthread) hget hok)
          (hinv.threads th (has_of_thread hthread))
      refine honest_mono ?_ hmoved
      rintro (he | ho)
      · exact hearned he
      · exact earned_noteAll.mpr (Or.inr ⟨rfl, ho⟩)
    · exact honest_mono hearned (hinv.threads x hold)
  · intro ticket r hget hok
    refine hearned (hinv.results ticket r ?_ hok)
    rwa [← futures_setThread s th' p]
  · intro ticket next hx
    show ∃ future, (s.setThread th' p).futures[ticket]? = some (c, future)
    rw [futures_setThread]
    rcases hhas _ hx with ⟨rfl, heq⟩ | hold
    · subst heq
      cases hlocal
    · exact hinv.waits ticket next hold
  · intro job hjob
    show ∃ future, (s.setThread th' p).futures[job.ticket]? = some (job.owner, future)
    rw [futures_setThread]
    obtain ⟨job₀, hjob₀, howner, hticket⟩ := job_setThread hjob
    rw [← howner, ← hticket]
    exact hinv.jobs job₀ hjob₀

theorem HonestInv.submit {s : Executor κ σ α ε} {c c₀ : κ} {p : Party κ}
    {job : Proc σ α ε} {next : Option α → Proc σ α ε} (hinv : s.HonestInv ok credit c)
    (hthread : s.thread p = some (c₀, .run (.await job next))) :
    HonestInv ok credit c
      { s.setThread (.waiting s.futures.length next) p with
        futures := s.futures ++ [(c₀, none)]
        queue := s.queue ++ [⟨c₀, s.futures.length, .run job⟩] } := by
  have hgrow : ∀ {ticket : Nat} {future : κ × Option α}, s.futures[ticket]? = some future →
      (s.futures ++ [(c₀, none)])[ticket]? = some future := by
    intro ticket future hget
    rw [List.getElem?_append_left (List.getElem?_eq_some_iff.mp hget).1]
    exact hget
  have hearned : s.Earned credit c → (s.setThread (.waiting s.futures.length next) p).Earned
      credit c := by
    unfold Earned
    rw [log_setThread]
    exact id
  have hown : c = c₀ → (Thread.run (.await job next)).Honest ok credit (s.Earned credit c) :=
    fun heq => hinv.threads _ (heq ▸ has_of_thread hthread)
  -- the threads are the old ones, the one that waits and the new job
  have hhas : ∀ x, Has { s.setThread (.waiting s.futures.length next) p with
        futures := s.futures ++ [(c₀, none)]
        queue := s.queue ++ [⟨c₀, s.futures.length, .run job⟩] } c x →
      (c = c₀ ∧ x = .waiting s.futures.length next) ∨ (c = c₀ ∧ x = .run job) ∨ s.Has c x := by
    rintro x (hcaller | hworker | ⟨j, hj, howner, hx⟩)
    · exact (has_setThread hthread (Or.inl hcaller)).imp_right Or.inr
    · exact (has_setThread hthread (Or.inr (Or.inl hworker))).imp_right Or.inr
    · rcases List.mem_append.mp hj with hold | hnew
      · exact Or.inr (Or.inr (Or.inr (Or.inr ⟨j, hold, howner, hx⟩)))
      · obtain rfl := List.mem_singleton.mp hnew
        exact Or.inr (Or.inl ⟨howner.symm, hx.symm⟩)
  refine ⟨?_, ?_, ?_, ?_⟩
  · intro x hx
    rcases hhas x hx with ⟨heq, rfl⟩ | ⟨heq, rfl⟩ | hold
    · exact honest_mono hearned (hown heq).2
    · exact honest_mono hearned (hown heq).1
    · exact honest_mono hearned (hinv.threads x hold)
  · intro ticket r hget hok
    refine hearned (hinv.results ticket r ?_ hok)
    rw [List.getElem?_append] at hget
    split at hget
    · exact hget
    · rw [List.getElem?_singleton] at hget
      split at hget
      · cases hget
      · cases hget
  · intro ticket next' hx
    rcases hhas _ hx with ⟨rfl, heq⟩ | ⟨_, habs⟩ | hold
    · cases heq
      exact ⟨none, by simp⟩
    · cases habs
    · obtain ⟨future, hget⟩ := hinv.waits ticket next' hold
      exact ⟨future, hgrow hget⟩
  · rintro j (hworker | hqueue)
    · have hjob : (s.setThread (.waiting s.futures.length next) p).Unfinished j := Or.inl hworker
      obtain ⟨job₀, hjob₀, howner, hticket⟩ := job_setThread hjob
      obtain ⟨future, hget⟩ := hinv.jobs job₀ hjob₀
      rw [howner, hticket] at hget
      exact ⟨future, hgrow hget⟩
    · rcases List.mem_append.mp hqueue with hold | hnew
      · obtain ⟨future, hget⟩ := hinv.jobs j (Or.inr hold)
        exact ⟨future, hgrow hget⟩
      · obtain rfl := List.mem_singleton.mp hnew
        exact ⟨none, by simp⟩

theorem HonestInv.ended {s : Executor κ σ α ε} {c c₀ : κ} {r : α}
    (hinv : s.HonestInv ok credit c) (hcaller : s.callers c₀ = some (.run (.ret r))) :
    (s.setThread (.ended r) (.caller c₀)).HonestInv ok credit c := by
  have hthread := thread_of_caller hcaller
  refine ⟨?_, hinv.results, ?_, hinv.jobs⟩
  · intro x hx
    rcases has_setThread hthread hx with ⟨rfl, rfl⟩ | hold
    · have hret := hinv.threads (.run (.ret r)) (has_of_thread hthread)
      exact hret
    · exact hinv.threads x hold
  · intro ticket next hx
    rcases has_setThread hthread hx with ⟨_, habs⟩ | hold
    · cases habs
    · exact hinv.waits ticket next hold

/-- **Every step keeps an honest caller honest.** -/
theorem honestInv_step {program : κ → Proc σ α ε} {c : κ}
    (hprogram : (program c).Honest ok credit False) {s t : Executor κ σ α ε}
    (hinv : s.HonestInv ok credit c) (h : Stepped program s t) : t.HonestInv ok credit c := by
  cases h with
  | begin c₀ hnone => exact hinv.begin hprogram
  | move p c₀ shared hthread hlocal => exact hinv.move shared hthread hlocal
  | submit p c₀ hthread => exact hinv.submit hthread
  | ended c₀ hcaller => exact hinv.ended hcaller
  | finished hworker hthread => exact hinv.finished hworker hthread
  | take hworker hqueue => exact hinv.take hqueue
  | disturb shared => exact ⟨hinv.threads, hinv.results, hinv.waits, hinv.jobs⟩

/-- **An honest caller that ended well has earned it**, in every run of the machine. -/
theorem credit_of_ended {program : κ → Proc σ α ε} {c : κ}
    (hprogram : (program c).Honest ok credit False) {shared : σ} {ms : List (Move κ σ α)}
    {t : Executor κ σ α ε} (h : Machine.Run (step program) Machine.Always (idle shared) ms t) {r : α}
    (hended : t.callers c = some (.ended r)) (hok : ok r) : t.Earned credit c := by
  have hinv : t.HonestInv ok credit c := by
    refine h.invariant (fun s m t hs _ hstep => honestInv_step hprogram hs (stepped_of_step hstep)) ?_
    refine ⟨?_, ?_, ?_, ?_⟩
    · rintro x (hx | ⟨job, hjob, _⟩ | ⟨job, hjob, _⟩)
      · cases hx
      · cases hjob
      · cases hjob
    · intro ticket r hget
      cases hget
    · rintro ticket next (hx | ⟨job, hjob, _⟩ | ⟨job, hjob, _⟩)
      · cases hx
      · cases hjob
      · cases hjob
    · rintro job (hjob | hjob)
      · cases hjob
      · cases hjob
  exact hinv.threads _ (Or.inl hended) hok

end Executor
