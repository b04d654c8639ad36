/-
  **A one-worker executor** — over arbitrary processes and callers.

  The `Executor` runs one process for each caller on a thread of its own, and the submitted jobs on ONE
  worker, first in first out.  A wait that times out leaves its job where it is: nothing is cancelled.

  The machine is as hostile as it can be: threads interleave at will, calls answer whatever they like
  whenever they like, timers fire at any moment before the result is there, and the shared state may be
  disturbed between any two steps.

  Three rules carry a fact about a process to every run of the machine, each in a module of its own:

  * `calls_le_weight` — a caller's calls, its jobs' included, are at most the WEIGHT of its process;
  * `credit_of_ended` — if the process is `Honest`, a caller that ends well has earned it;
  * `no_call_after_end` — a caller that ended without a timer having fired calls no more.
-/
import FinancialRag.Lib.Machine
import FinancialRag.Lib.Proc

set_option linter.unusedVariables false

/-! ## The machine -/

/-- Where a thread is. -/
inductive Thread (σ α ε : Type) where
  | run (p : Proc σ α ε)
  | calling (next : α → Proc σ α ε)
  | waiting (ticket : Nat) (next : Option α → Proc σ α ε)
  | ended (r : α)

/-- A submitted job: whose it is, its future, and how far it has come. -/
structure Job (κ σ α ε : Type) where
  owner : κ
  ticket : Nat
  thread : Thread σ α ε

/-- `futures` lists, by ticket, whose job it is and its result once there is one. -/
structure Executor (κ σ α ε : Type) where
  shared : σ
  callers : κ → Option (Thread σ α ε)
  queue : List (Job κ σ α ε)
  worker : Option (Job κ σ α ε)
  futures : List (κ × Option α)
  log : List (κ × Obs α ε)

inductive Party (κ : Type) where
  | caller (c : κ)
  | worker

inductive Move (κ σ α : Type) where
  | begin (c : κ)
  | step (p : Party κ)
  | answer (p : Party κ) (r : α)
  | resume (p : Party κ)
  | fire (p : Party κ)
  | take
  | disturb (s : σ)

namespace Executor

variable {κ σ α ε : Type}

/-- Nothing has begun. -/
def idle (shared : σ) : Executor κ σ α ε := ⟨shared, fun _ => none, [], none, [], []⟩

/-- The thread of a party, and the caller it works for. -/
def thread (s : Executor κ σ α ε) : Party κ → Option (κ × Thread σ α ε)
  | .caller c => (s.callers c).map fun th => (c, th)
  | .worker => s.worker.map fun job => (job.owner, job.thread)

def note (s : Executor κ σ α ε) (c : κ) (o : Obs α ε) : Executor κ σ α ε :=
  { s with log := s.log ++ [(c, o)] }

variable [DecidableEq κ]

def setThread (s : Executor κ σ α ε) (th : Thread σ α ε) : Party κ → Executor κ σ α ε
  | .caller c => { s with callers := Function.update s.callers c (some th) }
  | .worker => { s with worker := s.worker.map fun job => { job with thread := th } }

/-- A thread has come to its result: the worker sets the future and is free. -/
def finish (s : Executor κ σ α ε) (r : α) : Party κ → Executor κ σ α ε
  | .caller c => s.setThread (.ended r) (.caller c)
  | .worker =>
    match s.worker with
    | some job =>
      { s with
        worker := none
        futures := s.futures.modify job.ticket fun future => (future.1, some r) }
    | none => s

/-- One action of a process. -/
def perform (s : Executor κ σ α ε) (p : Party κ) (c : κ) : Proc σ α ε → Executor κ σ α ε
  | .ret r => s.finish r p
  | .act update next =>
    { s.setThread (.run (next s.shared)) p with shared := update s.shared }
  | .emit e next => (s.setThread (.run next) p).note c (.emitted e)
  | .call next => (s.setThread (.calling next) p).note c .called
  | .await job next =>
    { s.setThread (.waiting s.futures.length next) p with
      futures := s.futures ++ [(c, none)]
      queue := s.queue ++ [⟨c, s.futures.length, .run job⟩] }

/-- One step of the machine; `program` gives each caller its process. -/
def step (program : κ → Proc σ α ε) (s : Executor κ σ α ε) :
    Move κ σ α → Option (Executor κ σ α ε)
  | .begin c =>
    match s.callers c with
    | none => some (s.setThread (.run (program c)) (.caller c))
    | some _ => none
  | .step p =>
    match s.thread p with
    | some (c, .run q) => some (s.perform p c q)
    | _ => none
  | .answer p r =>
    match s.thread p with
    | some (c, .calling next) => some ((s.setThread (.run (next r)) p).note c (.returned r))
    | _ => none
  | .resume p =>
    match s.thread p with
    | some (c, .waiting ticket next) =>
      match s.futures[ticket]? with
      | some (_, some r) => some (s.setThread (.run (next (some r))) p)
      | _ => none
    | _ => none
  | .fire p =>
    match s.thread p with
    | some (c, .waiting ticket next) =>
      match s.futures[ticket]? with
      | some (_, none) => some ((s.setThread (.run (next none)) p).note c .fired)
      | _ => none
    | _ => none
  | .take =>
    match s.worker, s.queue with
    | none, job :: rest => some { s with worker := some job, queue := rest }
    | _, _ => none
  | .disturb shared => some { s with shared := shared }

end Executor

/-! ## What a step can do -/

/-- A move of one thread that touches neither queue nor worker: where it goes and what it logs. -/
inductive Thread.Local {κ σ α ε : Type} (futures : List (κ × Option α)) :
    Thread σ α ε → Thread σ α ε → List (Obs α ε) → Prop
  | act (update : σ → σ) (next : σ → Proc σ α ε) (s : σ) :
      Local futures (.run (.act update next)) (.run (next s)) []
  | emit (e : ε) (next : Proc σ α ε) :
      Local futures (.run (.emit e next)) (.run next) [.emitted e]
  | call (next : α → Proc σ α ε) : Local futures (.run (.call next)) (.calling next) [.called]
  | answer (next : α → Proc σ α ε) (r : α) :
      Local futures (.calling next) (.run (next r)) [.returned r]
  | resume {ticket : Nat} {c : κ} {r : α} (next : Option α → Proc σ α ε) :
      futures[ticket]? = some (c, some r) →
      Local futures (.waiting ticket next) (.run (next (some r))) []
  | fire {ticket : Nat} {c : κ} (next : Option α → Proc σ α ε) :
      futures[ticket]? = some (c, none) →
      Local futures (.waiting ticket next) (.run (next none)) [.fired]

namespace Executor

variable {κ σ α ε : Type}

def noteAll (s : Executor κ σ α ε) (c : κ) (os : List (Obs α ε)) : Executor κ σ α ε :=
  { s with log := s.log ++ os.map fun o => (c, o) }

theorem thread_caller {s : Executor κ σ α ε} {c c' : κ} {th : Thread σ α ε}
    (h : s.thread (.caller c) = some (c', th)) : c' = c ∧ s.callers c = some th := by
  obtain ⟨th₀, hth₀, heq⟩ := Option.map_eq_some_iff.mp h
  obtain ⟨rfl, rfl⟩ := Prod.mk.inj heq
  exact ⟨rfl, hth₀⟩

theorem thread_of_caller {s : Executor κ σ α ε} {c : κ} {th : Thread σ α ε}
    (h : s.callers c = some th) : s.thread (.caller c) = some (c, th) := by
  show (s.callers c).map _ = _
  rw [h]
  rfl

theorem thread_worker {s : Executor κ σ α ε} {c : κ} {th : Thread σ α ε}
    (h : s.thread .worker = some (c, th)) :
    ∃ job, s.worker = some job ∧ job.owner = c ∧ job.thread = th := by
  obtain ⟨job, hjob, heq⟩ := Option.map_eq_some_iff.mp h
  obtain ⟨howner, hthread⟩ := Prod.mk.inj heq
  exact ⟨job, hjob, howner, hthread⟩

/-- The job is in the queue or on the worker. -/
def Unfinished (s : Executor κ σ α ε) (job : Job κ σ α ε) : Prop :=
  s.worker = some job ∨ job ∈ s.queue

/-- Something in the log of `c` earns credit. -/
def Earned (s : Executor κ σ α ε) (credit : Obs α ε → Prop) (c : κ) : Prop :=
  ∃ entry ∈ s.log, entry.1 = c ∧ credit entry.2

theorem earned_noteAll {s : Executor κ σ α ε} {credit : Obs α ε → Prop} {c c' : κ}
    {os : List (Obs α ε)} :
    (s.noteAll c os).Earned credit c' ↔ s.Earned credit c' ∨ c' = c ∧ ∃ o ∈ os, credit o := by
  unfold Earned noteAll
  constructor
  · rintro ⟨entry, hentry, hc, hcredit⟩
    rcases List.mem_append.mp hentry with hold | hnew
    · exact Or.inl ⟨entry, hold, hc, hcredit⟩
    · obtain ⟨o, ho, rfl⟩ := List.mem_map.mp hnew
      exact Or.inr ⟨hc.symm, o, ho, hcredit⟩
  · rintro (⟨entry, hold, hc, hcredit⟩ | ⟨rfl, o, ho, hcredit⟩)
    · exact ⟨entry, List.mem_append_left _ hold, hc, hcredit⟩
    · exact ⟨(c', o), List.mem_append_right _ (List.mem_map_of_mem ho), rfl, hcredit⟩

variable [DecidableEq κ]

/-- **What a step can do**, whoever takes it. -/
inductive Stepped (program : κ → Proc σ α ε) (s : Executor κ σ α ε) : Executor κ σ α ε → Prop
  | begin (c : κ) : s.callers c = none →
      Stepped program s (s.setThread (.run (program c)) (.caller c))
  | move (p : Party κ) (c : κ) {th th' : Thread σ α ε} {os : List (Obs α ε)} (shared : σ) :
      s.thread p = some (c, th) → th.Local s.futures th' os →
      Stepped program s { (s.setThread th' p).noteAll c os with shared := shared }
  | submit (p : Party κ) (c : κ) {job : Proc σ α ε} {next : Option α → Proc σ α ε} :
      s.thread p = some (c, .run (.await job next)) →
      Stepped program s
        { s.setThread (.waiting s.futures.length next) p with
          futures := s.futures ++ [(c, none)]
          queue := s.queue ++ [⟨c, s.futures.length, .run job⟩] }
  | ended (c : κ) {r : α} : s.callers c = some (.run (.ret r)) →
      Stepped program s (s.setThread (.ended r) (.caller c))
  | finished {job : Job κ σ α ε} {r : α} : s.worker = some job → job.thread = .run (.ret r) →
      Stepped program s
        { s with
          worker := none
          futures := s.futures.modify job.ticket fun future => (future.1, some r) }
  | take {job : Job κ σ α ε} {rest : List (Job κ σ α ε)} : s.worker = none → s.queue = job :: rest →
      Stepped program s { s with worker := some job, queue := rest }
  | disturb (shared : σ) : Stepped program s { s with shared := shared }

@[simp] theorem shared_setThread (s : Executor κ σ α ε) (th : Thread σ α ε) (p : Party κ) :
    (s.setThread th p).shared = s.shared := by
  cases p <;> rfl

@[simp] theorem futures_setThread (s : Executor κ σ α ε) (th : Thread σ α ε) (p : Party κ) :
    (s.setThread th p).futures = s.futures := by
  cases p <;> rfl

@[simp] theorem queue_setThread (s : Executor κ σ α ε) (th : Thread σ α ε) (p : Party κ) :
    (s.setThread th p).queue = s.queue := by
  cases p <;> rfl

@[simp] theorem log_setThread (s : Executor κ σ α ε) (th : Thread σ α ε) (p : Party κ) :
    (s.setThread th p).log = s.log := by
  cases p <;> rfl

/-- A local move that logs one entry and leaves the shared state. -/
theorem Stepped.noted {program : κ → Proc σ α ε} {s : Executor κ σ α ε} {p : Party κ} {c : κ}
    {th th' : Thread σ α ε} {o : Obs α ε} (h : s.thread p = some (c, th))
    (hlocal : th.Local s.futures th' [o]) : Stepped program s ((s.setThread th' p).note c o) := by
  have hstep : Stepped program s _ := .move p c s.shared h hlocal
  rw [← shared_setThread s th' p] at hstep
  exact hstep

/-- A local move that logs nothing. -/
theorem Stepped.silent {program : κ → Proc σ α ε} {s : Executor κ σ α ε} {p : Party κ} {c : κ}
    {th th' : Thread σ α ε} (shared : σ) (h : s.thread p = some (c, th))
    (hlocal : th.Local s.futures th' []) :
    Stepped program s { s.setThread th' p with shared := shared } := by
  have hstep : Stepped program s _ := .move p c shared h hlocal
  unfold noteAll at hstep
  rwa [List.map_nil, List.append_nil] at hstep

theorem stepped_perform (program : κ → Proc σ α ε) {s : Executor κ σ α ε} {p : Party κ} {c : κ}
    {q : Proc σ α ε} (h : s.thread p = some (c, .run q)) :
    Stepped program s (s.perform p c q) := by
  cases q with
  | ret r =>
    cases p with
    | caller c' => exact .ended c' (thread_caller h).2
    | worker =>
      obtain ⟨job, hjob, _, hthread⟩ := thread_worker h
      show Stepped program s (s.finish r .worker)
      unfold finish
      rw [hjob]
      exact .finished hjob hthread
  | act update next => exact .silent (update s.shared) h (.act update next s.shared)
  | emit e next => exact .noted h (.emit e next)
  | call next => exact .noted h (.call next)
  | await job next => exact .submit p c h

/-- **Every step of the machine is of one of these kinds.** -/
theorem stepped_of_step {program : κ → Proc σ α ε} {s t : Executor κ σ α ε} {m : Move κ σ α}
    (h : step program s m = some t) : Stepped program s t := by
  cases m with
  | begin c =>
    simp only [step] at h
    split at h
    · rename_i hnone
      cases h
      exact .begin c hnone
    · cases h
  | step p =>
    simp only [step] at h
    split at h
    · rename_i c q hthread
      cases h
      exact stepped_perform program hthread
    · cases h
  | answer p r =>
    simp only [step] at h
    split at h
    · rename_i c next hthread
      cases h
      exact .noted hthread (.answer next r)
    · cases h
  | resume p =>
    simp only [step] at h
    split at h
    · rename_i c ticket next hthread
      split at h
      · rename_i c' r hfuture
        cases h
        have hstep : Stepped program s _ := .silent s.shared hthread (.resume next hfuture)
        rw [← shared_setThread s (.run (next (some r))) p] at hstep
        exact hstep
      · cases h
    · cases h
  | fire p =>
    simp only [step] at h
    split at h
    · rename_i c ticket next hthread
      split at h
      · rename_i c' hfuture
        cases h
        exact .noted hthread (.fire next hfuture)
      · cases h
    · cases h
  | take =>
    simp only [step] at h
    split at h
    · rename_i job rest hworker hqueue
      cases h
      exact .take hworker hqueue
    · cases h
  | disturb shared =>
    cases h
    exact .disturb shared

/-! ## What a move leaves -/

/-- The jobs after a thread has moved are the jobs before, further on. -/
theorem job_setThread {s : Executor κ σ α ε} {p : Party κ} {th : Thread σ α ε} {job : Job κ σ α ε}
    (h : (s.setThread th p).Unfinished job) :
    ∃ job₀, s.Unfinished job₀ ∧ job₀.owner = job.owner ∧ job₀.ticket = job.ticket := by
  rcases h with hworker | hqueue
  · cases p with
    | caller c => exact ⟨job, Or.inl hworker, rfl, rfl⟩
    | worker =>
      obtain ⟨job₀, hjob₀, rfl⟩ := Option.map_eq_some_iff.mp hworker
      exact ⟨job₀, Or.inl hjob₀, rfl, rfl⟩
  · rw [queue_setThread] at hqueue
    exact ⟨job, Or.inr hqueue, rfl, rfl⟩

/-- How many calls of `c` have been started. -/
def calls (s : Executor κ σ α ε) (c : κ) : Nat :=
  s.log.countP fun entry => decide (entry.1 = c) && entry.2.isCalled

@[simp] theorem calls_setThread (s : Executor κ σ α ε) (th : Thread σ α ε) (p : Party κ) (c : κ) :
    (s.setThread th p).calls c = s.calls c := by
  unfold calls
  rw [log_setThread]

theorem calls_noteAll (s : Executor κ σ α ε) (c c' : κ) (os : List (Obs α ε)) :
    (s.noteAll c os).calls c' = s.calls c' + if c' = c then os.countP Obs.isCalled else 0 := by
  unfold calls noteAll
  rw [List.countP_append, List.countP_map]
  by_cases hc : c' = c
  · subst hc
    simp [Function.comp_def]
  · have hne : c ≠ c' := fun h => hc h.symm
    simp [Function.comp_def, hc, hne]

end Executor
