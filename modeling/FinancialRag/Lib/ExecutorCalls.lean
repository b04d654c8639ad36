/-
  **A caller's calls are bounded by the weight of its process.**

  The `budget` of a caller is what it has called and what its threads may still call: its own thread, the
  worker on a job of it, its jobs in the queue.  No step raises it.
-/
import FinancialRag.Lib.Executor

set_option linter.unusedVariables false

namespace Executor

variable {κ σ α ε : Type}

/-- What the thread of a caller may still call. -/
noncomputable def Pending (th : Thread σ α ε) : ℕ∞ :=
  match th with
  | .run p => p.weight
  | .calling next => ⨆ r, (next r).weight
  | .waiting _ next => ⨆ r, (next r).weight
  | .ended _ => 0

/-- A local move spends what it calls. -/
theorem pending_local {futures : List (κ × Option α)} {th th' : Thread σ α ε} {os : List (Obs α ε)}
    (h : th.Local futures th' os) : Pending th' + os.countP Obs.isCalled ≤ Pending th := by
  cases h with
  | act update next s =>
    show (next s).weight + ((0 : Nat) : ℕ∞) ≤ ⨆ s, (next s).weight
    rw [Nat.cast_zero, add_zero]
    exact le_iSup (fun s => (next s).weight) s
  | emit e next =>
    show next.weight + ((0 : Nat) : ℕ∞) ≤ next.weight
    rw [Nat.cast_zero, add_zero]
  | call next =>
    show (⨆ r, (next r).weight) + ((1 : Nat) : ℕ∞) ≤ 1 + ⨆ r, (next r).weight
    rw [Nat.cast_one, add_comm]
  | answer next r =>
    show (next r).weight + ((0 : Nat) : ℕ∞) ≤ ⨆ r, (next r).weight
    rw [Nat.cast_zero, add_zero]
    exact le_iSup (fun r => (next r).weight) r
  | @resume ticket c r next _ =>
    show (next (some r)).weight + ((0 : Nat) : ℕ∞) ≤ ⨆ r, (next r).weight
    rw [Nat.cast_zero, add_zero]
    exact le_iSup (fun r => (next r).weight) (some r)
  | fire next _ =>
    show (next none).weight + ((0 : Nat) : ℕ∞) ≤ ⨆ r, (next r).weight
    rw [Nat.cast_zero, add_zero]
    exact le_iSup (fun r => (next r).weight) none

variable [DecidableEq κ]

/-- What a job of `c` may still call. -/
noncomputable def jobPending (c : κ) (job : Job κ σ α ε) : ℕ∞ :=
  if job.owner = c then Pending job.thread else 0

/-- What the caller's own thread may still call. -/
noncomputable def ownPending (program : κ → Proc σ α ε) (s : Executor κ σ α ε) (c : κ) : ℕ∞ :=
  match s.callers c with
  | none => (program c).weight
  | some th => Pending th

noncomputable def workerPending (s : Executor κ σ α ε) (c : κ) : ℕ∞ :=
  match s.worker with
  | none => 0
  | some job => jobPending c job

/-- The calls of `c` so far, and what its threads may still call. -/
noncomputable def budget (program : κ → Proc σ α ε) (s : Executor κ σ α ε) (c : κ) : ℕ∞ :=
  (s.calls c : ℕ∞) + s.ownPending program c + s.workerPending c + (s.queue.map (jobPending c)).sum

/-- Moving one thread changes what that thread may call, and no more. -/
theorem pending_setThread (program : κ → Proc σ α ε) {s : Executor κ σ α ε} {p : Party κ} {c : κ}
    {th : Thread σ α ε} (h : s.thread p = some (c, th)) (th' : Thread σ α ε) (c' : κ) :
    ∃ rest : ℕ∞,
      s.ownPending program c' + s.workerPending c' = (if c' = c then Pending th else 0) + rest ∧
      (s.setThread th' p).ownPending program c' + (s.setThread th' p).workerPending c' =
        (if c' = c then Pending th' else 0) + rest := by
  cases p with
  | caller c₀ =>
    obtain ⟨rfl, hcaller⟩ := thread_caller h
    by_cases hc : c' = c
    · subst hc
      refine ⟨s.workerPending c', ?_, ?_⟩
      · rw [if_pos rfl]
        unfold ownPending
        rw [hcaller]
      · rw [if_pos rfl]
        unfold ownPending setThread
        simp only [Function.update_self]
        rfl
    · refine ⟨s.ownPending program c' + s.workerPending c', ?_, ?_⟩
      · rw [if_neg hc, zero_add]
      · rw [if_neg hc, zero_add]
        unfold ownPending setThread
        simp only [Function.update_of_ne hc]
        rfl
  | worker =>
    obtain ⟨job, hjob, rfl, rfl⟩ := thread_worker h
    refine ⟨s.ownPending program c', ?_, ?_⟩
    · unfold workerPending jobPending
      rw [hjob, add_comm]
      by_cases hc : c' = job.owner
      · subst hc
        simp
      · simp [hc, Ne.symm hc]
    · unfold workerPending jobPending setThread
      simp only [hjob, Option.map_some]
      rw [add_comm]
      by_cases hc : c' = job.owner
      · subst hc
        rw [if_pos rfl]
        rfl
      · have hc' : ¬ job.owner = c' := fun heq => hc heq.symm
        rw [if_neg hc, if_neg hc']
        rfl

/-- **No step raises a caller's budget.** -/
theorem budget_step {program : κ → Proc σ α ε} {s t : Executor κ σ α ε} (h : Stepped program s t)
    (c' : κ) : t.budget program c' ≤ s.budget program c' := by
  cases h with
  | begin c hnone =>
    unfold budget
    rw [calls_setThread, queue_setThread]
    have hown : (s.setThread (.run (program c)) (.caller c)).ownPending program c' =
        s.ownPending program c' := by
      unfold ownPending setThread
      by_cases hc : c' = c
      · subst hc
        simp only [Function.update_self, hnone]
        rfl
      · simp only [Function.update_of_ne hc]
    rw [hown]
    exact le_refl _
  | @move p c th th' os shared hthread hlocal =>
    obtain ⟨rest, hbefore, hafter⟩ := pending_setThread program hthread th' c'
    have hspent := pending_local hlocal
    have hcalls := calls_noteAll (s.setThread th' p) c c' os
    rw [calls_setThread] at hcalls
    show (((s.setThread th' p).noteAll c os).calls c' : ℕ∞) +
      (s.setThread th' p).ownPending program c' + (s.setThread th' p).workerPending c' +
      ((s.setThread th' p).queue.map (jobPending c')).sum ≤ _
    unfold budget
    rw [hcalls, queue_setThread, add_assoc _ (ownPending _ _ _), hafter,
      add_assoc _ (s.ownPending _ _), hbefore]
    gcongr ?_ + _
    by_cases hc : c' = c
    · rw [if_pos hc, if_pos hc, if_pos hc, Nat.cast_add]
      calc ((s.calls c' : ℕ∞) + (os.countP Obs.isCalled : ℕ∞)) + (Pending th' + rest)
          = s.calls c' + ((Pending th' + os.countP Obs.isCalled) + rest) := by ring
        _ ≤ s.calls c' + (Pending th + rest) := by gcongr
    · rw [if_neg hc, if_neg hc, if_neg hc, Nat.add_zero]
  | @submit p c job next hthread =>
    obtain ⟨rest, hbefore, hafter⟩ :=
      pending_setThread program hthread (.waiting s.futures.length next) c'
    show ((s.setThread (.waiting s.futures.length next) p).calls c' : ℕ∞) +
      (s.setThread (.waiting s.futures.length next) p).ownPending program c' +
      (s.setThread (.waiting s.futures.length next) p).workerPending c' +
      ((s.queue ++ [(⟨c, s.futures.length, .run job⟩ : Job κ σ α ε)]).map (jobPending c')).sum ≤ _
    unfold budget
    rw [calls_setThread, add_assoc _ (ownPending _ _ _), hafter, add_assoc _ (s.ownPending _ _),
      hbefore, List.map_append, List.sum_append, List.map_singleton, List.sum_singleton]
    unfold jobPending
    by_cases hc : c' = c
    · subst hc
      simp only [if_true]
      show (s.calls c' : ℕ∞) + ((⨆ r, (next r).weight) + rest) +
          ((s.queue.map _).sum + job.weight) ≤
        s.calls c' + ((job.weight + ⨆ r, (next r).weight) + rest) + (s.queue.map _).sum
      apply le_of_eq
      ring
    · have hc' : ¬ c = c' := fun heq => hc heq.symm
      simp only [if_neg hc, if_neg hc', add_zero]
      exact le_refl _
  | @ended c r hcaller =>
    obtain ⟨rest, hbefore, hafter⟩ :=
      pending_setThread program (thread_of_caller hcaller) (.ended r) c'
    unfold budget
    rw [calls_setThread, queue_setThread, add_assoc _ (ownPending _ _ _), hafter,
      add_assoc _ (s.ownPending _ _), hbefore]
    exact le_refl _
  | @finished job r hworker hthread =>
    show (s.calls c' : ℕ∞) + s.ownPending program c' + 0 + (s.queue.map (jobPending c')).sum ≤ _
    unfold budget
    gcongr
    exact bot_le
  | @take job rest hworker hqueue =>
    show (s.calls c' : ℕ∞) + s.ownPending program c' + jobPending c' job +
      (rest.map (jobPending c')).sum ≤ _
    unfold budget workerPending
    rw [hworker, hqueue, List.map_cons, List.sum_cons]
    apply le_of_eq
    ring
  | disturb shared => exact le_refl _

/-- **A caller calls no more often than its process weighs**, its jobs included, whatever times out. -/
theorem calls_le_weight (program : κ → Proc σ α ε) {shared : σ} {ms : List (Move κ σ α)}
    {t : Executor κ σ α ε} (h : Machine.Run (step program) Machine.Always (idle shared) ms t) (c : κ) :
    (t.calls c : ℕ∞) ≤ (program c).weight := by
  have hbudget : t.budget program c ≤ (program c).weight := by
    refine h.invariant (I := fun t => t.budget program c ≤ (program c).weight) ?_ ?_
    · intro s m t hs _ hstep
      exact (budget_step (stepped_of_step hstep) c).trans hs
    · show ((0 : Nat) : ℕ∞) + (program c).weight + 0 + 0 ≤ _
      simp
  refine le_trans ?_ hbudget
  unfold budget
  rw [add_assoc, add_assoc]
  exact le_self_add

end Executor
