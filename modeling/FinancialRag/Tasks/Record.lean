/-
  CONSISTENCY of the task record: what the columns of one row say about each other.

  `RowOp` is the row as its writers see it — a machine of its own, with no workers and no processes:
  the claim (guarded by PENDING), the worker's lock, a handler's `update_task`, the worker's FAILED
  write, its `retry_count` commit, its re-queue and the recovery write.  Only the claim is guarded.
  `step_rowOp` projects the worker protocol onto it, so a fact about every sequence of row operations
  is a fact about every run of every number of workers.

  `Consistent` is what a reader of the row relies on.  `update_task` never CLEARS a column, so an
  operation that moves the status BACKWARDS leaves the columns of the abandoned attempt behind.
  `Forward` names the operations that do not, and `Clean` is the invariant they keep: under it
  `Forward` is not only enough but necessary (`consistent_iff_forward`).
-/
import FinancialRag.Tasks.AgentTasks

set_option linter.unusedVariables false

namespace FinancialRag.Tasks

open Machine

/-! ## The row and its writers -/

inductive RowOp where
  | claim (now : Int)
  | lock (workerId : String) (now : Int)
  | commit (c : HandlerCommit) (now : Int)
  | workerFail (message : String) (now : Int)
  | countRetry (retryCount : Nat)
  | requeue (now : Int)
  | recover (now : Int)
  deriving DecidableEq, Repr

def rowStep (t : Task) : RowOp → Option Task
  | .claim now => if t.status = .pending then some (t.claim now) else none
  | .lock workerId now => some (t.lock workerId now)
  | .commit c now => some (t.update c.toUpdate now)
  | .workerFail message now => some (t.update (failedUpdate message) now)
  | .countRetry k => some { t with retryCount := k + 1 }
  | .requeue now => some (t.update requeueUpdate now)
  | .recover now => some (t.recover now)

section Projection

variable {ι L X A : Type} [DecidableEq ι] {cfg : WorkerConfig} {name : ι → String}
  {H : Handler L X A}

/-- **Every protocol step is one row operation, or leaves the row alone.** -/
theorem step_rowOp {s t : State ι L X} {e : Event ι A} (h : step cfg name H s e = some t) :
    t.row = s.row ∨ ∃ op, rowStep s.row op = some t.row := by
  cases step_transition h with
  | @poll w now hw hrow => exact Or.inr ⟨.claim now, by rw [rowStep, if_pos hrow]; rfl⟩
  | @claim w now hw hrow => exact Or.inr ⟨.claim now, by rw [rowStep, if_pos hrow]; rfl⟩
  | @lock w now hw => exact Or.inr ⟨.lock (name w) now, rfl⟩
  | noHandler hw hh => exact Or.inr ⟨.workerFail _ _, rfl⟩
  | writeFailed hw => exact Or.inr ⟨.workerFail _ _, rfl⟩
  | @countRetry w now k hw => exact Or.inr ⟨.countRetry k, rfl⟩
  | @requeue w now hw => exact Or.inr ⟨.requeue now, rfl⟩
  | @recoverWrite r now hr => exact Or.inr ⟨.recover now, rfl⟩
  | @handle n a l m hp he hm =>
    cases hc : m.commit with
    | none => exact Or.inl (by simp only [applyCommit])
    | some c => exact Or.inr ⟨.commit c.1 c.2, by simp only [rowStep, applyCommit]⟩
  | killed hw hi => left; unfold State.goto State.kill; split <;> rfl
  | deliver hw => exact Or.inl rfl
  | readPending hw hrow => exact Or.inl rfl
  | readOther hw hrow => exact Or.inl rfl
  | claimLost hw hrow => exact Or.inl rfl
  | reread hw hrow => exact Or.inl rfl
  | rereadOther hw hrow => exact Or.inl rfl
  | notStarted hw => exact Or.inl rfl
  | start hw => exact Or.inl rfl
  | joined hw hp => exact Or.inl rfl
  | joinedFailed hw hp hd => exact Or.inl rfl
  | retry hw hrow hr => exact Or.inl rfl
  | done hw hr => exact Or.inl rfl
  | exit hp he => exact Or.inl rfl
  | die hp => exact Or.inl rfl
  | crash hw => exact Or.inl rfl
  | recoverRead hr hrow => exact Or.inl rfl

/-- No writer touches what identifies a task and its work. -/
theorem rowStep_identity {t u : Task} {op : RowOp} (h : rowStep t op = some u) :
    u.publicId = t.publicId ∧ u.tenantId = t.tenantId ∧ u.taskType = t.taskType ∧
      u.payload = t.payload := by
  cases op with
  | claim now =>
    simp only [rowStep] at h
    split at h
    · injection h with h; subst h; exact ⟨rfl, rfl, rfl, rfl⟩
    · exact absurd h (by simp)
  | _ => injection h with h; subst h; exact ⟨rfl, rfl, rfl, rfl⟩

theorem step_identity {s t : State ι L X} {e : Event ι A} (h : step cfg name H s e = some t) :
    t.row.publicId = s.row.publicId ∧ t.row.tenantId = s.row.tenantId ∧
      t.row.taskType = s.row.taskType ∧ t.row.payload = s.row.payload := by
  rcases step_rowOp h with heq | ⟨op, hop⟩
  · rw [heq]; exact ⟨rfl, rfl, rfl, rfl⟩
  · exact rowStep_identity hop

/-- The row of a protocol run is reached by row operations alone. -/
theorem run_rowOps {P : State ι L X → Event ι A → Prop} {s t : State ι L X} {es : List (Event ι A)}
    (h : Run (step cfg name H) P s es t) : ∃ ops, Run rowStep Always s.row ops t.row :=
  h.simulate fun _ _ _ ht => step_rowOp ht

end Projection

/-! ## Consistency -/

/-- What the columns of a row say about each other. -/
structure Consistent (t : Task) : Prop where
  successNoError : t.status = .success → t.errorMessage = none
  openNotCompleted : t.status = .pending ∨ t.status = .running → t.completedAt = none
  pendingNotStarted : t.status = .pending → t.startedAt = none

/-- The operations that carry no column of an earlier attempt along. -/
def Forward (t : Task) : RowOp → Prop
  | .requeue _ => t.status = .pending
  | .recover _ => t.status = .pending ∨ t.status = .running
  | .commit (.succeed _) _ => t.status ≠ .failed
  | _ => True

/-- Each status with exactly the columns its own attempt has set. -/
structure Clean (t : Task) : Prop where
  noError : t.status ≠ .failed → t.errorMessage = none
  error : t.status = .failed → t.errorMessage ≠ none
  notCompleted : t.status = .pending ∨ t.status = .running → t.completedAt = none
  completed : t.status = .success ∨ t.status = .failed → t.completedAt ≠ none
  notStarted : t.status = .pending → t.startedAt = none
  started : t.status = .running → t.startedAt ≠ none

theorem Clean.consistent {t : Task} (h : Clean t) : Consistent t :=
  ⟨fun hs => h.noError (by rw [hs]; simp), h.notCompleted, h.notStarted⟩

theorem clean_newTask (id : String) (ty : TaskType) (payload : TaskPayload) (tenant user now : Int) :
    Clean (newTask id ty payload tenant user now) := by
  refine ⟨fun _ => rfl, ?_, fun _ => rfl, ?_, fun _ => rfl, ?_⟩
  · intro h
    exact absurd h (by simp [newTask])
  · intro h
    exact absurd h (by simp [newTask])
  · intro h
    exact absurd h (by simp [newTask])

/-- A write of FAILED with a message is clean from anywhere. -/
theorem clean_failed (t : Task) (message : String) (now : Int) :
    Clean (t.update (failedUpdate message) now) := by
  refine ⟨?_, ?_, ?_, ?_, ?_, ?_⟩ <;> simp [Task.update, failedUpdate]

/-- The SUCCESS write is clean exactly where no error message is left over. -/
theorem clean_succeed {t : Task} (h : t.errorMessage = none) (r : TaskResult) (now : Int) :
    Clean (t.update (HandlerCommit.succeed r).toUpdate now) := by
  refine ⟨?_, ?_, ?_, ?_, ?_, ?_⟩ <;> simp [Task.update, HandlerCommit.toUpdate, h]

/-- **A forward operation keeps the record clean.** -/
theorem clean_step {t u : Task} {op : RowOp} (h : Clean t) (hf : Forward t op)
    (ht : rowStep t op = some u) : Clean u := by
  cases op with
  | claim now =>
    simp only [rowStep] at ht
    split at ht
    · rename_i hp
      injection ht with ht; subst ht
      have hem := h.noError (by rw [hp]; simp)
      have hco := h.notCompleted (Or.inl hp)
      refine ⟨fun _ => hem, fun hs => absurd hs (by simp), fun _ => hco, ?_,
        fun hs => absurd hs (by simp), fun _ => by simp [Task.claim]⟩
      intro hs
      exact absurd hs (by simp)
    · exact absurd ht (by simp)
  | lock w now =>
    injection ht with ht; subst ht
    exact ⟨h.noError, h.error, h.notCompleted, h.completed, h.notStarted, h.started⟩
  | commit c now =>
    injection ht with ht; subst ht
    cases c with
    | progress v => exact ⟨h.noError, h.error, h.notCompleted, h.completed, h.notStarted, h.started⟩
    | succeed r => exact clean_succeed (h.noError hf) r now
    | fail e => exact clean_failed t e now
  | workerFail message now =>
    injection ht with ht; subst ht
    exact clean_failed t message now
  | countRetry k =>
    injection ht with ht; subst ht
    exact ⟨h.noError, h.error, h.notCompleted, h.completed, h.notStarted, h.started⟩
  | requeue now =>
    injection ht with ht; subst ht
    have hp : t.status = .pending := hf
    have hem := h.noError (by rw [hp]; simp)
    have hco := h.notCompleted (Or.inl hp)
    have hst := h.notStarted hp
    refine ⟨?_, ?_, ?_, ?_, ?_, ?_⟩ <;> simp [Task.update, requeueUpdate, hem, hco, hst]
  | recover now =>
    injection ht with ht; subst ht
    have hem := h.noError (by rcases hf with hp | hp <;> rw [hp] <;> simp)
    have hco := h.notCompleted hf
    refine ⟨?_, ?_, ?_, ?_, ?_, ?_⟩ <;> simp [Task.recover, hem, hco]

/-- **Any other operation breaks the record at once.** -/
theorem not_consistent_step {t u : Task} {op : RowOp} (h : Clean t) (hf : ¬ Forward t op)
    (ht : rowStep t op = some u) : ¬ Consistent u := by
  cases op with
  | claim now => exact absurd trivial hf
  | lock w now => exact absurd trivial hf
  | workerFail message now => exact absurd trivial hf
  | countRetry k => exact absurd trivial hf
  | commit c now =>
    cases c with
    | progress v => exact absurd trivial hf
    | fail e => exact absurd trivial hf
    | succeed r =>
      injection ht with ht; subst ht
      have hfailed : t.status = .failed := by
        by_contra hne
        exact hf hne
      intro hc
      exact h.error hfailed (hc.successNoError rfl)
  | requeue now =>
    injection ht with ht; subst ht
    have hne : t.status ≠ .pending := hf
    intro hc
    -- a RUNNING row keeps its `started_at`, a finished one its `completed_at`
    have hstarted : t.startedAt = none := hc.pendingNotStarted rfl
    have hcompleted : t.completedAt = none := hc.openNotCompleted (Or.inl rfl)
    cases hs : t.status with
    | pending => exact hne hs
    | running => exact h.started hs hstarted
    | success => exact h.completed (Or.inl hs) hcompleted
    | failed => exact h.completed (Or.inr hs) hcompleted
  | recover now =>
    injection ht with ht; subst ht
    have hne : ¬ (t.status = .pending ∨ t.status = .running) := hf
    intro hc
    have hcompleted : t.completedAt = none := hc.openNotCompleted (Or.inl rfl)
    cases hs : t.status with
    | pending => exact hne (Or.inl hs)
    | running => exact hne (Or.inr hs)
    | success => exact h.completed (Or.inl hs) hcompleted
    | failed => exact h.completed (Or.inr hs) hcompleted

/-! ## The headline -/

/-- **When the record stays consistent.**  For every sequence of operations on a created task: all the
    rows it passes through are consistent if and only if it never re-queues a row that is not PENDING,
    never recovers a finished one, and never commits SUCCESS on a FAILED one. -/
theorem consistent_iff_forward (id : String) (ty : TaskType) (payload : TaskPayload)
    (tenant user now : Int) (ops : List RowOp) (t : Task)
    (h : exec rowStep (newTask id ty payload tenant user now) ops = some t) :
    (∀ pre suf u, ops = pre ++ suf →
        exec rowStep (newTask id ty payload tenant user now) pre = some u → Consistent u) ↔
      Run rowStep Forward (newTask id ty payload tenant user now) ops t :=
  good_prefixes_iff_run (I := Clean) (fun _ hc => hc.consistent) (fun _ _ _ hc hf => clean_step hc hf)
    (fun _ _ _ hc hf => not_consistent_step hc hf) (clean_newTask id ty payload tenant user now) h

/-- A first attempt that succeeds: the record stays consistent. -/
theorem consistent_firstAttempt :
    ∃ t, exec rowStep sampleAgentTask [.claim 1, .lock "w" 2, .commit (.succeed .empty) 3] = some t ∧
      Consistent t := by
  refine ⟨_, rfl, ?_⟩
  refine (consistent_iff_forward "a1" .agentTask { question := some "revenue?" } 7 1 0
    [.claim 1, .lock "w" 2, .commit (.succeed .empty) 3] _ rfl).mpr ?_ _ [] _ (List.append_nil _).symm
    rfl
  have hrunning : ((sampleAgentTask.claim 1).lock "w" 2).status ≠ .failed := by decide
  exact .cons trivial rfl (.cons trivial rfl (.cons hrunning rfl (.nil _)))

/-- One retry of an agent task: the first attempt fails at the model call, the second succeeds. -/
def failThenSucceed : List (Event Nat AgentInput) :=
  [.poll 0 1, .work 0 (.go 2), .work 0 (.go 3), .work 0 (.go 4),
    .handle 0 (.go 5), .handle 0 (.go 6), .handle 0 (.raises "boom"), .handle 0 (.go 7),
    .handle 0 (.go 8), .work 0 (.go 9), .work 0 (.go 10), .work 0 (.go 11), .work 0 (.go 12),
    -- the row is PENDING again; the second attempt starts here
    .poll 0 20, .work 0 (.go 21), .work 0 (.go 22), .work 0 (.go 23),
    .handle 1 (.go 24), .handle 1 (.go 25), .handle 1 (.answers {} 1), .handle 1 (.go 26)]

/-- The retry leaves a PENDING row with `started_at` and `completed_at` of the failed attempt, and a
    SUCCESS row with its error message. -/
theorem retry_leaves_record_inconsistent :
    (∃ s : State Nat AgentPc Ledgers,
      exec (step .default toString agentTaskHandler) (State.init sampleAgentTask noLedgers)
        (failThenSucceed.take 13) = some s ∧
      s.row.status = .pending ∧ s.row.startedAt = some 1 ∧ s.row.completedAt = some 7 ∧
      ¬ Consistent s.row) ∧
    (∃ s : State Nat AgentPc Ledgers,
      exec (step .default toString agentTaskHandler) (State.init sampleAgentTask noLedgers)
        failThenSucceed = some s ∧
      s.row.status = .success ∧ s.row.errorMessage = some "boom" ∧ ¬ Consistent s.row) := by
  refine ⟨⟨_, rfl, rfl, rfl, rfl, ?_⟩, ⟨_, rfl, rfl, rfl, ?_⟩⟩
  · intro hc
    exact absurd (hc.pendingNotStarted rfl) (by decide)
  · intro hc
    exact absurd (hc.successNoError rfl) (by decide)

end FinancialRag.Tasks
