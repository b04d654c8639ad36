/-
  The RETRY BUDGET: how often a task is tried, and whether a retry can get lost.

  Two mechanisms re-open a task.  The retry branch of `_execute_task` counts: it commits
  `retry_count + 1` before it re-queues.  Stale recovery does NOT count.  Hence
    * the persisted `retry_count` never exceeds `MAX_RETRY`, in every run whatsoever (`count_le`);
    * the number of handler starts is bounded by it only while recovery re-queues attempts that have
      not started their handler (`starts_le`): `BudgetAt` says that the starts never run ahead of the
      count by more than one, and not at all while the row is PENDING or freshly claimed.

  The retry branch is three commits by two processes: FAILED, the count, PENDING.  Between them the
  task is FAILED with retries left, and only the worker that oversees it will ever re-queue it:
  recovery looks at RUNNING rows, and a redelivered message is acknowledged unless it finds PENDING.
  `Overseen` names the two ways to lose that worker.
-/
import FinancialRag.Tasks.Exclusion
import FinancialRag.Tasks.Record

set_option linter.unusedVariables false
set_option linter.unusedSectionVars false

namespace FinancialRag.Tasks

open Machine

section Retries

variable {ι L X A : Type} [DecidableEq ι] {cfg : WorkerConfig} {name : ι → String}
  {H : Handler L X A}

/-! ## The count never exceeds the maximum -/

/-- The count is within the budget, and so is every count a worker is about to write. -/
structure CountAt (cfg : WorkerConfig) (rc : Nat) (ws : ι → WorkerPc) : Prop where
  counted : (rc : Int) ≤ cfg.maxRetry
  reading : ∀ w k, ws w = .retrying k → (k : Int) < cfg.maxRetry

theorem CountAt.goto {rc : Nat} {ws : ι → WorkerPc} {w : ι} {q : WorkerPc} (h : CountAt cfg rc ws)
    (hq : ∀ k, q ≠ .retrying k) : CountAt cfg rc (Function.update ws w q) := by
  refine ⟨h.counted, ?_⟩
  intro v k hv
  rcases update_cases hv with ⟨_, hqk⟩ | ⟨_, hvk⟩
  · exact absurd hqk (hq k)
  · exact h.reading v k hvk

/-- **One step keeps the count within the budget**, recovery and crashes included. -/
theorem count_step {s t : State ι L X} {e : Event ι A} (h : CountAt cfg s.row.retryCount s.workers)
    (ht : step cfg name H s e = some t) : CountAt cfg t.row.retryCount t.workers := by
  cases step_transition ht with
  | @retry w now hw hrow hr =>
    have hlt : (s.row.retryCount : Int) < cfg.maxRetry := by simpa [shouldRetry] using hr
    refine ⟨h.counted, ?_⟩
    intro v k hv
    rcases update_cases hv with ⟨_, hk⟩ | ⟨_, hvk⟩
    · injection hk with hk
      omega
    · exact h.reading v k hvk
  | @countRetry w now k hw =>
    have hk : (k : Int) < cfg.maxRetry := h.reading w k hw
    have h' : CountAt cfg (k + 1) s.workers := ⟨by omega, h.reading⟩
    exact h'.goto (by simp)
  | @handle n a l m hp he hm =>
    show CountAt cfg (applyCommit s.row m.commit).retryCount s.workers
    rw [applyCommit_retryCount]
    exact h
  | @killed w n input detail hw hi =>
    have h' := h.goto (w := w) (q := .raised detail) (by simp)
    show CountAt cfg (s.kill n).row.retryCount (Function.update (s.kill n).workers w (.raised detail))
    rw [kill_row, kill_workers]
    exact h'
  | deliver hw => exact h.goto (by simp)
  | poll hw hrow => exact h.goto (by simp)
  | readPending hw hrow => exact h.goto (by simp)
  | readOther hw hrow => exact h.goto (by simp)
  | claim hw hrow => exact h.goto (by simp)
  | claimLost hw hrow => exact h.goto (by simp)
  | reread hw hrow => exact h.goto (by simp)
  | rereadOther hw hrow => exact h.goto (by simp)
  | lock hw => exact h.goto (by simp)
  | noHandler hw hh => exact h.goto (by simp)
  | notStarted hw => exact h.goto (by simp)
  | start hw => exact h.goto (by simp)
  | joined hw hp => exact h.goto (by simp)
  | joinedFailed hw hp hd => exact h.goto (by simp)
  | writeFailed hw => exact h.goto (by simp)
  | done hw hr => exact h.goto (by simp)
  | requeue hw => exact h.goto (by simp)
  | crash hw => exact h.goto (by simp)
  | exit hp he => exact h
  | die hp => exact h
  | recoverRead hr hrow => exact h
  | recoverWrite hr => exact h

/-- In every run of every interleaving, `retry_count` stays within `MAX_RETRY`. -/
theorem count_le {row : Task} {stores : X} {es : List (Event ι A)} {s : State ι L X}
    {P : State ι L X → Event ι A → Prop} (hmax : 0 ≤ cfg.maxRetry) (hnew : row.retryCount = 0)
    (hrun : Run (step cfg name H) P (State.init row stores) es s) :
    (s.row.retryCount : Int) ≤ cfg.maxRetry := by
  have hinit : CountAt cfg row.retryCount (fun _ : ι => WorkerPc.idle) := by
    refine ⟨by rw [hnew]; exact hmax, ?_⟩
    intro w k hw
    exact absurd hw (by simp)
  exact (hrun.invariant (I := fun s => CountAt cfg s.row.retryCount s.workers)
    (fun _ _ _ h _ ht => count_step h ht) hinit).counted

/-! ## The starts do not run ahead of the count -/

/-- The newest mark is not a handler start: nothing is claimed, or the claim is not dispatched. -/
def Unstarted (marks : List (Mark ι)) : Prop := ∀ w, marks.head? ≠ some (.start w)

/-- A worker about to count has read the count that is in the row. -/
def ReadCount (s : State ι L X) : Prop := ∀ w k, s.workers w = .retrying k → k = s.row.retryCount

/-- **The count that was read stays the count**: nobody else counts in between. -/
theorem readCount_step {s t : State ι L X} {e : Event ι A} (hx : Excl s) (h : ReadCount s)
    (ht : step cfg name H s e = some t) : ReadCount t := by
  -- a step that neither reads nor writes the count
  have hgoto : ∀ {w : ι} {q : WorkerPc} {rc : Nat}, (∀ k, q ≠ .retrying k) → rc = s.row.retryCount →
      ∀ v k, Function.update s.workers w q v = .retrying k → k = rc := by
    intro w q rc hq hrc v k hv
    rcases update_cases hv with ⟨_, hc⟩ | ⟨_, hv'⟩
    · exact absurd hc (hq k)
    · rw [hrc]; exact h v k hv'
  cases step_transition ht with
  | @retry w now hw hrow hr =>
    intro v k hv
    rcases update_cases hv with ⟨_, hk⟩ | ⟨_, hv'⟩
    · injection hk with hk
      exact hk.symm
    · exact h v k hv'
  | @countRetry w now k hw =>
    -- no second worker is at its count
    intro v j hv
    rcases update_cases hv with ⟨_, hc⟩ | ⟨hne, hv'⟩
    · exact absurd hc (by simp)
    · exact absurd (hx.oneWorker v w (by rw [hv']; rfl) (by rw [hw]; rfl)) hne
  | @handle n a l m hp he hm =>
    intro v k hv
    show k = (applyCommit s.row m.commit).retryCount
    rw [applyCommit_retryCount]
    exact h v k hv
  | @killed w n input detail hw hi =>
    intro v k hv
    have hv' : Function.update (s.kill n).workers w (.raised detail) v = .retrying k := hv
    rw [kill_workers] at hv'
    show k = (s.kill n).row.retryCount
    rw [kill_row]
    exact hgoto (by simp) rfl v k hv'
  | exit hp he => exact h
  | die hp => exact h
  | recoverRead hr hrow => exact h
  | recoverWrite hr => exact h
  | _ => exact hgoto (by simp) rfl

/-- How far the handler starts may run ahead of the persisted count. -/
structure BudgetAt (st : TaskStatus) (rc starts : Nat) (marks : List (Mark ι)) (ws : ι → WorkerPc) :
    Prop where
  pending : st = .pending → starts ≤ rc
  unstarted : Unstarted marks → starts ≤ rc
  attempts : starts ≤ rc + 1
  requeueing : ∀ w, ws w = .requeueing → starts ≤ rc

namespace BudgetAt

variable {st st' : TaskStatus} {rc k : Nat} {marks : List (Mark ι)} {ws : ι → WorkerPc} {w : ι}
  {q : WorkerPc}

/-- A worker moves to a control point that promises nothing about the count. -/
theorem goto (h : BudgetAt st rc k marks ws) (hq : q ≠ .requeueing) :
    BudgetAt st rc k marks (Function.update ws w q) := by
  refine ⟨h.pending, h.unstarted, h.attempts, ?_⟩
  intro v hv
  rcases update_cases hv with ⟨_, hc⟩ | ⟨_, hv'⟩
  · exact absurd hc hq
  · exact h.requeueing v hv'

theorem setStatus (h : BudgetAt st rc k marks ws) (hst : st' ≠ .pending) :
    BudgetAt st' rc k marks ws :=
  { h with pending := fun hc => absurd hc hst }

/-- Back to PENDING, from a state in which the starts are within the count. -/
theorem release (h : BudgetAt st rc k marks ws) (hk : k ≤ rc) : BudgetAt st' rc k marks ws :=
  { h with pending := fun _ => hk }

theorem claim (h : BudgetAt .pending rc k marks ws) (hq : q ≠ .requeueing) :
    BudgetAt .running rc k (.claim w :: marks) (Function.update ws w q) := by
  have h' := h.goto (w := w) hq
  exact ⟨fun hc => absurd hc (by simp), fun _ => h.pending rfl, h'.attempts, h'.requeueing⟩

end BudgetAt

/-- Recovery finds the task at rest, and PENDING or claimed by a worker that has not started the
    handler. -/
def RecoversUnstarted (s : State ι L X) : Event ι A → Prop
  | .recover r _ => s.stale r = true →
      AtRest s ∧ (s.row.status = .pending ∨ Unstarted s.history)
  | _ => True

theorem RecoversUnstarted.recoversAtRest {s : State ι L X} {e : Event ι A}
    (h : RecoversUnstarted s e) : RecoversAtRest s e := by
  cases e with
  | recover r now => exact fun hr => (h hr).1
  | _ => trivial

abbrev Budget (s : State ι L X) : Prop :=
  BudgetAt s.row.status s.row.retryCount s.starts s.history s.workers

/-- **One step keeps the starts within the count.** -/
theorem budget_step {s t : State ι L X} {e : Event ι A} (hx : Excl s) (hh : History s)
    (hread : ReadCount s) (h : Budget s) (hP : RecoversUnstarted s e)
    (ht : step cfg name H s e = some t) : Budget t := by
  cases step_transition ht with
  | poll hw hrow =>
    have h' : BudgetAt .pending s.row.retryCount s.starts s.history s.workers := hrow ▸ h
    exact h'.claim (by simp)
  | claim hw hrow =>
    have h' : BudgetAt .pending s.row.retryCount s.starts s.history s.workers := hrow ▸ h
    exact h'.claim (by simp)
  | @start w now hw =>
    -- the claim being dispatched is the newest mark, so the starts were within the count
    have hheld : s.history.head? = some (.claim w) := hh.held w (by rw [hw]; rfl)
    have hle : s.starts ≤ s.row.retryCount := h.unstarted (by intro v; rw [hheld]; simp)
    have hrunning : s.row.status = .running := hx.holdingRunning w (by rw [hw]; rfl)
    have h' := h.goto (w := w) (q := .waiting s.starts) (by simp)
    refine ⟨?_, fun hu => absurd rfl (hu w), ?_, ?_⟩
    · intro hc
      exact absurd (hrunning.symm.trans hc) (by simp)
    · show s.starts + 1 ≤ s.row.retryCount + 1
      omega
    · intro v hv
      -- a second worker at its re-queue would be active besides the one that starts
      rcases update_cases hv with ⟨_, hc⟩ | ⟨hne, hv'⟩
      · exact absurd hc (by simp)
      · exact absurd (hx.oneWorker v w (by rw [hv']; rfl) (by rw [hw]; rfl)) hne
  | noHandler hw hh => exact (h.goto (by simp)).setStatus (by simp [State.writeBy, failedUpdate])
  | writeFailed hw => exact (h.goto (by simp)).setStatus (by simp [State.writeBy, failedUpdate])
  | retry hw hrow hr => exact h.goto (by simp)
  | @countRetry w now k hw =>
    have hk : k = s.row.retryCount := hread w k hw
    have hle := h.attempts
    refine ⟨?_, ?_, ?_, ?_⟩
    · intro hc
      show s.starts ≤ k + 1; omega
    · intro _
      show s.starts ≤ k + 1; omega
    · show s.starts ≤ k + 1 + 1; omega
    · intro v hv
      show s.starts ≤ k + 1; omega
  | @requeue w now hw =>
    exact (h.goto (by simp)).release (h.requeueing w hw)
  | recoverWrite hr =>
    obtain ⟨_, hcase⟩ := hP hr
    refine h.release ?_
    rcases hcase with hpend | hun
    · exact h.pending hpend
    · exact h.unstarted hun
  | @handle n a l m hp he hm =>
    show BudgetAt (applyCommit s.row m.commit).status (applyCommit s.row m.commit).retryCount _ _ _
    rw [applyCommit_retryCount]
    rcases applyCommit_status s.row m.commit with hs | ⟨_, _, _, hs⟩ | ⟨_, _, _, hs⟩
    · rw [hs]; exact h
    · exact h.setStatus (by rw [hs]; simp)
    · exact h.setStatus (by rw [hs]; simp)
  | @killed w n input detail hw hi =>
    have h' := h.goto (w := w) (q := .raised detail) (by simp)
    show BudgetAt (s.kill n).row.status (s.kill n).row.retryCount (s.kill n).starts (s.kill n).history
      (Function.update (s.kill n).workers w (.raised detail))
    rw [kill_row, kill_workers, kill_starts, kill_history]
    exact h'
  | deliver hw => exact h.goto (by simp)
  | readPending hw hrow => exact h.goto (by simp)
  | readOther hw hrow => exact h.goto (by simp)
  | claimLost hw hrow => exact h.goto (by simp)
  | reread hw hrow => exact h.goto (by simp)
  | rereadOther hw hrow => exact h.goto (by simp)
  | lock hw => exact h.goto (by simp)
  | notStarted hw => exact h.goto (by simp)
  | joined hw hp => exact h.goto (by simp)
  | joinedFailed hw hp hd => exact h.goto (by simp)
  | done hw hr => exact h.goto (by simp)
  | crash hw => exact h.goto (by simp)
  | exit hp he => exact h
  | die hp => exact h
  | recoverRead hr hrow => exact h

/-- **Bounded attempts.**  With a budget that is not negative, `retry_count` never exceeds `MAX_RETRY`;
    and in every run in which recovery re-queues only attempts that have not started their handler, the
    handler is started at most `MAX_RETRY + 1` times. -/
theorem starts_le {row : Task} {stores : X} {es : List (Event ι A)} {s : State ι L X}
    (hmax : 0 ≤ cfg.maxRetry) (hnew : row.retryCount = 0)
    (hrun : Run (step cfg name H) RecoversUnstarted (State.init row stores) es s) :
    (s.starts : Int) ≤ cfg.maxRetry + 1 ∧ (s.row.retryCount : Int) ≤ cfg.maxRetry := by
  have hcount := count_le hmax hnew hrun
  have hinv : Excl s ∧ History s ∧ ReadCount s ∧ Budget s := by
    refine hrun.invariant (I := fun s => Excl s ∧ History s ∧ ReadCount s ∧ Budget s)
      ?_ ?_
    · intro s e t hs hP ht
      obtain ⟨hx, hh, hr, hb⟩ := hs
      exact ⟨excl_step hx hP.recoversAtRest ht, history_step hx hh ht, readCount_step hx hr ht,
        budget_step hx hh hr hb hP ht⟩
    · refine ⟨excl_init row stores, history_init row stores, ?_, ?_⟩
      · intro w k hw
        exact absurd hw (by simp [State.init])
      · refine ⟨fun _ => Nat.zero_le _, fun _ => Nat.zero_le _, Nat.zero_le _, ?_⟩
        intro w hw
        exact absurd hw (by simp [State.init])
  have hle := hinv.2.2.2.attempts
  exact ⟨by omega, hcount⟩

/-! ## No retry gets lost while somebody oversees it -/

/-- Between the start of the handler and the re-queue: this worker will still look at the outcome. -/
def WorkerPc.overseeing : WorkerPc → Bool
  | .waiting _ | .raised _ | .settled | .retrying _ | .requeueing => true
  | _ => false

/-- FAILED with retries left. -/
def RetryOwed (cfg : WorkerConfig) (t : Task) : Prop :=
  t.status = .failed ∧ shouldRetry t.retryCount cfg.maxRetry = true

/-- While a retry is owed its last overseer does not crash, and a handler whose worker is gone does
    not commit FAILED with retries left. -/
def Overseen (cfg : WorkerConfig) (H : Handler L X A) (s : State ι L X) : Event ι A → Prop
  | .crash w => RetryOwed cfg s.row → ∃ v, v ≠ w ∧ (s.workers v).overseeing = true
  | .handle n a => ∀ l m error now, s.procs n = .alive l → H.step l a s.row s.stores = some m →
      m.commit = some (.fail error, now) → shouldRetry s.row.retryCount cfg.maxRetry = true →
      ∃ w, (s.workers w).overseeing = true
  | _ => True

/-- Whoever owes a retry has an overseer, and a RUNNING row carries the time of its claim. -/
structure OverseenAt (cfg : WorkerConfig) (row : Task) (ws : ι → WorkerPc) : Prop where
  overseer : RetryOwed cfg row → ∃ w, (ws w).overseeing = true
  started : row.status = .running → row.startedAt ≠ none

/-- A move after which the worker oversees at least what it did before. -/
theorem OverseenAt.goto {row : Task} {ws : ι → WorkerPc} {w : ι} {q : WorkerPc}
    (h : OverseenAt cfg row ws) (hq : (ws w).overseeing = true → q.overseeing = true) :
    OverseenAt cfg row (Function.update ws w q) := by
  refine ⟨?_, h.started⟩
  intro ho
  obtain ⟨v, hv⟩ := h.overseer ho
  exact ⟨v, update_of (p := fun q : WorkerPc => q.overseeing = true) hq hv⟩

/-- A worker that writes the row itself and goes on to look at it. -/
theorem OverseenAt.oversee {row : Task} {ws : ι → WorkerPc} {w : ι} {q : WorkerPc}
    (hq : q.overseeing = true) (hst : row.status = .running → row.startedAt ≠ none) :
    OverseenAt cfg row (Function.update ws w q) :=
  ⟨fun _ => ⟨w, by rw [Function.update_self]; exact hq⟩, hst⟩

/-- No retry is owed by a row that is not FAILED. -/
theorem OverseenAt.notFailed {row : Task} {ws : ι → WorkerPc} (hne : row.status ≠ .failed)
    (hst : row.status = .running → row.startedAt ≠ none) : OverseenAt cfg row ws :=
  ⟨fun ho => absurd ho.1 hne, hst⟩

/-- **One step leaves no retry without an overseer.** -/
theorem overseen_step {s t : State ι L X} {e : Event ι A} (h : OverseenAt cfg s.row s.workers)
    (hP : Overseen cfg H s e) (ht : step cfg name H s e = some t) :
    OverseenAt cfg t.row t.workers := by
  -- a worker that was not overseeing may go anywhere
  have hfree : ∀ {w : ι} {q₀ q : WorkerPc}, s.workers w = q₀ → q₀.overseeing = false →
      OverseenAt cfg s.row (Function.update s.workers w q) := by
    intro w q₀ q hw hq₀
    refine h.goto ?_
    intro hc
    rw [hw, hq₀] at hc
    exact absurd hc (by simp)
  cases step_transition ht with
  | deliver hw => exact hfree hw rfl
  | poll hw hrow =>
    exact .notFailed (by simp [State.claimBy]) (fun _ => by simp [State.claimBy, Task.claim])
  | readPending hw hrow => exact hfree hw rfl
  | readOther hw hrow => exact hfree hw rfl
  | claim hw hrow =>
    exact .notFailed (by simp [State.claimBy]) (fun _ => by simp [State.claimBy, Task.claim])
  | claimLost hw hrow => exact hfree hw rfl
  | reread hw hrow => exact hfree hw rfl
  | rereadOther hw hrow => exact hfree hw rfl
  | lock hw =>
    have h' := hfree (q := .locked) hw rfl
    exact ⟨h'.overseer, h'.started⟩
  | noHandler hw hh => exact .oversee rfl (fun hc => absurd hc (by simp [State.writeBy, failedUpdate]))
  | notStarted hw => exact hfree hw rfl
  | start hw => exact hfree hw rfl
  | joined hw hp => exact h.goto (fun _ => rfl)
  | joinedFailed hw hp hd => exact h.goto (fun _ => rfl)
  | @killed w n input detail hw hi =>
    have h' := h.goto (w := w) (q := .raised detail) (fun _ => rfl)
    show OverseenAt cfg (s.kill n).row (Function.update (s.kill n).workers w (.raised detail))
    rw [kill_row, kill_workers]
    exact h'
  | writeFailed hw => exact .oversee rfl (fun hc => absurd hc (by simp [State.writeBy, failedUpdate]))
  | retry hw hrow hr => exact h.goto (fun _ => rfl)
  | done hw hr =>
    -- the worker leaves after it has seen that nothing is owed
    refine ⟨?_, h.started⟩
    intro ho
    have hno := hr ho.1
    have hyes : shouldRetry s.row.retryCount cfg.maxRetry = true := ho.2
    rw [hno] at hyes
    exact absurd hyes (by simp)
  | countRetry hw => exact .oversee rfl h.started
  | requeue hw =>
    refine .notFailed (by simp [State.writeBy, requeueUpdate]) ?_
    intro hc
    exact absurd hc (by simp [State.writeBy, requeueUpdate])
  | @handle n a l m hp he hm =>
    refine ⟨?_, ?_⟩
    · intro ho
      obtain ⟨hf, hb⟩ := ho
      have hb' : shouldRetry s.row.retryCount cfg.maxRetry = true := by
        rwa [applyCommit_retryCount] at hb
      rcases applyCommit_status s.row m.commit with hs | ⟨_, _, _, hs⟩ | ⟨error, now, hc, _⟩
      · exact h.overseer ⟨hs.symm.trans hf, hb'⟩
      · exact absurd (hs.symm.trans hf) (by simp)
      · exact hP l m error now hp hm hc hb'
    · intro hrun
      show (applyCommit s.row m.commit).startedAt ≠ none
      rw [applyCommit_startedAt]
      refine h.started ?_
      rcases applyCommit_status s.row m.commit with hs | ⟨_, _, _, hs⟩ | ⟨_, _, _, hs⟩
      · exact hs.symm.trans hrun
      · exact absurd (hs.symm.trans hrun) (by simp)
      · exact absurd (hs.symm.trans hrun) (by simp)
  | exit hp he => exact h
  | die hp => exact h
  | @crash w hw =>
    refine ⟨?_, h.started⟩
    intro ho
    obtain ⟨v, hvw, hv⟩ := hP ho
    exact ⟨v, by show (Function.update s.workers w .idle v).overseeing = true
                 rw [Function.update_of_ne hvw]; exact hv⟩
  | recoverRead hr hrow => exact h
  | recoverWrite hr => exact .notFailed (by simp) (fun hc => absurd hc (by simp))

/-- **No lost retry.**  In every run in which no retry loses its overseer, a task that no worker is
    executing is PENDING, or RUNNING and visible to recovery once its time is up, or SUCCESS, or FAILED
    with its budget used up. -/
theorem no_lost_retry {row : Task} {stores : X} {es : List (Event ι A)} {s : State ι L X}
    (hnew : row.status = .pending)
    (hrun : Run (step cfg name H) (Overseen cfg H) (State.init row stores) es s)
    (hidle : ∀ w, s.workers w = .idle) :
    s.row.status = .pending ∨
    (s.row.status = .running ∧ ∃ since, ∀ now, since + cfg.staleAfterSeconds < now →
      s.row.isStale (now - cfg.staleAfterSeconds) = true) ∨
    s.row.status = .success ∨
    (s.row.status = .failed ∧ cfg.maxRetry ≤ s.row.retryCount) := by
  have hinv : OverseenAt cfg s.row s.workers := by
    refine hrun.invariant (I := fun s => OverseenAt cfg s.row s.workers)
      (fun _ _ _ h hP ht => overseen_step h hP ht) ?_
    exact .notFailed (by show row.status ≠ _; rw [hnew]; simp)
      (fun hc => by have hc' : row.status = .running := hc; rw [hnew] at hc'; exact absurd hc' (by simp))
  cases hst : s.row.status with
  | pending => exact Or.inl rfl
  | running =>
    obtain ⟨since, hsince⟩ := Option.ne_none_iff_exists'.mp (hinv.started hst)
    refine Or.inr (Or.inl ⟨rfl, since, ?_⟩)
    intro now hnow
    simp only [Task.isStale, hst, hsince, Option.any_some, beq_self_eq_true, Bool.true_and,
      decide_eq_true_eq]
    omega
  | success => exact Or.inr (Or.inr (Or.inl rfl))
  | failed =>
    refine Or.inr (Or.inr (Or.inr ⟨rfl, ?_⟩))
    by_contra hlt
    have howed : RetryOwed cfg s.row := ⟨hst, by simp only [shouldRetry, decide_eq_true_eq]; omega⟩
    obtain ⟨w, hw⟩ := hinv.overseer howed
    rw [hidle w] at hw
    exact absurd hw (by simp [WorkerPc.overseeing])

end Retries

/-! ## Schedules -/

/-- The failed attempt of `failThenSucceed` is counted: two starts, `retry_count` 1. -/
theorem failThenSucceed_starts :
    ∃ s : State Nat AgentPc Ledgers,
      exec (step .default toString agentTaskHandler) (State.init sampleAgentTask noLedgers)
        failThenSucceed = some s ∧ s.starts = 2 ∧ s.row.retryCount = 1 ∧
      (s.starts : Int) ≤ WorkerConfig.default.maxRetry + 1 := by
  have hexec : ∃ s : State Nat AgentPc Ledgers,
      exec (step .default toString agentTaskHandler) (State.init sampleAgentTask noLedgers)
        failThenSucceed = some s ∧ s.starts = 2 ∧ s.row.retryCount = 1 := ⟨_, rfl, rfl, rfl⟩
  obtain ⟨s, hs, hstarts, hcount⟩ := hexec
  have hcalm : ∀ e ∈ failThenSucceed, e.isRecover = false := by decide
  have hrun := run_of_exec (P := RecoversUnstarted) hs fun e he u => by
    cases e with
    | recover r now => exact absurd (hcalm _ he) (by simp [Event.isRecover])
    | _ => trivial
  exact ⟨s, hs, hstarts, hcount, (starts_le (by decide) rfl hrun).1⟩

/-- A task whose handler kills its worker: each attempt is re-queued by recovery, and none is
    counted. -/
def poisonAttempt (n : Nat) : List (Event Nat AgentInput) :=
  [.poll 0 (10000 * n), .work 0 (.go (10000 * n + 1)), .work 0 (.go (10000 * n + 2)),
    .work 0 (.go (10000 * n + 3)), .handle n (.go (10000 * n + 4)), .die n (-9), .crash 0,
    .recover 1 (10000 * n + 5000), .recover 1 (10000 * n + 5001)]

/-- Five starts with `MAX_RETRY` 3, and `retry_count` still 0. -/
theorem poison_exceeds_attempts :
    ∃ s : State Nat AgentPc Ledgers,
      exec (step .default toString agentTaskHandler) (State.init sampleAgentTask noLedgers)
        ((List.range 5).flatMap poisonAttempt) = some s ∧
      s.starts = 5 ∧ s.row.retryCount = 0 ∧ ¬ (s.starts : Int) ≤ WorkerConfig.default.maxRetry + 1 :=
  ⟨_, rfl, rfl, rfl, by decide⟩

/-- One attempt at a task whose type has no handler: claim, lock, FAILED, and a look at the row. -/
def noHandlerAttempt : List (Event Unit AgentInput) :=
  [.poll () 1, .work () (.go 2), .work () (.go 3), .work () (.go 4), .work () (.go 5)]

/-- Three attempts that are re-queued and one that is not. -/
def noHandlerRun : List (Event Unit AgentInput) :=
  (List.range 3).flatMap (fun _ => noHandlerAttempt ++ [.work () (.go 6), .work () (.go 7)]) ++
    noHandlerAttempt

theorem noHandlerRun_uses_budget :
    ∃ s : State Unit AgentPc Ledgers,
      exec (step .default (fun _ => "w") agentTaskHandler)
        (State.init (newTask "k1" .refreshKnowledge {} 7 1 0) noLedgers) noHandlerRun = some s ∧
      s.row.status = .failed ∧ WorkerConfig.default.maxRetry ≤ s.row.retryCount := by
  have hexec : ∃ s : State Unit AgentPc Ledgers,
      exec (step .default (fun _ => "w") agentTaskHandler)
        (State.init (newTask "k1" .refreshKnowledge {} 7 1 0) noLedgers) noHandlerRun = some s ∧
      s.row.status = .failed ∧ s.workers () = .idle := ⟨_, rfl, rfl, rfl⟩
  obtain ⟨s, hs, hst, hidle⟩ := hexec
  have hcalm : ∀ e ∈ noHandlerRun, (∃ w i, e = .work w i) ∨ ∃ w now, e = .poll w now := by
    intro e he
    simp only [noHandlerRun, noHandlerAttempt, List.mem_append, List.mem_flatMap, List.mem_cons,
      List.not_mem_nil, or_false] at he
    aesop
  have hrun := run_of_exec (P := Overseen .default agentTaskHandler) hs fun e he u => by
    rcases hcalm e he with ⟨w, i, rfl⟩ | ⟨w, now, rfl⟩ <;> trivial
  refine ⟨s, hs, hst, ?_⟩
  rcases no_lost_retry rfl hrun (fun _ => hidle) with h | ⟨h, _⟩ | h | ⟨_, h⟩
  · exact absurd (hst.symm.trans h) (by simp)
  · exact absurd (hst.symm.trans h) (by simp)
  · exact absurd (hst.symm.trans h) (by simp)
  · exact h

/-- The handler commits FAILED and exits; its worker dies before it has counted the retry. -/
def crashBeforeRetry : List (Event Unit AgentInput) :=
  [.poll () 1, .work () (.go 2), .work () (.go 3), .work () (.go 4),
    .handle 0 (.go 5), .handle 0 (.go 6), .handle 0 (.raises "boom"), .handle 0 (.go 7),
    .handle 0 (.go 8), .crash ()]

/-- Nobody executes the task any more, and it is FAILED with all its retries left. -/
theorem retry_lost :
    ∃ s : State Unit AgentPc Ledgers,
      exec (step .default (fun _ => "w") agentTaskHandler) (State.init sampleAgentTask noLedgers)
        crashBeforeRetry = some s ∧
      (∀ w, s.workers w = .idle) ∧ (∀ n, (s.procs n).isAlive = false) ∧
      s.row.status = .failed ∧ s.row.retryCount = 0 ∧
      ¬ WorkerConfig.default.maxRetry ≤ s.row.retryCount := by
  refine ⟨_, rfl, fun _ => rfl, ?_, rfl, rfl, by decide⟩
  intro n
  cases n with
  | zero => rfl
  | succ n => rfl

end FinancialRag.Tasks
