/-
  The task worker (`tasks/worker.py`) as a protocol over ONE task row.

  Parties and their atomic steps:
    * any number of worker threads `w : ι` — each runs `_process_next_task` / `_execute_task`; its
      control point `WorkerPc` sits BETWEEN two database operations, so every read, every commit and
      the start / join / kill of the handler process is a step of its own;
    * handler processes, numbered in the order they are started — a process belongs to no worker
      thread once that worker has crashed, and then keeps committing as an orphan;
    * stale-recovery runs `r : ι` — a read of the RUNNING row followed by a separate, later write.

  The broker is not a party: a message of the task may be handed to an idle worker at ANY moment
  (`Event.deliver`), which covers first, duplicated, redelivered and reclaimed deliveries, so
  publishing and acknowledging have no effect left to model.

  The handler is a PARAMETER (`Handler L X A`): control points `L`, the other stores it writes `X`,
  and inputs `A` (what the next external operation answers).  It can touch the row only through the
  three kinds of `update_task` call the two registered handlers make (`HandlerCommit`), by the type
  of `Handler.step`.

  `step` is the executable semantics.  `Transition` is its inversion — every way a step can go, with
  its guard — and `step_transition` is the one place where `step` is unfolded: each invariant of the
  protocol is a case analysis over `Transition`.

  `history` and `starts` are ghost state: who claimed, and which claims reached their handler.
-/
import FinancialRag.Lib.Machine
import FinancialRag.Tasks.Repository

set_option linter.unusedVariables false

namespace FinancialRag.Tasks

/-! ## Configuration and the retry policy -/

/-- `MAX_RETRY`, `MAX_TASK_RUNTIME` and `HEARTBEAT_INTERVAL`: integers read from the environment, of
    any sign. -/
structure WorkerConfig where
  maxRetry : Int
  maxTaskRuntime : Int
  heartbeatInterval : Int
  deriving DecidableEq, Repr

/-- The values used when the environment sets none. -/
def WorkerConfig.default : WorkerConfig where
  maxRetry := 3
  maxTaskRuntime := 3600
  heartbeatInterval := 30

def WorkerConfig.staleRecoveryGraceSeconds (cfg : WorkerConfig) : Int :=
  max 60 (cfg.heartbeatInterval * 2)

/-- The `stale_after_seconds` argument of `_recover_stale_if_needed`. -/
def WorkerConfig.staleAfterSeconds (cfg : WorkerConfig) : Int :=
  max 1 cfg.maxTaskRuntime + cfg.staleRecoveryGraceSeconds

/-- The worker never calls `recover_stale_tasks` with an argument that it rejects. -/
theorem WorkerConfig.staleAfterSeconds_pos (cfg : WorkerConfig) : 0 < cfg.staleAfterSeconds := by
  unfold WorkerConfig.staleAfterSeconds WorkerConfig.staleRecoveryGraceSeconds
  omega

def shouldRetry (retryCount : Nat) (maxRetry : Int) : Bool := (retryCount : Int) < maxRetry

def getRetryCount (task : Task) : Nat := task.retryCount

/-- The values of `_HANDLERS`. -/
inductive HandlerReference where
  | processDocumentTask | agentTaskHandler
  deriving DecidableEq, Repr

def handlers : TaskType → Option HandlerReference
  | .processDocument => some .processDocumentTask
  | .agentTask => some .agentTaskHandler
  | .refreshKnowledge => none

/-- The dispatch of `_execute_task`: an unknown text and a type without an entry both give none. -/
def handlerFor (taskType : String) : Option HandlerReference :=
  (TaskType.ofValue taskType).bind handlers

/-! ## Handlers -/

/-- How a handler process ended: `(True, None)`, `(False, error)`, or no outcome at all. -/
inductive Exit where
  | returned
  | raised (error : String)
  | died (exitcode : Int)
  deriving DecidableEq, Repr

/-- The text of the `TaskExecutionError` an exit leads to; `none` when the worker just returns. -/
def Exit.detail : Exit → Option String
  | .returned => none
  | .raised error => some (if error = "" then "handler process exited with code 0" else error)
  | .died code => some s!"handler process exited with code {code}"

/-- The three kinds of `update_task` call a handler makes. -/
inductive HandlerCommit where
  | progress (value : Int)
  | succeed (result : TaskResult)
  | fail (error : String)
  deriving DecidableEq, Repr

def HandlerCommit.toUpdate : HandlerCommit → TaskUpdate
  | .progress value => { progress := some value }
  | .succeed result => { status := some .success, progress := some 100, result := some result }
  | .fail error => { status := some .failed, errorMessage := some error }

/-- One step of a handler process: the next control point, at most one commit to the task row, and
    the other stores after it. -/
structure HandlerMove (L X : Type) where
  next : L
  commit : Option (HandlerCommit × Int)
  stores : X

/-- Apply the commit of a move to the row. -/
def applyCommit (row : Task) : Option (HandlerCommit × Int) → Task
  | none => row
  | some (c, now) => row.update c.toUpdate now

/-- A handler: control points `L`, other stores `X`, inputs `A`.  `exit l = some e` marks the control
    points at which the function has ended and only the process exit is left. -/
structure Handler (L X A : Type) where
  entry : L
  step : L → A → Task → X → Option (HandlerMove L X)
  exit : L → Option Exit

@[simp] theorem applyCommit_retryCount (row : Task) (c : Option (HandlerCommit × Int)) :
    (applyCommit row c).retryCount = row.retryCount := by
  cases c <;> rfl

@[simp] theorem applyCommit_startedAt (row : Task) (c : Option (HandlerCommit × Int)) :
    (applyCommit row c).startedAt = row.startedAt := by
  cases c <;> rfl

/-- A handler leaves the status alone or makes it SUCCESS or FAILED; never PENDING or RUNNING. -/
theorem applyCommit_status (row : Task) (c : Option (HandlerCommit × Int)) :
    (applyCommit row c).status = row.status ∨
      (∃ r now, c = some (.succeed r, now) ∧ (applyCommit row c).status = .success) ∨
      (∃ e now, c = some (.fail e, now) ∧ (applyCommit row c).status = .failed) := by
  match c with
  | none => exact Or.inl rfl
  | some (.progress v, now) => exact Or.inl rfl
  | some (.succeed r, now) => exact Or.inr (Or.inl ⟨r, now, rfl, rfl⟩)
  | some (.fail e, now) => exact Or.inr (Or.inr ⟨e, now, rfl, rfl⟩)

/-! ## The protocol state -/

/-- Where a worker thread stands with respect to the task. -/
inductive WorkerPc where
  /-- not executing this task -/
  | idle
  /-- `_execute_task` entered with a broker message, before `get_task` -/
  | delivered
  /-- the message path has read PENDING, before `claim_task(task_id)` -/
  | sawPending
  /-- `claim_task()` of the poll path has committed, before `get_task` -/
  | polled
  /-- claimed, before the `worker_id` / `locked_at` commit -/
  | claimed
  /-- before the handler dispatch -/
  | locked
  /-- the handler process is started; the worker polls it -/
  | waiting (process : Nat)
  /-- `_run_handler_with_timeout` has raised, before the FAILED write -/
  | raised (detail : String)
  /-- after the handler, before `expire_all` + `get_task` -/
  | settled
  /-- FAILED with retries left was read, before the `retry_count` commit -/
  | retrying (retryCount : Nat)
  /-- before `update_task(status=PENDING)` -/
  | requeueing
  deriving DecidableEq, Repr

/-- What the environment answers to the worker's next operation. -/
inductive WorkInput where
  /-- the operation succeeds, at this time of the worker's clock -/
  | go (now : Int)
  /-- `process.start()` raises -/
  | startFails (error : String)
  /-- the deadline has passed -/
  | timeout
  /-- `self._running` is false -/
  | stop
  deriving DecidableEq, Repr

inductive Proc (L : Type) where
  | unstarted
  | alive (pc : L)
  | exited (how : Exit)
  deriving DecidableEq, Repr

/-- Ghost marks: a PENDING → RUNNING transition, and a handler start. -/
inductive Mark (ι : Type) where
  | claim (worker : ι)
  | start (worker : ι)
  deriving DecidableEq, Repr

structure State (ι L X : Type) where
  row : Task
  stores : X
  workers : ι → WorkerPc
  procs : Nat → Proc L
  /-- handler processes started so far; also the number of the next one -/
  starts : Nat
  /-- the recovery runs that have read the row as stale and not yet written -/
  stale : ι → Bool
  /-- ghost marks, newest first -/
  history : List (Mark ι)

inductive Event (ι A : Type) where
  /-- a broker message of the task reaches an idle worker -/
  | deliver (w : ι)
  /-- an idle worker's `claim_task()` selects the row -/
  | poll (w : ι) (now : Int)
  /-- the next operation of a worker that is executing the task -/
  | work (w : ι) (input : WorkInput)
  /-- the next step of a handler process, or its exit -/
  | handle (n : Nat) (input : A)
  /-- a handler process ends without an outcome -/
  | die (n : Nat) (exitcode : Int)
  /-- a worker leaves `_execute_task` without finishing it (its process dies, or a database
      operation raises) -/
  | crash (w : ι)
  /-- a recovery run reads the row, or writes it back after an earlier read -/
  | recover (r : ι) (now : Int)

section Protocol

variable {ι L X A : Type} [DecidableEq ι]

/-- A freshly created task nobody has touched. -/
def State.init (row : Task) (stores : X) : State ι L X where
  row := row
  stores := stores
  workers := fun _ => .idle
  procs := fun _ => .unstarted
  starts := 0
  stale := fun _ => false
  history := []

def State.goto (s : State ι L X) (w : ι) (pc : WorkerPc) : State ι L X :=
  { s with workers := Function.update s.workers w pc }

def State.setProc (s : State ι L X) (n : Nat) (p : Proc L) : State ι L X :=
  { s with procs := Function.update s.procs n p }

/-- A successful `claim_task` by `w`. -/
def State.claimBy (s : State ι L X) (w : ι) (now : Int) (pc : WorkerPc) : State ι L X :=
  { s.goto w pc with row := s.row.claim now, history := .claim w :: s.history }

/-- `update_task` by `w`, which then stands at `pc`. -/
def State.writeBy (s : State ι L X) (w : ι) (u : TaskUpdate) (now : Int) (pc : WorkerPc) :
    State ι L X :=
  { s.goto w pc with row := s.row.update u now }

/-- `process.start()` by `w`. -/
def State.startBy (H : Handler L X A) (s : State ι L X) (w : ι) : State ι L X :=
  { (s.goto w (.waiting s.starts)).setProc s.starts (.alive H.entry) with
    starts := s.starts + 1
    history := .start w :: s.history }

/-- `_terminate_task_process`: a process that is still alive ends with SIGTERM's exit code. -/
def State.kill (s : State ι L X) (n : Nat) : State ι L X :=
  match s.procs n with
  | .alive _ => s.setProc n (.exited (.died (-15)))
  | _ => s

/-- The FAILED write of `_execute_task`. -/
def failedUpdate (message : String) : TaskUpdate :=
  { status := some .failed, errorMessage := some message }

/-- `update_task(task_public_id, status=TaskStatus.PENDING)`. -/
def requeueUpdate : TaskUpdate := { status := some .pending }

/-! ## The step function -/

/-- The next operation of worker `w` inside `_execute_task`. -/
def workStep (cfg : WorkerConfig) (name : ι → String) (H : Handler L X A) (s : State ι L X) (w : ι)
    (input : WorkInput) : Option (State ι L X) :=
  match s.workers w, input with
  | .delivered, .go _ =>
    if s.row.status = .pending then some (s.goto w .sawPending) else some (s.goto w .idle)
  | .sawPending, .go now =>
    if s.row.status = .pending then some (s.claimBy w now .claimed) else some (s.goto w .idle)
  | .polled, .go _ =>
    if s.row.status = .running then some (s.goto w .claimed) else some (s.goto w .idle)
  | .claimed, .go now => some { s.goto w .locked with row := s.row.lock (name w) now }
  | .locked, input =>
    match handlerFor s.row.taskType, input with
    | none, .go now =>
      some (s.writeBy w (failedUpdate s!"No handler for task type: {s.row.taskType}") now .settled)
    | some _, .go _ =>
      -- `_run_handler_with_timeout` refuses a non-positive limit before it starts anything
      if cfg.maxTaskRuntime ≤ 0 then
        some (s.goto w (.raised "MAX_TASK_RUNTIME must be greater than zero"))
      else some (s.startBy H w)
    | some _, .startFails error =>
      if cfg.maxTaskRuntime ≤ 0 then none
      else some (s.goto w (.raised s!"Failed to start task handler process: {error}"))
    | _, _ => none
  | .waiting n, .go _ =>
    match s.procs n with
    | .exited how =>
      match how.detail with
      | none => some (s.goto w .settled)
      | some detail => some (s.goto w (.raised detail))
    | _ => none
  -- the deadline and the stop flag are tested after `is_alive()`, so the process may have ended
  -- by itself in between: both raise in either case
  | .waiting n, .timeout =>
    some ((s.kill n).goto w (.raised s!"Task exceeded MAX_TASK_RUNTIME ({cfg.maxTaskRuntime}s)"))
  | .waiting n, .stop => some ((s.kill n).goto w (.raised "Worker stopped before task completed"))
  | .raised detail, .go now => some (s.writeBy w (failedUpdate detail) now .settled)
  | .settled, .go _ =>
    if s.row.status = .failed ∧ shouldRetry (getRetryCount s.row) cfg.maxRetry then
      some (s.goto w (.retrying (getRetryCount s.row)))
    else some (s.goto w .idle)
  | .retrying k, .go _ =>
    some { s.goto w .requeueing with row := { s.row with retryCount := k + 1 } }
  | .requeueing, .go now => some (s.writeBy w requeueUpdate now .idle)
  | _, _ => none

/-- The next step of handler process `n`. -/
def handleStep (H : Handler L X A) (s : State ι L X) (n : Nat) (a : A) : Option (State ι L X) :=
  match s.procs n with
  | .alive l =>
    match H.exit l with
    | some how => some (s.setProc n (.exited how))
    | none =>
      (H.step l a s.row s.stores).map fun m =>
        { s.setProc n (.alive m.next) with row := applyCommit s.row m.commit, stores := m.stores }
  | _ => none

/-- One step of the whole protocol. -/
def step (cfg : WorkerConfig) (name : ι → String) (H : Handler L X A) (s : State ι L X) :
    Event ι A → Option (State ι L X)
  | .deliver w => if s.workers w = .idle then some (s.goto w .delivered) else none
  | .poll w now =>
    if s.workers w = .idle ∧ s.row.status = .pending then some (s.claimBy w now .polled) else none
  | .work w input => workStep cfg name H s w input
  | .handle n a => handleStep H s n a
  | .die n code =>
    match s.procs n with
    | .alive _ => some (s.setProc n (.exited (.died code)))
    | _ => none
  | .crash w => if s.workers w = .idle then none else some (s.goto w .idle)
  | .recover r now =>
    if s.stale r then
      some { s with row := s.row.recover now, stale := Function.update s.stale r false }
    else if s.row.isStale (now - cfg.staleAfterSeconds) then
      some { s with stale := Function.update s.stale r true }
    else none

/-! ## Inversion: every way a step can go -/

/-- `Transition cfg name H s e t`: what the single step `e` may do in `s`, with the guard it was taken
    under.  One constructor per branch of the code. -/
inductive Transition (cfg : WorkerConfig) (name : ι → String) (H : Handler L X A)
    (s : State ι L X) : Event ι A → State ι L X → Prop
  | deliver {w} (hw : s.workers w = .idle) : Transition cfg name H s (.deliver w) (s.goto w .delivered)
  | poll {w now} (hw : s.workers w = .idle) (hrow : s.row.status = .pending) :
      Transition cfg name H s (.poll w now) (s.claimBy w now .polled)
  | readPending {w now} (hw : s.workers w = .delivered) (hrow : s.row.status = .pending) :
      Transition cfg name H s (.work w (.go now)) (s.goto w .sawPending)
  | readOther {w now} (hw : s.workers w = .delivered) (hrow : s.row.status ≠ .pending) :
      Transition cfg name H s (.work w (.go now)) (s.goto w .idle)
  | claim {w now} (hw : s.workers w = .sawPending) (hrow : s.row.status = .pending) :
      Transition cfg name H s (.work w (.go now)) (s.claimBy w now .claimed)
  | claimLost {w now} (hw : s.workers w = .sawPending) (hrow : s.row.status ≠ .pending) :
      Transition cfg name H s (.work w (.go now)) (s.goto w .idle)
  | reread {w now} (hw : s.workers w = .polled) (hrow : s.row.status = .running) :
      Transition cfg name H s (.work w (.go now)) (s.goto w .claimed)
  | rereadOther {w now} (hw : s.workers w = .polled) (hrow : s.row.status ≠ .running) :
      Transition cfg name H s (.work w (.go now)) (s.goto w .idle)
  | lock {w now} (hw : s.workers w = .claimed) :
      Transition cfg name H s (.work w (.go now))
        { s.goto w .locked with row := s.row.lock (name w) now }
  | noHandler {w now} (hw : s.workers w = .locked) (hh : handlerFor s.row.taskType = none) :
      Transition cfg name H s (.work w (.go now))
        (s.writeBy w (failedUpdate s!"No handler for task type: {s.row.taskType}") now .settled)
  | notStarted {w input detail} (hw : s.workers w = .locked) :
      Transition cfg name H s (.work w input) (s.goto w (.raised detail))
  | start {w now} (hw : s.workers w = .locked) :
      Transition cfg name H s (.work w (.go now)) (s.startBy H w)
  | joined {w now n} (hw : s.workers w = .waiting n) (hp : s.procs n = .exited .returned) :
      Transition cfg name H s (.work w (.go now)) (s.goto w .settled)
  | joinedFailed {w now n how detail} (hw : s.workers w = .waiting n)
      (hp : s.procs n = .exited how) (hd : how.detail = some detail) :
      Transition cfg name H s (.work w (.go now)) (s.goto w (.raised detail))
  | killed {w n input detail} (hw : s.workers w = .waiting n) (hi : input = .timeout ∨ input = .stop) :
      Transition cfg name H s (.work w input) ((s.kill n).goto w (.raised detail))
  | writeFailed {w now detail} (hw : s.workers w = .raised detail) :
      Transition cfg name H s (.work w (.go now)) (s.writeBy w (failedUpdate detail) now .settled)
  | retry {w now} (hw : s.workers w = .settled) (hrow : s.row.status = .failed)
      (hr : shouldRetry s.row.retryCount cfg.maxRetry = true) :
      Transition cfg name H s (.work w (.go now)) (s.goto w (.retrying s.row.retryCount))
  | done {w now} (hw : s.workers w = .settled)
      (hr : s.row.status = .failed → shouldRetry s.row.retryCount cfg.maxRetry = false) :
      Transition cfg name H s (.work w (.go now)) (s.goto w .idle)
  | countRetry {w now k} (hw : s.workers w = .retrying k) :
      Transition cfg name H s (.work w (.go now))
        { s.goto w .requeueing with row := { s.row with retryCount := k + 1 } }
  | requeue {w now} (hw : s.workers w = .requeueing) :
      Transition cfg name H s (.work w (.go now)) (s.writeBy w requeueUpdate now .idle)
  | handle {n a l m} (hp : s.procs n = .alive l) (he : H.exit l = none)
      (hm : H.step l a s.row s.stores = some m) :
      Transition cfg name H s (.handle n a)
        { s.setProc n (.alive m.next) with row := applyCommit s.row m.commit, stores := m.stores }
  | exit {n a l how} (hp : s.procs n = .alive l) (he : H.exit l = some how) :
      Transition cfg name H s (.handle n a) (s.setProc n (.exited how))
  | die {n code l} (hp : s.procs n = .alive l) :
      Transition cfg name H s (.die n code) (s.setProc n (.exited (.died code)))
  | crash {w} (hw : s.workers w ≠ .idle) : Transition cfg name H s (.crash w) (s.goto w .idle)
  | recoverRead {r now} (hr : s.stale r = false)
      (hrow : s.row.isStale (now - cfg.staleAfterSeconds) = true) :
      Transition cfg name H s (.recover r now) { s with stale := Function.update s.stale r true }
  | recoverWrite {r now} (hr : s.stale r = true) :
      Transition cfg name H s (.recover r now)
        { s with row := s.row.recover now, stale := Function.update s.stale r false }

section Inversion

variable {cfg : WorkerConfig} {name : ι → String} {H : Handler L X A} {s t : State ι L X}

theorem workStep_transition {w : ι} {input : WorkInput}
    (h : workStep cfg name H s w input = some t) : Transition cfg name H s (.work w input) t := by
  unfold workStep at h
  split at h
  · rename_i hw
    split at h <;> rename_i hrow <;> injection h with h <;> subst h
    · exact .readPending hw hrow
    · exact .readOther hw hrow
  · rename_i hw
    split at h <;> rename_i hrow <;> injection h with h <;> subst h
    · exact .claim hw hrow
    · exact .claimLost hw hrow
  · rename_i hw
    split at h <;> rename_i hrow <;> injection h with h <;> subst h
    · exact .reread hw hrow
    · exact .rereadOther hw hrow
  · rename_i hw
    injection h with h; subst h
    exact .lock hw
  · rename_i hw
    split at h
    · rename_i hh
      injection h with h; subst h
      exact .noHandler hw hh
    · split at h <;> injection h with h <;> subst h
      · exact .notStarted hw
      · exact .start hw
    · split at h
      · exact absurd h (by simp)
      · injection h with h; subst h
        exact .notStarted hw
    · exact absurd h (by simp)
  · rename_i hw
    split at h
    · rename_i how hp
      split at h <;> rename_i hd <;> injection h with h <;> subst h
      · -- only a normal return has no detail
        have hret : how = .returned := by
          cases how with
          | returned => rfl
          | raised e => exact absurd hd (by simp [Exit.detail])
          | died c => exact absurd hd (by simp [Exit.detail])
        exact .joined hw (hret ▸ hp)
      · exact .joinedFailed hw hp hd
    · exact absurd h (by simp)
  · rename_i hw
    injection h with h; subst h
    exact .killed hw (Or.inl rfl)
  · rename_i hw
    injection h with h; subst h
    exact .killed hw (Or.inr rfl)
  · rename_i hw
    injection h with h; subst h
    exact .writeFailed hw
  · rename_i hw
    split at h <;> rename_i hr <;> injection h with h <;> subst h
    · exact .retry hw hr.1 hr.2
    · refine .done hw ?_
      intro hf
      cases hb : shouldRetry s.row.retryCount cfg.maxRetry with
      | false => rfl
      | true => exact absurd ⟨hf, hb⟩ hr
  · rename_i hw
    injection h with h; subst h
    exact .countRetry hw
  · rename_i hw
    injection h with h; subst h
    exact .requeue hw
  · exact absurd h (by simp)

theorem handleStep_transition {n : Nat} {a : A} (h : handleStep H s n a = some t) :
    Transition cfg name H s (.handle n a) t := by
  unfold handleStep at h
  split at h
  · rename_i l hp
    split at h
    · rename_i how he
      injection h with h; subst h
      exact .exit hp he
    · rename_i he
      obtain ⟨m, hm, rfl⟩ := Option.map_eq_some_iff.mp h
      exact .handle hp he hm
  · exact absurd h (by simp)

/-- **Inversion.**  Every step of the protocol is one of the listed transitions. -/
theorem step_transition {e : Event ι A} (h : step cfg name H s e = some t) :
    Transition cfg name H s e t := by
  cases e with
  | deliver w =>
    simp only [step] at h
    split at h
    · rename_i hw; injection h with h; subst h; exact .deliver hw
    · exact absurd h (by simp)
  | poll w now =>
    simp only [step] at h
    split at h
    · rename_i hw; injection h with h; subst h; exact .poll hw.1 hw.2
    · exact absurd h (by simp)
  | work w input => exact workStep_transition h
  | handle n a => exact handleStep_transition h
  | die n code =>
    simp only [step] at h
    split at h
    · rename_i l hp; injection h with h; subst h; exact .die hp
    · exact absurd h (by simp)
  | crash w =>
    simp only [step] at h
    split at h
    · exact absurd h (by simp)
    · rename_i hw; injection h with h; subst h; exact .crash hw
  | recover r now =>
    simp only [step] at h
    split at h
    · rename_i hr; injection h with h; subst h; exact .recoverWrite hr
    · rename_i hr
      split at h
      · rename_i hrow; injection h with h; subst h
        exact .recoverRead (by simpa using hr) hrow
      · exact absurd h (by simp)

end Inversion

end Protocol

end FinancialRag.Tasks
