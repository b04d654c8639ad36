/-
  The Redis side of the task worker (`tasks/broker.py`, `_process_next_task` and
  `_claim_pending_message`), put around the protocol of ONE task row.

  What the stream holds about the task is a numbered list of entries.  The consumer group sees an
  entry as unread, pending (handed to some consumer, not acknowledged) or acknowledged, and the
  stream may drop it (`maxlen`).  Every Redis command may be refused, may take effect and lose its
  answer, or may take effect and be answered: `Reply` is what the client sees.

  A worker thread is `home`d in a worker process; the threads of one process share the deque
  `_pending_messages` of the entries it has reclaimed, and `_next_pending_reclaim`.

  On top of the control point of the row's protocol, a thread stands on the broker's side at a
  `BrokerPc`: it publishes AFTER the commit that makes the row PENDING and acknowledges LAST.

  crux: `broker_refines` — whatever Redis does, a run of the whole system is a run of the protocol of
  the row, in which deliveries came at arbitrary moments; so every safety result about the row holds of
  the system with its real message traffic.
-/
import FinancialRag.Tasks.Exclusion

set_option linter.unusedVariables false
set_option linter.unusedSectionVars false

namespace FinancialRag.Tasks

open Machine

/-! ## The state -/

/-- How the consumer group sees one entry of the stream. -/
inductive Delivery where
  | unread | pending | acked
  deriving DecidableEq, Repr

/-- How a Redis command ends for the client: refused (or Redis switched off), done but raised in the
    client, done and answered. -/
inductive Reply where
  | refused | lost | answered
  deriving DecidableEq, Repr

/-- Whether the command took effect. -/
def Reply.done : Reply → Bool
  | .refused => false
  | .lost | .answered => true

/-- Where a worker thread stands on the broker's side; `message` is the `message_id` argument of
    `_execute_task`, `attempt` numbers the PENDING commit that is about to be published. -/
inductive BrokerPc where
  | free
  | executing (message : Option Nat)
  | publishing (message : Option Nat) (attempt : Nat)
  | acking (message : Option Nat)
  deriving DecidableEq, Repr

def BrokerPc.message : BrokerPc → Option Nat
  | .free => none
  | .executing message | .publishing message _ | .acking message => message

structure BrokerState (ι κ L X : Type) where
  /-- the row and everything around it -/
  row : State ι L X
  /-- the entries are numbered in the order of `xadd` -/
  published : Nat
  /-- which PENDING commit an entry announces -/
  announces : Nat → Nat
  delivery : Nat → Delivery
  trimmed : Nat → Bool
  threads : ι → BrokerPc
  /-- `_pending_messages` of a process -/
  pendingMessages : κ → List Nat
  /-- `_next_pending_reclaim` of a process, on its own clock -/
  nextPendingReclaim : κ → Int
  /-- the request that created the task has come past its `publish_task` -/
  announced : Bool
  /-- ghost: the commits that made the row PENDING, its creation included -/
  attempts : Nat

inductive BrokerEvent (ι κ A : Type) where
  /-- the creating request calls `publish_task` -/
  | announce (reply : Reply)
  /-- XREADGROUP hands an unread entry to a thread -/
  | consume (w : ι) (n : Nat) (reply : Reply)
  /-- XPENDING + XCLAIM by a thread whose process has no reclaimed entry left -/
  | reclaim (w : ι) (now : Int) (claimed : List Nat)
  /-- the next reclaimed entry of the process is popped -/
  | popPending (w : ι)
  /-- `claim_task()` selects the row -/
  | poll (w : ι) (now : Int)
  /-- the next operation inside `_execute_task` -/
  | work (w : ι) (input : WorkInput)
  /-- `retry_task` -/
  | publish (w : ι) (reply : Reply)
  /-- `ack_task` -/
  | ack (w : ι) (reply : Reply)
  | handle (n : Nat) (input : A)
  | die (n : Nat) (exitcode : Int)
  | recover (r : ι) (now : Int)
  /-- a thread leaves `_execute_task` wherever it is -/
  | crash (w : ι)
  /-- a worker process is gone, its threads before it -/
  | exit (p : κ)
  /-- `maxlen` drops an entry -/
  | trim (n : Nat)

def pendingReclaimIntervalSeconds : Int := 15

section Broker

variable {ι κ L X A : Type} [DecidableEq ι] [DecidableEq κ]

/-- A freshly created row, before its creator publishes it. -/
def BrokerState.init (row : Task) (stores : X) : BrokerState ι κ L X where
  row := State.init row stores
  published := 0
  announces := fun _ => 0
  delivery := fun _ => .unread
  trimmed := fun _ => false
  threads := fun _ => .free
  pendingMessages := fun _ => []
  nextPendingReclaim := fun _ => 0
  announced := false
  attempts := 1

def BrokerState.move (s : BrokerState ι κ L X) (w : ι) (pc : BrokerPc) : BrokerState ι κ L X :=
  { s with threads := Function.update s.threads w pc }

/-- XADD: a new entry that announces this PENDING commit. -/
def BrokerState.xadd (s : BrokerState ι κ L X) (attempt : Nat) : BrokerState ι κ L X :=
  { s with
    published := s.published + 1
    announces := Function.update s.announces s.published attempt
    delivery := Function.update s.delivery s.published .unread
    trimmed := Function.update s.trimmed s.published false }

/-- A thread has a message and enters `_execute_task`. -/
def BrokerState.deliver (s : BrokerState ι κ L X) (w : ι) (n : Nat) : BrokerState ι κ L X :=
  { s.move w (.executing (some n)) with row := s.row.goto w .delivered }

/-- `publish_task`: its answer is ignored by both callers, its effect is not. -/
def BrokerState.publishTask (s : BrokerState ι κ L X) (attempt : Nat) (reply : Reply) :
    BrokerState ι κ L X :=
  if reply.done then s.xadd attempt else s

/-- XACK; without a message no command is sent. -/
def xack (delivery : Nat → Delivery) (message : Option Nat) (reply : Reply) : Nat → Delivery :=
  match message with
  | some n => if reply.done then Function.update delivery n .acked else delivery
  | none => delivery

/-- `ack_task`. -/
def BrokerState.ackTask (s : BrokerState ι κ L X) (message : Option Nat) (reply : Reply) :
    BrokerState ι κ L X :=
  { s with delivery := xack s.delivery message reply }

/-- Where the thread stands after an operation of `_execute_task` took it from one control point to
    another: the re-queue is published, every other way out acknowledges, except the `return` of the
    poll path whose task is no longer RUNNING. -/
def afterWork (before after : WorkerPc) (message : Option Nat) (attempt : Nat) : BrokerPc :=
  if after = .idle then
    match before with
    | .requeueing => .publishing message attempt
    | .polled => .free
    | _ => .acking message
  else .executing message

/-- The re-queue is the one operation of `_execute_task` that makes the row PENDING. -/
def attemptsAfter (before : WorkerPc) (attempts : Nat) : Nat :=
  if before = .requeueing then attempts + 1 else attempts

/-! ## The step function -/

variable (home : ι → κ) (cfg : WorkerConfig) (name : ι → String) (H : Handler L X A)

/-- One step of the system. -/
def brokerStep (s : BrokerState ι κ L X) : BrokerEvent ι κ A → Option (BrokerState ι κ L X)
  | .announce reply =>
    if s.announced = false then some { s.publishTask 1 reply with announced := true } else none
  | .consume w n reply =>
    if s.threads w = .free ∧ n < s.published ∧ s.delivery n = .unread ∧ s.trimmed n = false then
      match reply with
      | .refused => some s
      -- the group has handed the entry out, the thread does not know
      | .lost => some { s with delivery := Function.update s.delivery n .pending }
      | .answered =>
        some { s.deliver w n with delivery := Function.update s.delivery n .pending }
    else none
  | .reclaim w now claimed =>
    if s.threads w = .free ∧ s.pendingMessages (home w) = [] ∧
        s.nextPendingReclaim (home w) ≤ now ∧
        ∀ n ∈ claimed, n < s.published ∧ s.delivery n = .pending ∧ s.trimmed n = false then
      let next := Function.update s.nextPendingReclaim (home w)
        (now + pendingReclaimIntervalSeconds)
      match claimed with
      | [] => some { s with nextPendingReclaim := next }
      | n :: rest =>
        some { s.deliver w n with
          pendingMessages := Function.update s.pendingMessages (home w) rest
          nextPendingReclaim := next }
    else none
  | .popPending w =>
    match s.pendingMessages (home w) with
    | [] => none
    | n :: rest =>
      if s.threads w = .free then
        some { s.deliver w n with
          pendingMessages := Function.update s.pendingMessages (home w) rest }
      else none
  | .poll w now =>
    if s.threads w = .free ∧ s.row.row.status = .pending then
      some { s.move w (.executing none) with row := s.row.claimBy w now .polled }
    else none
  | .work w input =>
    match s.threads w with
    | .executing message =>
      (workStep cfg name H s.row w input).map fun row =>
        { s.move w (afterWork (s.row.workers w) (row.workers w) message (s.attempts + 1)) with
          row := row
          attempts := attemptsAfter (s.row.workers w) s.attempts }
    | _ => none
  | .publish w reply =>
    match s.threads w with
    | .publishing message attempt => some ((s.publishTask attempt reply).move w (.acking message))
    | _ => none
  | .ack w reply =>
    match s.threads w with
    | .acking message => some ((s.ackTask message reply).move w .free)
    | _ => none
  | .handle n a =>
    (step cfg name H s.row (.handle n a)).map fun row => { s with row := row }
  | .die n code =>
    (step cfg name H s.row (.die n code)).map fun row => { s with row := row }
  | .recover r now =>
    (step cfg name H s.row (.recover r now)).map fun row =>
      -- the read changes nothing in the row, the write makes it PENDING
      { s with
        row := row
        attempts := if s.row.stale r then s.attempts + 1 else s.attempts }
  | .crash w =>
    if s.threads w = .free then none
    else some { s.move w .free with row := s.row.goto w .idle }
  | .exit p =>
    some { s with pendingMessages := Function.update s.pendingMessages p [] }
  | .trim n =>
    if n < s.published then some { s with trimmed := Function.update s.trimmed n true } else none

/-! ## Inversion -/

/-- Every way a step of the system can go, with its guard. -/
inductive BrokerTransition (s : BrokerState ι κ L X) :
    BrokerEvent ι κ A → BrokerState ι κ L X → Prop
  | announce {reply} (ha : s.announced = false) :
      BrokerTransition s (.announce reply) { s.publishTask 1 reply with announced := true }
  | consumeRefused {w n} (hw : s.threads w = .free) : BrokerTransition s (.consume w n .refused) s
  | consumeLost {w n} (hw : s.threads w = .free) (hn : n < s.published) (hd : s.delivery n = .unread)
      (ht : s.trimmed n = false) :
      BrokerTransition s (.consume w n .lost)
        { s with delivery := Function.update s.delivery n .pending }
  | consume {w n} (hw : s.threads w = .free) (hn : n < s.published) (hd : s.delivery n = .unread)
      (ht : s.trimmed n = false) :
      BrokerTransition s (.consume w n .answered)
        { s.deliver w n with delivery := Function.update s.delivery n .pending }
  | reclaimNothing {w now next} (hw : s.threads w = .free) :
      BrokerTransition s (.reclaim w now []) { s with nextPendingReclaim := next }
  | reclaim {w now n rest next} (hw : s.threads w = .free)
      (hc : ∀ m ∈ n :: rest, m < s.published ∧ s.delivery m = .pending ∧ s.trimmed m = false) :
      BrokerTransition s (.reclaim w now (n :: rest))
        { s.deliver w n with
          pendingMessages := Function.update s.pendingMessages (home w) rest
          nextPendingReclaim := next }
  | popPending {w n rest} (hw : s.threads w = .free) (hp : s.pendingMessages (home w) = n :: rest) :
      BrokerTransition s (.popPending w)
        { s.deliver w n with pendingMessages := Function.update s.pendingMessages (home w) rest }
  | poll {w now} (hw : s.threads w = .free) (hrow : s.row.row.status = .pending) :
      BrokerTransition s (.poll w now)
        { s.move w (.executing none) with row := s.row.claimBy w now .polled }
  | work {w input message row} (hw : s.threads w = .executing message)
      (hrow : workStep cfg name H s.row w input = some row) :
      BrokerTransition s (.work w input)
        { s.move w (afterWork (s.row.workers w) (row.workers w) message (s.attempts + 1)) with
          row := row
          attempts := attemptsAfter (s.row.workers w) s.attempts }
  | publish {w reply message attempt} (hw : s.threads w = .publishing message attempt) :
      BrokerTransition s (.publish w reply) ((s.publishTask attempt reply).move w (.acking message))
  | ack {w reply message} (hw : s.threads w = .acking message) :
      BrokerTransition s (.ack w reply) ((s.ackTask message reply).move w .free)
  | handle {n a row} (hrow : step cfg name H s.row (.handle n a) = some row) :
      BrokerTransition s (.handle n a) { s with row := row }
  | die {n code row} (hrow : step cfg name H s.row (.die n code) = some row) :
      BrokerTransition s (.die n code) { s with row := row }
  | recoverRead {r now row} (hr : s.row.stale r = false)
      (hrow : step cfg name H s.row (.recover r now) = some row) :
      BrokerTransition s (.recover r now) { s with row := row }
  | recoverWrite {r now row} (hr : s.row.stale r = true)
      (hrow : step cfg name H s.row (.recover r now) = some row) :
      BrokerTransition s (.recover r now) { s with row := row, attempts := s.attempts + 1 }
  | crash {w} (hw : s.threads w ≠ .free) :
      BrokerTransition s (.crash w) { s.move w .free with row := s.row.goto w .idle }
  | exit {p} :
      BrokerTransition s (.exit p) { s with pendingMessages := Function.update s.pendingMessages p [] }
  | trim {n} (hn : n < s.published) :
      BrokerTransition s (.trim n) { s with trimmed := Function.update s.trimmed n true }

variable {home cfg name H} {s t : BrokerState ι κ L X}

/-- **Inversion.**  Every step of the system is one of the listed transitions. -/
theorem brokerStep_transition {e : BrokerEvent ι κ A} (h : brokerStep home cfg name H s e = some t) :
    BrokerTransition home cfg name H s e t := by
  cases e with
  | announce reply =>
    simp only [brokerStep] at h
    split at h
    · rename_i ha; injection h with h; subst h; exact .announce ha
    · exact absurd h (by simp)
  | consume w n reply =>
    simp only [brokerStep] at h
    split at h
    · rename_i hg
      obtain ⟨hw, hn, hd, ht⟩ := hg
      cases reply with
      | refused => injection h with h; subst h; exact .consumeRefused hw
      | lost => injection h with h; subst h; exact .consumeLost hw hn hd ht
      | answered => injection h with h; subst h; exact .consume hw hn hd ht
    · exact absurd h (by simp)
  | reclaim w now claimed =>
    simp only [brokerStep] at h
    split at h
    · rename_i hg
      obtain ⟨hw, _, _, hc⟩ := hg
      cases claimed with
      | nil => injection h with h; subst h; exact .reclaimNothing hw
      | cons n rest => injection h with h; subst h; exact .reclaim hw hc
    · exact absurd h (by simp)
  | popPending w =>
    simp only [brokerStep] at h
    split at h
    · exact absurd h (by simp)
    · rename_i n rest hp
      split at h
      · rename_i hw; injection h with h; subst h; exact .popPending hw hp
      · exact absurd h (by simp)
  | poll w now =>
    simp only [brokerStep] at h
    split at h
    · rename_i hg; injection h with h; subst h; exact .poll hg.1 hg.2
    · exact absurd h (by simp)
  | work w input =>
    simp only [brokerStep] at h
    split at h
    · rename_i message hw
      obtain ⟨row, hrow, rfl⟩ := Option.map_eq_some_iff.mp h
      exact .work hw hrow
    · exact absurd h (by simp)
  | publish w reply =>
    simp only [brokerStep] at h
    split at h
    · rename_i message attempt hw; injection h with h; subst h; exact .publish hw
    · exact absurd h (by simp)
  | ack w reply =>
    simp only [brokerStep] at h
    split at h
    · rename_i message hw; injection h with h; subst h; exact .ack hw
    · exact absurd h (by simp)
  | handle n a =>
    obtain ⟨row, hrow, rfl⟩ := Option.map_eq_some_iff.mp h
    exact .handle hrow
  | die n code =>
    obtain ⟨row, hrow, rfl⟩ := Option.map_eq_some_iff.mp h
    exact .die hrow
  | recover r now =>
    obtain ⟨row, hrow, rfl⟩ := Option.map_eq_some_iff.mp h
    by_cases hr : s.row.stale r = true
    · rw [if_pos hr]
      exact .recoverWrite hr hrow
    · rw [if_neg hr]
      exact .recoverRead (by simpa using hr) hrow
  | crash w =>
    simp only [brokerStep] at h
    split at h
    · exact absurd h (by simp)
    · rename_i hw; injection h with h; subst h; exact .crash hw
  | exit p =>
    obtain rfl := Option.some.inj h
    exact .exit
  | trim n =>
    simp only [brokerStep] at h
    split at h
    · rename_i hn; injection h with h; subst h; exact .trim hn
    · exact absurd h (by simp)

/-! ## What the row's protocol does to the control points -/

/-- An operation inside `_execute_task` moves its own thread only. -/
theorem workStep_workers {r r' : State ι L X} {w : ι} {input : WorkInput}
    (h : workStep cfg name H r w input = some r') :
    ∃ pc, r'.workers = Function.update r.workers w pc := by
  cases workStep_transition h with
  | @killed w n input detail hw hi =>
    refine ⟨.raised detail, ?_⟩
    show Function.update (r.kill n).workers w (.raised detail) = _
    rw [kill_workers]
  | _ => exact ⟨_, rfl⟩

/-- The handler's steps, its death and the recovery move no thread. -/
theorem handleStep_workers {r r' : State ι L X} {n : Nat} {a : A}
    (h : step cfg name H r (.handle n a) = some r') : r'.workers = r.workers := by
  cases step_transition h with
  | handle hp he hm => rfl
  | exit hp he => rfl

theorem dieStep_workers {r r' : State ι L X} {n : Nat} {code : Int}
    (h : step cfg name H r (.die n code) = some r') : r'.workers = r.workers := by
  cases step_transition h with
  | die hp => rfl

theorem recoverStep_workers {r r' : State ι L X} {q : ι} {now : Int}
    (h : step cfg name H r (.recover q now) = some r') : r'.workers = r.workers := by
  cases step_transition h with
  | recoverRead hr hrow => rfl
  | recoverWrite hr => rfl

/-! ## The refinement -/

/-- A thread is inside `_execute_task` on the one side exactly when it is on the other. -/
def Coupled (s : BrokerState ι κ L X) : Prop :=
  ∀ w, s.row.workers w ≠ .idle ↔ ∃ message, s.threads w = .executing message

theorem coupled_init (row : Task) (stores : X) :
    Coupled (BrokerState.init row stores : BrokerState ι κ L X) := by
  intro w
  simp [BrokerState.init, State.init]

theorem Coupled.idle (h : Coupled s) {w : ι} {pc : BrokerPc} (hw : s.threads w = pc)
    (hpc : ∀ message, pc ≠ .executing message) : s.row.workers w = .idle := by
  by_contra hne
  obtain ⟨message, hm⟩ := (h w).mp hne
  exact hpc message (hw.symm.trans hm)

/-- A thread that moves on both sides keeps them linked if its new control points are. -/
theorem coupled_update {ws : ι → WorkerPc} {ts : ι → BrokerPc} {w : ι} {pc : WorkerPc} {q : BrokerPc}
    (h : ∀ v, ws v ≠ .idle ↔ ∃ message, ts v = .executing message)
    (hq : pc ≠ .idle ↔ ∃ message, q = .executing message) (v : ι) :
    Function.update ws w pc v ≠ .idle ↔
      ∃ message, Function.update ts w q v = .executing message := by
  by_cases hv : v = w
  · subst hv
    rw [Function.update_self, Function.update_self]
    exact hq
  · rw [Function.update_of_ne hv, Function.update_of_ne hv]
    exact h v

/-- Standing still on the row's side is moving to where one is. -/
theorem coupled_move (h : Coupled s) {w : ι} {q : BrokerPc} (hw : s.row.workers w = .idle)
    (hq : ∀ message, q ≠ .executing message) (v : ι) :
    s.row.workers v ≠ .idle ↔ ∃ message, Function.update s.threads w q v = .executing message := by
  have hsame : s.row.workers = Function.update s.row.workers w .idle := by
    rw [← hw, Function.update_eq_self]
  rw [hsame]
  exact coupled_update h (by simpa using fun message hm => hq message hm) v

theorem afterWork_executing {before after : WorkerPc} {message : Option Nat} {attempt : Nat} :
    after ≠ .idle ↔ ∃ m, afterWork before after message attempt = .executing m := by
  unfold afterWork
  by_cases ha : after = .idle
  · rw [if_pos ha]
    constructor
    · intro hne
      exact absurd ha hne
    · rintro ⟨m, hm⟩
      cases before <;> exact absurd hm (by simp)
  · rw [if_neg ha]
    exact ⟨fun _ => ⟨message, rfl⟩, fun _ => ha⟩

@[simp] theorem publishTask_row (attempt : Nat) (reply : Reply) :
    (s.publishTask attempt reply).row = s.row := by
  unfold BrokerState.publishTask
  split <;> rfl

@[simp] theorem publishTask_threads (attempt : Nat) (reply : Reply) :
    (s.publishTask attempt reply).threads = s.threads := by
  unfold BrokerState.publishTask
  split <;> rfl

/-- **One step keeps both sides linked.** -/
theorem coupled_step {e : BrokerEvent ι κ A} (h : Coupled s) (ht : brokerStep home cfg name H s e = some t) :
    Coupled t := by
  -- entering `_execute_task`
  have henter : ∀ {w : ι} {pc : WorkerPc} {message : Option Nat}, pc ≠ .idle → ∀ v,
      Function.update s.row.workers w pc v ≠ .idle ↔
        ∃ m, Function.update s.threads w (.executing message) v = .executing m := by
    intro w pc message hpc
    exact coupled_update h ⟨fun _ => ⟨message, rfl⟩, fun _ => hpc⟩
  cases brokerStep_transition ht with
  | announce ha =>
    intro w
    show (s.publishTask 1 _).row.workers w ≠ .idle ↔ ∃ m, (s.publishTask 1 _).threads w = .executing m
    rw [publishTask_row, publishTask_threads]
    exact h w
  | consumeRefused hw => exact h
  | consumeLost hw hn hd ht => exact h
  | consume hw hn hd ht => exact henter (by simp)
  | reclaimNothing hw => exact h
  | reclaim hw hc => exact henter (by simp)
  | popPending hw hp => exact henter (by simp)
  | poll hw hrow => exact henter (by simp)
  | @work w input message row hw hrow =>
    intro v
    obtain ⟨pc, hpc⟩ := workStep_workers hrow
    show row.workers v ≠ .idle ↔ ∃ m, Function.update s.threads w _ v = .executing m
    rw [hpc, Function.update_self]
    exact coupled_update h afterWork_executing v
  | @publish w reply message attempt hw =>
    intro v
    show (s.publishTask attempt reply).row.workers v ≠ .idle ↔
      ∃ m, Function.update (s.publishTask attempt reply).threads w _ v = .executing m
    rw [publishTask_row, publishTask_threads]
    exact coupled_move h (h.idle hw (by simp)) (by simp) v
  | ack hw => exact coupled_move h (h.idle hw (by simp)) (by simp)
  | handle hrow =>
    intro v
    rw [handleStep_workers hrow]
    exact h v
  | die hrow =>
    intro v
    rw [dieStep_workers hrow]
    exact h v
  | recoverRead hr hrow =>
    intro v
    rw [recoverStep_workers hrow]
    exact h v
  | recoverWrite hr hrow =>
    intro v
    rw [recoverStep_workers hrow]
    exact h v
  | crash hw => exact coupled_update h (by simp)
  | exit => exact h
  | trim hn => exact h

/-- A side condition on the row's protocol, asked of the broker's events that take part in it. -/
def OnRow (P : State ι L X → Event ι A → Prop) (s : BrokerState ι κ L X) : BrokerEvent ι κ A → Prop
  | .consume w _ .answered | .reclaim w _ (_ :: _) | .popPending w => P s.row (.deliver w)
  | .poll w now => P s.row (.poll w now)
  | .work w input => P s.row (.work w input)
  | .handle n a => P s.row (.handle n a)
  | .die n code => P s.row (.die n code)
  | .recover r now => P s.row (.recover r now)
  | .crash w => P s.row (.crash w)
  | _ => True

/-- **One step of the system is one step of the row's protocol, or none.** -/
theorem brokerStep_simulates {P : State ι L X → Event ι A → Prop} {e : BrokerEvent ι κ A}
    (h : Coupled s) (hP : OnRow P s e) (ht : brokerStep home cfg name H s e = some t) :
    t.row = s.row ∨ ∃ e', P s.row e' ∧ step cfg name H s.row e' = some t.row := by
  -- a message reaches a thread that is in no task
  have hdeliver : ∀ {w : ι}, s.threads w = .free → P s.row (.deliver w) →
      ∃ e', P s.row e' ∧ step cfg name H s.row e' = some (s.row.goto w .delivered) := by
    intro w hw hPw
    have hidle : s.row.workers w = .idle := h.idle hw (by simp)
    exact ⟨.deliver w, hPw, by simp only [step, if_pos hidle]⟩
  cases brokerStep_transition ht with
  | announce ha => exact Or.inl (publishTask_row _ _)
  | consumeRefused hw => exact Or.inl rfl
  | consumeLost hw hn hd ht => exact Or.inl rfl
  | consume hw hn hd ht => exact Or.inr (hdeliver hw hP)
  | reclaimNothing hw => exact Or.inl rfl
  | reclaim hw hc => exact Or.inr (hdeliver hw hP)
  | popPending hw hp => exact Or.inr (hdeliver hw hP)
  | poll hw hrow =>
    have hidle : s.row.workers _ = .idle := h.idle hw (by simp)
    exact Or.inr ⟨_, hP, by simp only [step, if_pos (And.intro hidle hrow)]⟩
  | work hw hrow => exact Or.inr ⟨_, hP, hrow⟩
  | publish hw => exact Or.inl (publishTask_row _ _)
  | ack hw => exact Or.inl rfl
  | handle hrow => exact Or.inr ⟨_, hP, hrow⟩
  | die hrow => exact Or.inr ⟨_, hP, hrow⟩
  | recoverRead hr hrow => exact Or.inr ⟨_, hP, hrow⟩
  | recoverWrite hr hrow => exact Or.inr ⟨_, hP, hrow⟩
  | @crash w hw =>
    by_cases hidle : s.row.workers w = .idle
    · -- past `_execute_task`: the row's protocol has let the thread go already
      left
      show s.row.goto w .idle = s.row
      unfold State.goto
      rw [← hidle, Function.update_eq_self]
    · exact Or.inr ⟨_, hP, by simp only [step, if_neg hidle]⟩
  | exit => exact Or.inl rfl
  | trim hn => exact Or.inl rfl

/-- **The system refines the protocol of the row.**  Whatever the broker does (first deliveries,
    redeliveries, reclaimed batches, lost answers, refused commands, trimmed entries), every run of the
    system is, on the row, a run of the protocol, under the same side condition. -/
theorem broker_refines {P : State ι L X → Event ι A → Prop} {row : Task} {stores : X}
    {es : List (BrokerEvent ι κ A)}
    (hrun : Run (brokerStep home cfg name H) (OnRow P) (BrokerState.init row stores) es s) :
    ∃ es', Run (step cfg name H) P (State.init row stores) es' s.row :=
  hrun.simulateUnder (I := Coupled) (f := BrokerState.row) (fun _ _ _ h _ ht => coupled_step h ht)
    (fun _ _ _ h hP ht => brokerStep_simulates h hP ht) (coupled_init row stores)

end Broker

/-- The answers to XADD and to the first XREADGROUP are lost; thread 1 reclaims the entry and claims the
    task; 60 seconds later thread 0 reclaims the entry too, finds the row RUNNING and acknowledges. -/
def lostAnswers : List (BrokerEvent Nat Unit AgentInput) :=
  [.announce .lost, .consume 0 0 .lost, .reclaim 1 60 [0], .work 1 (.go 61), .work 1 (.go 62),
    .reclaim 0 122 [0], .work 0 (.go 123), .ack 0 .answered]

theorem lostAnswers_no_recovery (e : BrokerEvent Nat Unit AgentInput) (he : e ∈ lostAnswers)
    (s : BrokerState Nat Unit AgentPc Ledgers) : OnRow NoRecovery s e := by
  simp only [lostAnswers, List.mem_cons, List.not_mem_nil, or_false] at he
  rcases he with rfl | rfl | rfl | rfl | rfl | rfl | rfl | rfl <;> trivial

/-- On the row, that is a run of the protocol too. -/
theorem lostAnswers_refines :
    ∃ s : BrokerState Nat Unit AgentPc Ledgers,
      exec (brokerStep (fun _ => ()) .default toString agentTaskHandler)
        (BrokerState.init sampleAgentTask noLedgers) lostAnswers = some s ∧ s.delivery 0 = .acked ∧
      ∃ es', Run (step .default toString agentTaskHandler) NoRecovery
        (State.init sampleAgentTask noLedgers) es' s.row := by
  have hexec : ∃ s : BrokerState Nat Unit AgentPc Ledgers,
      exec (brokerStep (fun _ => ()) .default toString agentTaskHandler)
        (BrokerState.init sampleAgentTask noLedgers) lostAnswers = some s ∧ s.delivery 0 = .acked :=
    ⟨_, rfl, rfl⟩
  obtain ⟨s, hs, hacked⟩ := hexec
  exact ⟨s, hs, hacked, broker_refines (run_of_exec hs lostAnswers_no_recovery)⟩

end FinancialRag.Tasks
