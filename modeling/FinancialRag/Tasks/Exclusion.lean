/-
  MUTUAL EXCLUSION of the worker protocol, and safety against duplicated deliveries.

  The row's status is the lock: only `claim_task` makes it RUNNING, only from PENDING, and only the
  re-queue of the worker that holds the task (or a recovery) makes it PENDING again.  `ExclAt` is
  that reading as an inductive invariant over the four components it concerns — the status, the
  workers' control points, the processes, and the number of starts:
    * at most one worker is ACTIVE (between its claim and its last write);
    * a process that is alive belongs to the active worker, if there is one;
    * at most one process is alive;
    * while the row is PENDING nobody is active and nothing is alive;
    * a worker that holds a claim and has not dispatched it yet sees RUNNING.

  Recovery is admitted as long as its write finds the task AT REST (`RecoversAtRest`), so the same
  invariant serves the results that exclude recovery altogether and the ones that do not.

  The ghost history then yields the counting facts: `HistoryAt` says that a claim still held is the
  newest mark and that every start sits right on top of a claim by the same worker.
-/
import FinancialRag.Tasks.AgentTasks

set_option linter.unusedVariables false
set_option linter.unusedSectionVars false

namespace FinancialRag.Tasks

open Machine

/-- Between a successful claim and the worker's last write to the row. -/
def WorkerPc.active : WorkerPc → Bool
  | .idle | .delivered | .sawPending => false
  | _ => true

/-- Claimed, with the handler not dispatched yet. -/
def WorkerPc.holding : WorkerPc → Bool
  | .polled | .claimed | .locked => true
  | _ => false

theorem WorkerPc.active_of_holding {pc : WorkerPc} (h : pc.holding = true) : pc.active = true := by
  cases pc <;> simp_all [WorkerPc.holding, WorkerPc.active]

def Proc.isAlive {L : Type} : Proc L → Bool
  | .alive _ => true
  | _ => false

section Invariant

variable {ι L X A : Type} [DecidableEq ι]

/-! ## The invariant, on the components it is about -/

structure ExclAt (st : TaskStatus) (ws : ι → WorkerPc) (ps : Nat → Proc L) (starts : Nat) : Prop where
  oneWorker : ∀ w w', (ws w).active = true → (ws w').active = true → w = w'
  ownProc : ∀ w n, (ws w).active = true → (ps n).isAlive = true → ws w = .waiting n
  oneProc : ∀ n m, (ps n).isAlive = true → (ps m).isAlive = true → n = m
  pendingFree : st = .pending → (∀ w, (ws w).active = false) ∧ ∀ n, (ps n).isAlive = false
  holdingRunning : ∀ w, (ws w).holding = true → st = .running
  numbered : ∀ n, ps n ≠ .unstarted → n < starts

abbrev Excl (s : State ι L X) : Prop := ExclAt s.row.status s.workers s.procs s.starts

namespace ExclAt

variable {st st' : TaskStatus} {ws : ι → WorkerPc} {ps : Nat → Proc L} {k : Nat} {w : ι} {n : Nat}
  {q q₀ : WorkerPc} {p : Proc L}

/-- A worker may always leave, or stand before its claim. -/
theorem goto_inactive (h : ExclAt st ws ps k) (hq : q.active = false) :
    ExclAt st (Function.update ws w q) ps k := by
  have hact : ∀ v, (Function.update ws w q v).active = true →
      (ws v).active = true ∧ Function.update ws w q v = ws v := by
    intro v hv
    by_cases hvw : v = w
    · subst hvw
      rw [Function.update_self, hq] at hv
      exact absurd hv (by simp)
    · rw [Function.update_of_ne hvw] at hv ⊢
      exact ⟨hv, rfl⟩
  refine ⟨?_, ?_, h.oneProc, ?_, ?_, h.numbered⟩
  · intro v v' hv hv'
    exact h.oneWorker v v' (hact v hv).1 (hact v' hv').1
  · intro v n hv hn
    rw [(hact v hv).2]
    exact h.ownProc v n (hact v hv).1 hn
  · intro hst
    refine ⟨?_, (h.pendingFree hst).2⟩
    intro v
    exact update_of (p := fun q : WorkerPc => q.active = false) (fun _ => hq) ((h.pendingFree hst).1 v)
  · intro v hv
    have hv' := hact v (WorkerPc.active_of_holding hv)
    rw [hv'.2] at hv
    exact h.holdingRunning v hv

/-- The active worker moves on to `q`, which must fit the processes and the status. -/
theorem goto_active (h : ExclAt st ws ps k) (hw : (ws w).active = true)
    (hown : ∀ n, (ps n).isAlive = true → q = .waiting n) (hhold : q.holding = true → st = .running) :
    ExclAt st (Function.update ws w q) ps k := by
  have hact : ∀ v, (Function.update ws w q v).active = true → (ws v).active = true := by
    intro v hv
    exact of_update (p := fun q : WorkerPc => q.active = true) (fun _ => hw) hv
  refine ⟨?_, ?_, h.oneProc, ?_, ?_, h.numbered⟩
  · intro v v' hv hv'
    exact h.oneWorker v v' (hact v hv) (hact v' hv')
  · intro v n hv hn
    have hvw : v = w := h.oneWorker v w (hact v hv) hw
    subst hvw
    rw [Function.update_self]
    exact hown n hn
  · intro hst
    rw [(h.pendingFree hst).1 w] at hw
    exact absurd hw (by simp)
  · intro v hv
    by_cases hvw : v = w
    · subst hvw; rw [Function.update_self] at hv; exact hhold hv
    · rw [Function.update_of_ne hvw] at hv; exact h.holdingRunning v hv

/-- The claim: from a PENDING row (so nobody is active and nothing alive) to a single holder. -/
theorem claim (h : ExclAt .pending ws ps k) (hq : q.holding = true) :
    ExclAt .running (Function.update ws w q) ps k := by
  obtain ⟨hidle, hdead⟩ := h.pendingFree rfl
  have honly : ∀ v, (Function.update ws w q v).active = true → v = w := by
    intro v hv
    by_contra hvw
    rw [Function.update_of_ne hvw, hidle v] at hv
    exact absurd hv (by simp)
  refine ⟨?_, ?_, h.oneProc, fun hst => absurd hst (by simp), fun _ _ => rfl, h.numbered⟩
  · intro v v' hv hv'
    rw [honly v hv, honly v' hv']
  · intro v n _ hn
    rw [hdead n] at hn
    exact absurd hn (by simp)

/-- A commit that moves the status to SUCCESS or FAILED; nobody may be holding an undispatched
    claim then. -/
theorem setStatus (h : ExclAt st ws ps k) (hst' : st' ≠ .pending)
    (hhold : ∀ v, (ws v).holding = false) : ExclAt st' ws ps k :=
  { h with
    pendingFree := fun hst => absurd hst hst'
    holdingRunning := fun v hv => by rw [hhold v] at hv; exact absurd hv (by simp) }

/-- Back to PENDING, which needs the protocol to be at rest. -/
theorem release (h : ExclAt st ws ps k) (hidle : ∀ v, (ws v).active = false)
    (hdead : ∀ n, (ps n).isAlive = false) : ExclAt .pending ws ps k :=
  { h with
    pendingFree := fun _ => ⟨hidle, hdead⟩
    holdingRunning := fun v hv => by
      have := WorkerPc.active_of_holding hv
      rw [hidle v] at this
      exact absurd this (by simp) }

/-- The started process changes its control point or ends. -/
theorem setProc (h : ExclAt st ws ps k) (hn : (ps n).isAlive = true) (hp : p ≠ .unstarted) :
    ExclAt st ws (Function.update ps n p) k := by
  have hal : ∀ m, (Function.update ps n p m).isAlive = true → (ps m).isAlive = true := by
    intro m hm
    exact of_update (p := fun p : Proc L => p.isAlive = true) (fun _ => hn) hm
  refine ⟨h.oneWorker, fun v m hv hm => h.ownProc v m hv (hal m hm), ?_, ?_, h.holdingRunning, ?_⟩
  · intro m m' hm hm'
    exact h.oneProc m m' (hal m hm) (hal m' hm')
  · intro hst
    rw [(h.pendingFree hst).2 n] at hn
    exact absurd hn (by simp)
  · intro m hm
    have hstarted : ps n ≠ .unstarted := by
      intro hu
      rw [hu] at hn
      exact absurd hn (by simp [Proc.isAlive])
    exact h.numbered m (of_update (p := fun p : Proc L => p ≠ .unstarted) (fun _ => hstarted) hm)

/-- Nothing is alive while the active worker is not waiting for a process. -/
theorem dead_of_not_waiting (h : ExclAt st ws ps k) (hw : ws w = q₀) (ha : q₀.active = true)
    (hne : ∀ n, q₀ ≠ .waiting n) (n : Nat) : (ps n).isAlive = false := by
  subst hw
  cases hn : (ps n).isAlive with
  | false => rfl
  | true => exact absurd (h.ownProc w n ha hn) (hne n)

/-- Nobody holds an undispatched claim while another control point is active. -/
theorem not_holding (h : ExclAt st ws ps k) (hw : (ws w).active = true)
    (hh : (ws w).holding = false) (v : ι) : (ws v).holding = false := by
  cases hv : (ws v).holding with
  | false => rfl
  | true =>
    have := h.oneWorker v w (WorkerPc.active_of_holding hv) hw
    subst this
    rw [hh] at hv
    exact absurd hv (by simp)

/-- Nobody holds an undispatched claim while a process is alive. -/
theorem not_holding_of_alive (h : ExclAt st ws ps k) (hn : (ps n).isAlive = true) (v : ι) :
    (ws v).holding = false := by
  cases hv : (ws v).holding with
  | false => rfl
  | true =>
    have := h.ownProc v n (WorkerPc.active_of_holding hv) hn
    rw [this] at hv
    exact absurd hv (by simp [WorkerPc.holding])

/-- The same when the worker does wait, but for a process that has ended. -/
theorem dead_of_waiting (h : ExclAt st ws ps k) (hw : ws w = .waiting n)
    (hn : (ps n).isAlive = false) (m : Nat) : (ps m).isAlive = false := by
  cases hm : (ps m).isAlive with
  | false => rfl
  | true =>
    have hwm := h.ownProc w m (by rw [hw]; rfl) hm
    rw [hw] at hwm
    injection hwm with hnm
    rw [← hnm, hn] at hm
    exact absurd hm (by simp)

/-- With nothing alive, the active worker may move to any control point that fits the status. -/
theorem goto_dead (h : ExclAt st ws ps k) (hw : ws w = q₀) (ha : q₀.active = true)
    (hdead : ∀ n, (ps n).isAlive = false) (hhold : q.holding = true → st = .running) :
    ExclAt st (Function.update ws w q) ps k :=
  h.goto_active (hw ▸ ha) (fun n hn => by rw [hdead n] at hn; exact absurd hn (by simp)) hhold

/-- With nothing alive, the active worker may move on without its claim. -/
theorem goto_unheld (h : ExclAt st ws ps k) (hw : ws w = q₀) (ha : q₀.active = true)
    (hdead : ∀ n, (ps n).isAlive = false) (hq : q.holding = false) :
    ExclAt st (Function.update ws w q) ps k := by
  refine h.goto_dead hw ha hdead ?_
  intro hc
  rw [hq] at hc
  exact absurd hc (by simp)

/-- The worker's own FAILED write. -/
theorem goto_failed (h : ExclAt st ws ps k) (hw : ws w = q₀) (ha : q₀.active = true)
    (hdead : ∀ n, (ps n).isAlive = false) :
    ExclAt .failed (Function.update ws w .settled) ps k := by
  have h' := h.goto_unheld (q := .settled) hw ha hdead rfl
  refine h'.setStatus (by simp) ?_
  exact h'.not_holding (w := w) (by rw [Function.update_self]; rfl) (by rw [Function.update_self]; rfl)

/-- The active worker starts process number `k`. -/
theorem start (h : ExclAt st ws ps k) (l : L) (hw : (ws w).active = true)
    (hdead : ∀ n, (ps n).isAlive = false) :
    ExclAt st (Function.update ws w (.waiting k)) (Function.update ps k (.alive l)) (k + 1) := by
  have honly : ∀ m, (Function.update ps k (.alive l) m).isAlive = true → m = k := by
    intro m hm
    by_contra hmk
    rw [Function.update_of_ne hmk, hdead m] at hm
    exact absurd hm (by simp)
  have hwk : ∀ v, (Function.update ws w (.waiting k) v).active = true → v = w := by
    intro v hv
    by_contra hvw
    rw [Function.update_of_ne hvw] at hv
    exact hvw (h.oneWorker v w hv hw)
  refine ⟨?_, ?_, ?_, ?_, ?_, ?_⟩
  · intro v v' hv hv'; rw [hwk v hv, hwk v' hv']
  · intro v m hv hm
    rw [hwk v hv, honly m hm, Function.update_self]
  · intro m m' hm hm'; rw [honly m hm, honly m' hm']
  · intro hst
    rw [(h.pendingFree hst).1 w] at hw
    exact absurd hw (by simp)
  · intro v hv
    have hvw : v = w := hwk v (WorkerPc.active_of_holding hv)
    subst hvw
    rw [Function.update_self] at hv
    exact absurd hv (by simp [WorkerPc.holding])
  · intro m hm
    by_cases hmk : m = k
    · omega
    · rw [Function.update_of_ne hmk] at hm
      have := h.numbered m hm
      omega

end ExclAt

/-! ## Preservation -/

/-- No attempt is under way: no worker is active and no process is alive. -/
structure AtRest (s : State ι L X) : Prop where
  idle : ∀ w, (s.workers w).active = false
  dead : ∀ n, (s.procs n).isAlive = false

/-- The recovery write, when it comes, finds the task at rest. -/
def RecoversAtRest (s : State ι L X) : Event ι A → Prop
  | .recover r _ => s.stale r = true → AtRest s
  | _ => True

variable {cfg : WorkerConfig} {name : ι → String} {H : Handler L X A}

theorem excl_init (row : Task) (stores : X) : Excl (State.init row stores : State ι L X) := by
  refine ⟨?_, ?_, ?_, ?_, ?_, ?_⟩ <;> intros <;> simp_all [State.init, WorkerPc.active, WorkerPc.holding,
    Proc.isAlive]

theorem kill_not_alive (s : State ι L X) (n : Nat) : ((s.kill n).procs n).isAlive = false := by
  unfold State.kill
  split
  · simp [State.setProc, Proc.isAlive]
  · rename_i hna
    cases hp : s.procs n with
    | alive l => exact absurd hp (hna l)
    | unstarted => rfl
    | exited how => rfl

theorem excl_kill {s : State ι L X} {n : Nat} (h : Excl s) :
    ExclAt s.row.status s.workers (s.kill n).procs s.starts := by
  unfold State.kill
  split
  · rename_i l hp
    exact h.setProc (by rw [hp]; rfl) (by simp)
  · exact h

@[simp] theorem kill_row (s : State ι L X) (n : Nat) : (s.kill n).row = s.row := by
  unfold State.kill; split <;> rfl

@[simp] theorem kill_workers (s : State ι L X) (n : Nat) : (s.kill n).workers = s.workers := by
  unfold State.kill; split <;> rfl

@[simp] theorem kill_history (s : State ι L X) (n : Nat) : (s.kill n).history = s.history := by
  unfold State.kill; split <;> rfl

@[simp] theorem kill_starts (s : State ι L X) (n : Nat) : (s.kill n).starts = s.starts := by
  unfold State.kill; split <;> rfl

/-- **One step preserves mutual exclusion.** -/
theorem excl_step {s t : State ι L X} {e : Event ι A} (h : Excl s) (hP : RecoversAtRest s e)
    (ht : step cfg name H s e = some t) : Excl t := by
  cases step_transition ht with
  | deliver hw => exact h.goto_inactive rfl
  | poll hw hrow =>
    have h' : ExclAt .pending s.workers s.procs s.starts := hrow ▸ h
    exact h'.claim rfl
  | readPending hw hrow => exact h.goto_inactive rfl
  | readOther hw hrow => exact h.goto_inactive rfl
  | claim hw hrow =>
    have h' : ExclAt .pending s.workers s.procs s.starts := hrow ▸ h
    exact h'.claim rfl
  | claimLost hw hrow => exact h.goto_inactive rfl
  | reread hw hrow =>
    exact h.goto_dead hw rfl (h.dead_of_not_waiting hw rfl (by simp)) (fun _ => hrow)
  | rereadOther hw hrow => exact h.goto_inactive rfl
  | lock hw =>
    exact h.goto_dead hw rfl (h.dead_of_not_waiting hw rfl (by simp))
      (fun _ => h.holdingRunning _ (by rw [hw]; rfl))
  | noHandler hw hh => exact h.goto_failed hw rfl (h.dead_of_not_waiting hw rfl (by simp))
  | notStarted hw =>
    exact h.goto_unheld hw rfl (h.dead_of_not_waiting hw rfl (by simp)) rfl
  | start hw => exact h.start _ (by rw [hw]; rfl) (h.dead_of_not_waiting hw rfl (by simp))
  | joined hw hp =>
    exact h.goto_unheld hw rfl (h.dead_of_waiting hw (by rw [hp]; rfl)) rfl
  | joinedFailed hw hp hd =>
    exact h.goto_unheld hw rfl (h.dead_of_waiting hw (by rw [hp]; rfl)) rfl
  | @killed w n input detail hw hi =>
    have hk := excl_kill (n := n) h
    have hdead := hk.dead_of_waiting hw (kill_not_alive s n)
    have hk' := hk.goto_unheld (q := .raised detail) hw rfl hdead rfl
    show ExclAt (s.kill n).row.status (Function.update (s.kill n).workers w (.raised detail)) _
      (s.kill n).starts
    rw [kill_row, kill_workers, kill_starts]
    exact hk'
  | writeFailed hw => exact h.goto_failed hw rfl (h.dead_of_not_waiting hw rfl (by simp))
  | retry hw hrow hr =>
    exact h.goto_unheld hw rfl (h.dead_of_not_waiting hw rfl (by simp)) rfl
  | done hw hr => exact h.goto_inactive rfl
  | countRetry hw =>
    exact h.goto_unheld hw rfl (h.dead_of_not_waiting hw rfl (by simp)) rfl
  | @requeue w now hw =>
    -- the only active worker leaves in the very commit that makes the row PENDING
    refine (h.goto_inactive (w := w) (q := .idle) rfl).release ?_
      (h.dead_of_not_waiting hw rfl (by simp))
    intro v
    by_cases hvw : v = w
    · subst hvw; rw [Function.update_self]; rfl
    · rw [Function.update_of_ne hvw]
      cases hv : (s.workers v).active with
      | false => rfl
      | true => exact absurd (h.oneWorker v w hv (by rw [hw]; rfl)) hvw
  | @handle n a l m hp he hm =>
    have hal : (s.procs n).isAlive = true := by rw [hp]; rfl
    have h' := h.setProc (p := .alive m.next) hal (by simp)
    rcases applyCommit_status s.row m.commit with hs | ⟨_, _, _, hs⟩ | ⟨_, _, _, hs⟩
    · show ExclAt (applyCommit s.row m.commit).status _ _ _
      rw [hs]; exact h'
    · exact h'.setStatus (by rw [hs]; simp) (h.not_holding_of_alive hal)
    · exact h'.setStatus (by rw [hs]; simp) (h.not_holding_of_alive hal)
  | exit hp he => exact h.setProc (by rw [hp]; rfl) (by simp)
  | die hp => exact h.setProc (by rw [hp]; rfl) (by simp)
  | crash hw => exact h.goto_inactive rfl
  | recoverRead hr hrow => exact h
  | recoverWrite hr =>
    have hrest := hP hr
    exact h.release hrest.idle hrest.dead

/-- **Whoever is alive is alone.**  When a step ends with process `n` alive, either it has not touched
    the row, the other stores or that process (and has made no worker active); or it is a step OF that
    process; or it has started it. -/
theorem live_step {s t : State ι L X} {e : Event ι A} (h : Excl s) (hP : RecoversAtRest s e)
    (ht : step cfg name H s e = some t) {n : Nat} {l : L} (hl : t.procs n = .alive l) :
    (s.procs n = .alive l ∧ t.row = s.row ∧ t.stores = s.stores ∧
      ∀ v, (t.workers v).active = true → (s.workers v).active = true) ∨
    (∃ a l₀ m, e = .handle n a ∧ s.procs n = .alive l₀ ∧ H.exit l₀ = none ∧
      H.step l₀ a s.row s.stores = some m ∧ l = m.next ∧
      t.row = applyCommit s.row m.commit ∧ t.stores = m.stores ∧ t.workers = s.workers) ∨
    (n = s.starts ∧ l = H.entry ∧ t.row = s.row ∧ t.stores = s.stores ∧
      ∃ w, s.workers w = .locked) := by
  -- a worker that is active and not waiting excludes every live process
  have hnone : ∀ {w q}, s.workers w = q → q.active = true → (∀ k, q ≠ .waiting k) →
      s.procs n ≠ .alive l := by
    intro w q hw ha hq hn
    have := h.dead_of_not_waiting hw ha hq n
    rw [hn] at this
    exact absurd this (by simp [Proc.isAlive])
  have hpend : s.row.status = .pending → s.procs n ≠ .alive l := by
    intro hrow hn
    have := (h.pendingFree hrow).2 n
    rw [hn] at this
    exact absurd this (by simp [Proc.isAlive])
  have hquiet : ∀ {w : ι} {q : WorkerPc}, (q.active = true → (s.workers w).active = true) →
      ∀ v, (Function.update s.workers w q v).active = true → (s.workers v).active = true := by
    intro w q hq v hv
    exact of_update (p := fun q : WorkerPc => q.active = true) hq hv
  have hleft : ∀ {w : ι} {q : WorkerPc}, q.active = false →
      ∀ v, (Function.update s.workers w q v).active = true → (s.workers v).active = true := by
    intro w q hq
    refine hquiet ?_
    intro hc
    rw [hq] at hc
    exact absurd hc (by simp)
  cases step_transition ht with
  | poll hw hrow => exact absurd hl (hpend hrow)
  | claim hw hrow => exact absurd hl (hpend hrow)
  | lock hw => exact absurd hl (hnone hw rfl (by simp))
  | noHandler hw hh => exact absurd hl (hnone hw rfl (by simp))
  | writeFailed hw => exact absurd hl (hnone hw rfl (by simp))
  | countRetry hw => exact absurd hl (hnone hw rfl (by simp))
  | requeue hw => exact absurd hl (hnone hw rfl (by simp))
  | recoverWrite hr =>
    have := (hP hr).dead n
    have hn : s.procs n = .alive l := hl
    rw [hn] at this
    exact absurd this (by simp [Proc.isAlive])
  | @start w now hw =>
    rcases update_cases hl with ⟨hn, hentry⟩ | ⟨_, hn⟩
    · injection hentry with hentry
      exact Or.inr (Or.inr ⟨hn, hentry.symm, rfl, rfl, w, hw⟩)
    · exact absurd hn (hnone hw rfl (by simp))
  | @handle k a l₀ m hp he hm =>
    rcases update_cases hl with ⟨hn, hnext⟩ | ⟨_, hn⟩
    · injection hnext with hnext
      subst hn
      exact Or.inr (Or.inl ⟨a, l₀, m, rfl, hp, he, hm, hnext.symm, rfl, rfl, rfl⟩)
    · -- only one process is alive, so it is the one that has moved
      have hnk : n = k := h.oneProc n k (by rw [hn]; rfl) (by rw [hp]; rfl)
      subst hnk
      have hl' : Function.update s.procs n (.alive m.next) n = .alive l := hl
      rw [Function.update_self] at hl'
      injection hl' with hnext
      exact Or.inr (Or.inl ⟨a, l₀, m, rfl, hp, he, hm, hnext.symm, rfl, rfl, rfl⟩)
  | exit hp he =>
    rcases update_cases hl with ⟨_, hc⟩ | ⟨_, hn⟩
    · exact absurd hc (by simp)
    · exact Or.inl ⟨hn, rfl, rfl, fun _ hv => hv⟩
  | die hp =>
    rcases update_cases hl with ⟨_, hc⟩ | ⟨_, hn⟩
    · exact absurd hc (by simp)
    · exact Or.inl ⟨hn, rfl, rfl, fun _ hv => hv⟩
  | @killed w k input detail hw hi =>
    left
    unfold State.goto State.kill at hl ⊢
    split at hl
    · rcases update_cases hl with ⟨_, hc⟩ | ⟨_, hn⟩
      · exact absurd hc (by simp)
      · exact ⟨hn, rfl, rfl, hquiet fun _ => by rw [hw]; rfl⟩
    · exact ⟨hl, rfl, rfl, hquiet fun _ => by rw [hw]; rfl⟩
  | deliver hw => exact Or.inl ⟨hl, rfl, rfl, hleft rfl⟩
  | readPending hw hrow => exact Or.inl ⟨hl, rfl, rfl, hleft rfl⟩
  | readOther hw hrow => exact Or.inl ⟨hl, rfl, rfl, hleft rfl⟩
  | claimLost hw hrow => exact Or.inl ⟨hl, rfl, rfl, hleft rfl⟩
  | reread hw hrow => exact Or.inl ⟨hl, rfl, rfl, hquiet fun _ => by rw [hw]; rfl⟩
  | rereadOther hw hrow => exact Or.inl ⟨hl, rfl, rfl, hleft rfl⟩
  | notStarted hw => exact Or.inl ⟨hl, rfl, rfl, hquiet fun _ => by rw [hw]; rfl⟩
  | joined hw hp => exact Or.inl ⟨hl, rfl, rfl, hquiet fun _ => by rw [hw]; rfl⟩
  | joinedFailed hw hp hd => exact Or.inl ⟨hl, rfl, rfl, hquiet fun _ => by rw [hw]; rfl⟩
  | retry hw hrow hr => exact Or.inl ⟨hl, rfl, rfl, hquiet fun _ => by rw [hw]; rfl⟩
  | done hw hr => exact Or.inl ⟨hl, rfl, rfl, hleft rfl⟩
  | crash hw => exact Or.inl ⟨hl, rfl, rfl, hleft rfl⟩
  | recoverRead hr hrow => exact Or.inl ⟨hl, rfl, rfl, fun _ hv => hv⟩

/-- Only a step of a live process writes the other stores. -/
theorem stores_step {s t : State ι L X} {e : Event ι A} (ht : step cfg name H s e = some t) :
    t.stores = s.stores ∨ ∃ n a l m, e = .handle n a ∧ s.procs n = .alive l ∧
      H.step l a s.row s.stores = some m ∧ t.procs n = .alive m.next ∧ t.stores = m.stores := by
  cases step_transition ht with
  | @handle n a l m hp he hm =>
    exact Or.inr ⟨n, a, l, m, rfl, hp, hm, Function.update_self _ _ _, rfl⟩
  | killed hw hi => left; unfold State.goto State.kill; split <;> rfl
  | _ => exact Or.inl rfl

/-! ## The history: a start sits on its own claim -/

def Mark.isStart : Mark ι → Bool
  | .start _ => true
  | .claim _ => false

/-- Every start directly follows a claim by the same worker (newest mark first). -/
def Bracketed : List (Mark ι) → Prop
  | [] => True
  | .claim _ :: older => Bracketed older
  | .start w :: older => older.head? = some (.claim w) ∧ Bracketed older

/-- The number of claims whose worker reaches the handler: a claim mark directly followed by a start
    mark of the same worker. -/
def reached : List (Mark ι) → Nat
  | [] => 0
  | [_] => 0
  | newer :: older :: rest =>
    (match newer, older with
      | .start w, .claim v => if w = v then 1 else 0
      | _, _ => 0) + reached (older :: rest)

theorem bracketed_start : ∀ (newer : List (Mark ι)) (w : ι) (older : List (Mark ι)),
    Bracketed (newer ++ .start w :: older) → ∃ rest, older = .claim w :: rest
  | [], w, older, h => by
      cases older with
      | nil => exact absurd h.1 (by simp)
      | cons m rest => exact ⟨rest, by rw [Option.some.inj h.1]⟩
  | .claim _ :: newer, w, older, h => bracketed_start newer w older h
  | .start _ :: newer, w, older, h => bracketed_start newer w older h.2

/-- In a bracketed history the starts are exactly the claims that reach their handler. -/
theorem countP_start_eq_reached : ∀ h : List (Mark ι), Bracketed h →
    h.countP Mark.isStart = reached h
  | [], _ => rfl
  | [.claim w], _ => rfl
  | [.start w], hb => absurd hb.1 (by simp)
  | .claim w :: m :: rest, hb => by
      have ih := countP_start_eq_reached (m :: rest) hb
      rw [List.countP_cons_of_neg (by simp [Mark.isStart]), ih]
      show _ = 0 + reached (m :: rest)
      omega
  | .start w :: m :: rest, hb => by
      have ih := countP_start_eq_reached (m :: rest) hb.2
      have hm : m = .claim w := Option.some.inj hb.1
      subst hm
      rw [List.countP_cons_of_pos (by simp [Mark.isStart]), ih, reached]
      simp only [if_true]
      omega

/-- What the ghost marks say about the protocol. -/
structure HistoryAt (ws : ι → WorkerPc) (marks : List (Mark ι)) (starts : Nat) : Prop where
  held : ∀ w, (ws w).holding = true → marks.head? = some (.claim w)
  bracketed : Bracketed marks
  counted : starts = marks.countP Mark.isStart

abbrev History (s : State ι L X) : Prop := HistoryAt s.workers s.history s.starts

/-- A move that claims nothing keeps the reading of the marks. -/
theorem HistoryAt.goto {ws : ι → WorkerPc} {marks : List (Mark ι)} {k : Nat} {w : ι} {q : WorkerPc}
    (h : HistoryAt ws marks k) (hq : q.holding = true → (ws w).holding = true) :
    HistoryAt (Function.update ws w q) marks k := by
  refine ⟨?_, h.bracketed, h.counted⟩
  intro v hv
  exact h.held v (of_update (p := fun q : WorkerPc => q.holding = true) hq hv)

theorem HistoryAt.goto_unheld {ws : ι → WorkerPc} {marks : List (Mark ι)} {k : Nat} {w : ι}
    {q : WorkerPc} (h : HistoryAt ws marks k) (hq : q.holding = false) :
    HistoryAt (Function.update ws w q) marks k := by
  refine h.goto ?_
  intro hc
  rw [hq] at hc
  exact absurd hc (by simp)

/-- A claim of a PENDING row puts its mark on top; nobody else holds anything. -/
theorem HistoryAt.claim {ws : ι → WorkerPc} {ps : Nat → Proc L} {marks : List (Mark ι)} {k : Nat}
    {w : ι} {q : WorkerPc} (h : HistoryAt ws marks k) (hx : ExclAt .pending ws ps k) :
    HistoryAt (Function.update ws w q) (.claim w :: marks) k := by
  refine ⟨?_, h.bracketed, ?_⟩
  · intro v hv
    by_cases hvw : v = w
    · rw [hvw]; rfl
    · rw [Function.update_of_ne hvw] at hv
      have := WorkerPc.active_of_holding hv
      rw [(hx.pendingFree rfl).1 v] at this
      exact absurd this (by simp)
  · rw [List.countP_cons_of_neg (by simp [Mark.isStart])]
    exact h.counted

theorem history_init (row : Task) (stores : X) : History (State.init row stores : State ι L X) := by
  refine ⟨?_, trivial, rfl⟩
  intro w hw
  exact absurd hw (by simp [State.init, WorkerPc.holding])

/-- **One step keeps the history bracketed.** -/
theorem history_step {s t : State ι L X} {e : Event ι A} (hx : Excl s) (h : History s)
    (ht : step cfg name H s e = some t) : History t := by
  cases step_transition ht with
  | deliver hw => exact h.goto_unheld rfl
  | poll hw hrow =>
    have hx' : ExclAt .pending s.workers s.procs s.starts := hrow ▸ hx
    exact h.claim hx'
  | readPending hw hrow => exact h.goto_unheld rfl
  | readOther hw hrow => exact h.goto_unheld rfl
  | claim hw hrow =>
    have hx' : ExclAt .pending s.workers s.procs s.starts := hrow ▸ hx
    exact h.claim hx'
  | claimLost hw hrow => exact h.goto_unheld rfl
  | reread hw hrow => exact h.goto (fun _ => by rw [hw]; rfl)
  | rereadOther hw hrow => exact h.goto_unheld rfl
  | lock hw => exact h.goto (fun _ => by rw [hw]; rfl)
  | noHandler hw hh => exact h.goto_unheld rfl
  | notStarted hw => exact h.goto_unheld rfl
  | @start w now hw =>
    -- the claim being dispatched is the newest mark, because its holder still holds it
    have hheld : s.history.head? = some (.claim w) := h.held w (by rw [hw]; rfl)
    refine ⟨?_, ⟨hheld, h.bracketed⟩, ?_⟩
    · intro v hv
      have hv' : (Function.update s.workers w (.waiting s.starts) v).holding = true := hv
      have hx' := hx.start H.entry (by rw [hw]; rfl) (hx.dead_of_not_waiting hw rfl (by simp))
      have hvf := hx'.not_holding (w := w) (by rw [Function.update_self]; rfl)
        (by rw [Function.update_self]; rfl) v
      rw [hvf] at hv'
      exact absurd hv' (by simp)
    · show s.starts + 1 = (Mark.start w :: s.history).countP Mark.isStart
      rw [List.countP_cons_of_pos (by simp [Mark.isStart]), h.counted]
  | joined hw hp => exact h.goto_unheld rfl
  | joinedFailed hw hp hd => exact h.goto_unheld rfl
  | @killed w n input detail hw hi =>
    have h' := h.goto_unheld (w := w) (q := .raised detail) rfl
    show HistoryAt (Function.update (s.kill n).workers w (.raised detail)) (s.kill n).history
      (s.kill n).starts
    rw [kill_workers, kill_history, kill_starts]
    exact h'
  | writeFailed hw => exact h.goto_unheld rfl
  | retry hw hrow hr => exact h.goto_unheld rfl
  | done hw hr => exact h.goto_unheld rfl
  | countRetry hw => exact h.goto_unheld rfl
  | requeue hw => exact h.goto_unheld rfl
  | handle hp he hm => exact h
  | exit hp he => exact h
  | die hp => exact h
  | crash hw => exact h.goto_unheld rfl
  | recoverRead hr hrow => exact h
  | recoverWrite hr => exact h

/-! ## Claims are PENDING → RUNNING transitions, and nothing else is -/

/-- A step adds a claim mark exactly when it takes the row from PENDING to RUNNING. -/
theorem claim_mark_iff {s t : State ι L X} {e : Event ι A} (ht : step cfg name H s e = some t) :
    (∃ w, t.history = .claim w :: s.history) ↔
      s.row.status = .pending ∧ t.row.status = .running := by
  -- a step that is no claim leaves the history, or puts a start on it, and never makes RUNNING
  have hkeep : ∀ {r : Task} {marks : List (Mark ι)}, (∀ w, marks ≠ .claim w :: s.history) →
      (s.row.status = .pending → r.status ≠ .running) →
      ((∃ w, marks = .claim w :: s.history) ↔ s.row.status = .pending ∧ r.status = .running) := by
    intro r marks hm hr
    constructor
    · rintro ⟨w, hw⟩; exact absurd hw (hm w)
    · rintro ⟨hp, hrun⟩; exact absurd hrun (hr hp)
  have hsame : ∀ w, s.history ≠ .claim w :: s.history := fun w => (List.cons_ne_self _ _).symm
  have hrow : s.row.status = .pending → s.row.status ≠ .running := by
    intro hp; rw [hp]; simp
  cases step_transition ht with
  | poll hw hrow => exact ⟨fun _ => ⟨hrow, rfl⟩, fun _ => ⟨_, rfl⟩⟩
  | claim hw hrow => exact ⟨fun _ => ⟨hrow, rfl⟩, fun _ => ⟨_, rfl⟩⟩
  | noHandler hw hh => exact hkeep hsame (fun _ => by simp [State.writeBy, failedUpdate])
  | writeFailed hw => exact hkeep hsame (fun _ => by simp [State.writeBy, failedUpdate])
  | requeue hw => exact hkeep hsame (fun _ => by simp [State.writeBy, requeueUpdate])
  | recoverWrite hr => exact hkeep hsame (fun _ => by simp)
  | start hw => exact hkeep (by simp [State.startBy]) hrow
  | @handle n a l m hp he hm =>
    refine hkeep hsame ?_
    intro hpend
    rcases applyCommit_status s.row m.commit with hs | ⟨_, _, _, hs⟩ | ⟨_, _, _, hs⟩
    · show (applyCommit s.row m.commit).status ≠ .running
      rw [hs]; exact hrow hpend
    · show (applyCommit s.row m.commit).status ≠ .running
      rw [hs]; simp
    · show (applyCommit s.row m.commit).status ≠ .running
      rw [hs]; simp
  | @killed w n input detail hw hi =>
    have h' := hkeep (r := s.row) hsame hrow
    show (∃ w', (s.kill n).history = .claim w' :: s.history) ↔
      s.row.status = .pending ∧ (s.kill n).row.status = .running
    rw [kill_history, kill_row]
    exact h'
  | deliver _ => exact hkeep hsame hrow
  | readPending _ _ => exact hkeep hsame hrow
  | readOther _ _ => exact hkeep hsame hrow
  | claimLost _ _ => exact hkeep hsame hrow
  | reread _ _ => exact hkeep hsame hrow
  | rereadOther _ _ => exact hkeep hsame hrow
  | lock _ => exact hkeep hsame hrow
  | notStarted _ => exact hkeep hsame hrow
  | joined _ _ => exact hkeep hsame hrow
  | joinedFailed _ _ _ => exact hkeep hsame hrow
  | retry _ _ _ => exact hkeep hsame hrow
  | done _ _ => exact hkeep hsame hrow
  | countRetry _ => exact hkeep hsame hrow
  | exit _ _ => exact hkeep hsame hrow
  | die _ => exact hkeep hsame hrow
  | crash _ => exact hkeep hsame hrow
  | recoverRead _ _ => exact hkeep hsame hrow

/-! ## The headline -/

/-- `w` is between a successful claim of the task and the end of its handler. -/
def State.inHandler (s : State ι L X) (w : ι) : Bool :=
  match s.workers w with
  | .polled | .claimed | .locked => true
  | .waiting n => (s.procs n).isAlive
  | _ => false

theorem active_of_inHandler {s : State ι L X} {w : ι} (h : s.inHandler w = true) :
    (s.workers w).active = true := by
  unfold State.inHandler at h
  split at h <;> rename_i hw <;> first | (rw [hw]; rfl) | exact absurd h (by simp)

def Event.isRecover : Event ι A → Bool
  | .recover _ _ => true
  | _ => false

/-- The side condition "no stale recovery". -/
def NoRecovery (s : State ι L X) (e : Event ι A) : Prop := e.isRecover = false

/-- Without recovery, every reachable state satisfies both invariants. -/
theorem excl_history_of_run {row : Task} {stores : X} {es : List (Event ι A)} {s : State ι L X}
    (h : Run (step cfg name H) NoRecovery (State.init row stores) es s) : Excl s ∧ History s := by
  refine h.invariant (I := fun s => Excl s ∧ History s) ?_
    ⟨excl_init row stores, history_init row stores⟩
  intro s e t hs he ht
  have hP : RecoversAtRest s e := by
    cases e with
    | recover r now => exact absurd he (by simp [NoRecovery, Event.isRecover])
    | _ => trivial
  exact ⟨excl_step hs.1 hP ht, history_step hs.1 hs.2 ht⟩

/-- **Mutual exclusion and duplicate-delivery safety.**  In every interleaving without recovery:
    (1) at most one worker is between its claim and the end of its handler;
    (2) at most one handler process is alive;
    (3) every handler start directly follows a claim by the same worker;
    (4) there are exactly as many handler starts as claims that reach the handler; and
    (5) the claims are exactly the PENDING → RUNNING transitions of the row. -/
theorem one_worker_per_task {row : Task} {stores : X} {es : List (Event ι A)} {s : State ι L X}
    (hrun : Run (step cfg name H) NoRecovery (State.init row stores) es s) :
    (∀ w w', s.inHandler w = true → s.inHandler w' = true → w = w') ∧
    (∀ n m, (s.procs n).isAlive = true → (s.procs m).isAlive = true → n = m) ∧
    (∀ newer w older, s.history = newer ++ .start w :: older → ∃ rest, older = .claim w :: rest) ∧
    (s.starts = s.history.countP Mark.isStart ∧ s.starts = reached s.history) ∧
    (∀ e t, step cfg name H s e = some t →
      ((∃ w, t.history = .claim w :: s.history) ↔
        s.row.status = .pending ∧ t.row.status = .running)) := by
  obtain ⟨hx, hh⟩ := excl_history_of_run hrun
  refine ⟨?_, hx.oneProc, ?_, ⟨hh.counted, ?_⟩, fun e t ht => claim_mark_iff ht⟩
  · intro w w' hw hw'
    exact hx.oneWorker w w' (active_of_inHandler hw) (active_of_inHandler hw')
  · intro newer w older heq
    exact bracketed_start newer w older (heq ▸ hh.bracketed)
  · rw [hh.counted]
    exact countP_start_eq_reached s.history hh.bracketed

end Invariant

/-- Two deliveries of one message, both read while the row is still PENDING: the second worker loses
    the claim, and the handler is started once. -/
def duplicateDelivery : List (Event Nat AgentInput) :=
  [.deliver 0, .deliver 1, .work 0 (.go 1), .work 1 (.go 1), .work 0 (.go 2), .work 1 (.go 2),
    .work 0 (.go 3), .work 0 (.go 4), .handle 0 (.go 5), .deliver 1, .work 1 (.go 6)]

theorem duplicateDelivery_starts_once :
    ∃ s : State Nat AgentPc Ledgers,
      exec (step .default toString agentTaskHandler) (State.init sampleAgentTask noLedgers)
        duplicateDelivery = some s ∧
      s.inHandler 0 = true ∧ s.starts = 1 ∧ s.starts = reached s.history := by
  have hexec : ∃ s, exec (step .default toString agentTaskHandler)
      (State.init sampleAgentTask noLedgers) duplicateDelivery = some s ∧
      s.inHandler 0 = true ∧ s.starts = 1 := ⟨_, rfl, rfl, rfl⟩
  obtain ⟨s, hs, hin, hstarts⟩ := hexec
  have hcalm : ∀ e ∈ duplicateDelivery, e.isRecover = false := by decide
  have hrun := run_of_exec (P := NoRecovery) hs fun e he _ => hcalm e he
  exact ⟨s, hs, hin, hstarts, (one_worker_per_task hrun).2.2.2.1.2⟩

end FinancialRag.Tasks
