/-
  What the message traffic of the task worker guarantees about one task: no wakeup is lost.

  `_execute_task` commits PENDING, then publishes, then acknowledges.  The order is the whole argument:
  at every moment a PENDING row is announced by an entry nobody has given up on, or somebody is about to
  publish one.  A thread has GIVEN UP on its message once nothing it will still do depends on it: it has
  claimed the row, or seen that the row is not PENDING, and only the acknowledgement is left.

  crux: `pending_task_can_start` — while no publication is refused, no publisher dies, no live entry is
  trimmed and no recovery resets the row, four broker events without a database poll are enough for any
  free thread to own a PENDING task.
-/
import FinancialRag.Tasks.Broker

set_option linter.unusedVariables false
set_option linter.unusedSectionVars false

namespace FinancialRag.Tasks

open Machine

section Wakeup

variable {ι κ L X A : Type} [DecidableEq ι] [DecidableEq κ]
variable {home : ι → κ} {cfg : WorkerConfig} {name : ι → String} {H : Handler L X A}
variable {s t : BrokerState ι κ L X}

/-! ## Giving up on a message -/

/-- A thread at these control points will acknowledge the entry whatever the row says. -/
def GivenUpAt (n : Nat) : BrokerPc → WorkerPc → Prop
  | .acking (some m), _ => m = n
  | .publishing (some m) _, _ => m = n
  | .executing (some m), pc => m = n ∧ pc.active = true
  | _, _ => False

/-- The entry is acknowledged, or some thread will acknowledge it whatever the row says. -/
def GivenUp (s : BrokerState ι κ L X) (n : Nat) : Prop :=
  s.delivery n = .acked ∨ ∃ w, GivenUpAt n (s.threads w) (s.row.workers w)

/-- The entry can still reach a worker that looks at the row. -/
structure Awaited (s : BrokerState ι κ L X) (n : Nat) : Prop where
  published : n < s.published
  kept : s.trimmed n = false
  unsettled : ¬ GivenUp s n

/-- Somebody is past the PENDING commit and before `publish_task`. -/
def Announcing (s : BrokerState ι κ L X) : Prop :=
  s.announced = false ∨ ∃ w message attempt, s.threads w = .publishing message attempt

theorem givenUpAt_update {ts : ι → BrokerPc} {ws : ι → WorkerPc} {n : Nat} {w v : ι} {q : BrokerPc}
    {pc : WorkerPc} (h : GivenUpAt n (Function.update ts w q v) (Function.update ws w pc v)) :
    GivenUpAt n q pc ∨ GivenUpAt n (ts v) (ws v) := by
  by_cases hv : v = w
  · subst hv
    rw [Function.update_self, Function.update_self] at h
    exact Or.inl h
  · rw [Function.update_of_ne hv, Function.update_of_ne hv] at h
    exact Or.inr h

theorem GivenUpAt.message {n : Nat} {q : BrokerPc} {pc : WorkerPc} (h : GivenUpAt n q pc) :
    q.message = some n := by
  match q, h with
  | .acking (some _), h => exact congrArg some h
  | .publishing (some _) _, h => exact congrArg some h
  | .executing (some _), h => exact congrArg some h.1

theorem afterWork_message {before after : WorkerPc} {message : Option Nat} {attempt n : Nat}
    (h : (afterWork before after message attempt).message = some n) : message = some n := by
  unfold afterWork at h
  split at h
  · cases before <;> first | exact h | exact absurd h (by simp [BrokerPc.message])
  · exact h

/-- What a thread past its claim has given up on after an operation, it had given up on before. -/
theorem givenUpAt_of_afterWork {n attempt : Nat} {before after : WorkerPc} {message : Option Nat}
    (hactive : before.active = true)
    (h : GivenUpAt n (afterWork before after message attempt) after) :
    GivenUpAt n (.executing message) before := by
  obtain rfl : message = some n := afterWork_message h.message
  exact ⟨rfl, hactive⟩

/-! ## What an operation of `_execute_task` can do to a PENDING row -/

/-- After an operation that leaves the row PENDING: it was the re-queue, or the row was PENDING and the
    thread was past its claim, or it has just read PENDING. -/
theorem workStep_pending {r r' : State ι L X} {w : ι} {input : WorkInput}
    (h : workStep cfg name H r w input = some r') (hp : r'.row.status = .pending) :
    (r.workers w = .requeueing ∧ r'.workers w = .idle) ∨
      (r.row.status = .pending ∧
        ((r.workers w).active = true ∨ (r.workers w = .delivered ∧ r'.workers w = .sawPending))) := by
  cases workStep_transition h with
  | readPending hw hrow => exact Or.inr ⟨hrow, Or.inr ⟨hw, Function.update_self _ _ _⟩⟩
  | readOther hw hrow => exact absurd hp hrow
  | claim hw hrow => exact absurd hp (by simp [State.claimBy])
  | claimLost hw hrow => exact absurd hp hrow
  | noHandler hw hh => exact absurd hp (by simp [State.writeBy, failedUpdate])
  | writeFailed hw => exact absurd hp (by simp [State.writeBy, failedUpdate])
  | requeue hw => exact Or.inl ⟨hw, Function.update_self _ _ _⟩
  | @killed w n input detail hw hi =>
    have hp' : (r.kill n).row.status = .pending := hp
    rw [kill_row] at hp'
    exact Or.inr ⟨hp', Or.inl (by rw [hw]; rfl)⟩
  | reread hw hrow => exact Or.inr ⟨hp, Or.inl (by rw [hw]; rfl)⟩
  | rereadOther hw hrow => exact Or.inr ⟨hp, Or.inl (by rw [hw]; rfl)⟩
  | lock hw => exact Or.inr ⟨hp, Or.inl (by rw [hw]; rfl)⟩
  | notStarted hw => exact Or.inr ⟨hp, Or.inl (by rw [hw]; rfl)⟩
  | start hw => exact Or.inr ⟨hp, Or.inl (by rw [hw]; rfl)⟩
  | joined hw hq => exact Or.inr ⟨hp, Or.inl (by rw [hw]; rfl)⟩
  | joinedFailed hw hq hd => exact Or.inr ⟨hp, Or.inl (by rw [hw]; rfl)⟩
  | retry hw hrow hr => exact Or.inr ⟨hp, Or.inl (by rw [hw]; rfl)⟩
  | done hw hr => exact Or.inr ⟨hp, Or.inl (by rw [hw]; rfl)⟩
  | countRetry hw => exact Or.inr ⟨hp, Or.inl (by rw [hw]; rfl)⟩

/-- A handler never makes the row PENDING, and neither does its death. -/
theorem handleStep_pending {r r' : State ι L X} {n : Nat} {a : A}
    (h : step cfg name H r (.handle n a) = some r') (hp : r'.row.status = .pending) :
    r.row.status = .pending := by
  cases step_transition h with
  | @handle n a l m hq he hm =>
    rcases applyCommit_status r.row m.commit with hs | ⟨_, _, _, hs⟩ | ⟨_, _, _, hs⟩
    · exact hs.symm.trans hp
    · exact absurd (hs.symm.trans hp) (by simp)
    · exact absurd (hs.symm.trans hp) (by simp)
  | exit hq he => exact hp

theorem dieStep_pending {r r' : State ι L X} {n : Nat} {code : Int}
    (h : step cfg name H r (.die n code) = some r') (hp : r'.row.status = .pending) :
    r.row.status = .pending := by
  cases step_transition h with
  | die hq => exact hp

theorem recoverRead_pending {r r' : State ι L X} {q : ι} {now : Int}
    (h : step cfg name H r (.recover q now) = some r') (hr : r.stale q = false)
    (hp : r'.row.status = .pending) : r.row.status = .pending := by
  cases step_transition h with
  | recoverRead _ _ => exact hp
  | recoverWrite hw => exact absurd (hw.symm.trans hr) (by simp)

/-! ## The invariant -/

/-- The misfortunes after which only the database poll finds the task: a refused publication, the death
    of a publisher, a trimmed entry that was still needed, a recovery (which publishes nothing). -/
def NothingLost (s : BrokerState ι κ L X) : BrokerEvent ι κ A → Prop
  | .announce reply | .publish _ reply => reply.done = true
  | .crash w => ∀ message attempt, s.threads w ≠ .publishing message attempt
  | .trim n => s.delivery n = .acked
  | .recover r _ => s.row.stale r = false
  | _ => True

/-- Threads and processes hold entries that exist. -/
structure Numbered (s : BrokerState ι κ L X) : Prop where
  held : ∀ w n, (s.threads w).message = some n → n < s.published
  reclaimed : ∀ p, ∀ n ∈ s.pendingMessages p, n < s.published

theorem numbered_init (row : Task) (stores : X) :
    Numbered (BrokerState.init row stores : BrokerState ι κ L X) := by
  refine ⟨?_, ?_⟩
  · intro w n hn
    exact absurd hn (by simp [BrokerState.init, BrokerPc.message])
  · intro p n hn
    exact absurd hn (by simp [BrokerState.init])

theorem held_update {ts : ι → BrokerPc} {k : Nat} {w : ι} {q : BrokerPc}
    (h : ∀ v n, (ts v).message = some n → n < k) (hq : ∀ n, q.message = some n → n < k) (v : ι) (n : Nat)
    (hn : (Function.update ts w q v).message = some n) : n < k := by
  by_cases hv : v = w
  · subst hv
    rw [Function.update_self] at hn
    exact hq n hn
  · rw [Function.update_of_ne hv] at hn
    exact h v n hn

theorem reclaimed_update {ms : κ → List Nat} {k : Nat} {p : κ} {rest : List Nat}
    (h : ∀ q, ∀ n ∈ ms q, n < k) (hr : ∀ n ∈ rest, n < k) (q : κ) (n : Nat)
    (hn : n ∈ Function.update ms p rest q) : n < k := by
  by_cases hq : q = p
  · subst hq
    rw [Function.update_self] at hn
    exact hr n hn
  · rw [Function.update_of_ne hq] at hn
    exact h q n hn

@[simp] theorem publishTask_pendingMessages (attempt : Nat) (reply : Reply) :
    (s.publishTask attempt reply).pendingMessages = s.pendingMessages := by
  unfold BrokerState.publishTask
  split <;> rfl

theorem publishTask_published (attempt : Nat) (reply : Reply) :
    s.published ≤ (s.publishTask attempt reply).published := by
  unfold BrokerState.publishTask
  split
  · exact Nat.le_succ _
  · exact Nat.le_refl _

theorem numbered_step {e : BrokerEvent ι κ A} (h : Numbered s)
    (ht : brokerStep home cfg name H s e = some t) : Numbered t := by
  -- the thread takes an entry that exists and enters `_execute_task`
  have henter : ∀ {w : ι} {n : Nat}, n < s.published → ∀ v m,
      (Function.update s.threads w (.executing (some n)) v).message = some m → m < s.published := by
    intro w n hn
    refine held_update h.held ?_
    intro m hm
    obtain rfl : n = m := Option.some.inj hm
    exact hn
  cases brokerStep_transition ht with
  | @announce reply ha =>
    have hle := publishTask_published (s := s) 1 reply
    refine ⟨?_, ?_⟩
    · intro w n hn
      have hn' : ((s.publishTask 1 reply).threads w).message = some n := hn
      rw [publishTask_threads] at hn'
      exact Nat.lt_of_lt_of_le (h.held w n hn') hle
    · intro p n hn
      have hn' : n ∈ (s.publishTask 1 reply).pendingMessages p := hn
      rw [publishTask_pendingMessages] at hn'
      exact Nat.lt_of_lt_of_le (h.reclaimed p n hn') hle
  | consumeRefused hw => exact h
  | consumeLost hw hn hd ht => exact ⟨h.held, h.reclaimed⟩
  | consume hw hn hd ht => exact ⟨henter hn, h.reclaimed⟩
  | reclaimNothing hw => exact ⟨h.held, h.reclaimed⟩
  | reclaim hw hc =>
    refine ⟨henter (hc _ List.mem_cons_self).1, reclaimed_update h.reclaimed ?_⟩
    intro m hm
    exact (hc m (List.mem_cons_of_mem _ hm)).1
  | @popPending w n rest hw hp =>
    have hall : ∀ m ∈ n :: rest, m < s.published := by
      rw [← hp]
      exact h.reclaimed (home w)
    exact ⟨henter (hall n List.mem_cons_self),
      reclaimed_update h.reclaimed fun m hm => hall m (List.mem_cons_of_mem _ hm)⟩
  | poll hw hrow => exact ⟨held_update h.held (by simp [BrokerPc.message]), h.reclaimed⟩
  | @work w input message row hw hrow =>
    refine ⟨held_update h.held ?_, h.reclaimed⟩
    intro n hn
    refine h.held w n ?_
    rw [hw]
    exact afterWork_message hn
  | @publish w reply message attempt hw =>
    have hle := publishTask_published (s := s) attempt reply
    refine ⟨?_, ?_⟩
    · show ∀ v n, (Function.update (s.publishTask attempt reply).threads w _ v).message = some n →
        n < (s.publishTask attempt reply).published
      rw [publishTask_threads]
      refine held_update (fun v n hn => Nat.lt_of_lt_of_le (h.held v n hn) hle) ?_
      intro n hn
      have hn' : (s.threads w).message = some n := by rw [hw]; exact hn
      exact Nat.lt_of_lt_of_le (h.held w n hn') hle
    · intro p n hn
      have hn' : n ∈ (s.publishTask attempt reply).pendingMessages p := hn
      rw [publishTask_pendingMessages] at hn'
      exact Nat.lt_of_lt_of_le (h.reclaimed p n hn') hle
  | ack hw => exact ⟨held_update h.held (by simp [BrokerPc.message]), h.reclaimed⟩
  | handle hrow => exact ⟨h.held, h.reclaimed⟩
  | die hrow => exact ⟨h.held, h.reclaimed⟩
  | recoverRead hr hrow => exact ⟨h.held, h.reclaimed⟩
  | recoverWrite hr hrow => exact ⟨h.held, h.reclaimed⟩
  | crash hw => exact ⟨held_update h.held (by simp [BrokerPc.message]), h.reclaimed⟩
  | exit => exact ⟨h.held, reclaimed_update h.reclaimed (by simp)⟩
  | trim hn => exact ⟨h.held, h.reclaimed⟩

/-! ## While the row is PENDING nobody gives up on anything new -/

theorem givenUp_publishTask (h : Numbered s) {attempt n : Nat} {reply : Reply}
    (hg : GivenUp (s.publishTask attempt reply) n) :
    GivenUp s n ∧ (s.publishTask attempt reply).announces n = s.announces n := by
  unfold BrokerState.publishTask at hg ⊢
  split at hg
  · rename_i hr
    rw [if_pos hr]
    have hne : n ≠ s.published := by
      rintro rfl
      rcases hg with hd | ⟨w, hw⟩
      · have hd' : Function.update s.delivery s.published .unread s.published = .acked := hd
        rw [Function.update_self] at hd'
        exact absurd hd' (by simp)
      · exact absurd (h.held w _ hw.message) (Nat.lt_irrefl _)
    refine ⟨?_, Function.update_of_ne hne _ _⟩
    rcases hg with hd | hw
    · left
      have hd' : Function.update s.delivery s.published .unread n = .acked := hd
      rwa [Function.update_of_ne hne] at hd'
    · exact Or.inr hw
  · rename_i hr
    rw [if_neg hr]
    exact ⟨hg, rfl⟩

/-- A publication that took effect leaves an awaited entry behind. -/
theorem awaited_publishTask (h : Numbered s) (attempt : Nat) {reply : Reply} (hr : reply.done = true) :
    Awaited (s.publishTask attempt reply) s.published := by
  unfold BrokerState.publishTask
  rw [if_pos hr]
  refine ⟨Nat.lt_succ_self _, Function.update_self _ _ _, ?_⟩
  rintro (hd | ⟨w, hw⟩)
  · have hd' : Function.update s.delivery s.published .unread s.published = .acked := hd
    rw [Function.update_self] at hd'
    exact absurd hd' (by simp)
  · exact absurd (h.held w _ hw.message) (Nat.lt_irrefl _)

theorem xack_of_ne {delivery : Nat → Delivery} {message : Option Nat} {reply : Reply} {n : Nat}
    (h : message ≠ some n) : xack delivery message reply n = delivery n := by
  cases message with
  | none => rfl
  | some m =>
    have hnm : n ≠ m := fun hc => h (by rw [hc])
    show (if reply.done then Function.update delivery m .acked else delivery) n = delivery n
    split
    · exact Function.update_of_ne hnm _ _
    · rfl

/-- The thread that turns from publishing to acknowledging keeps its own entry. -/
theorem givenUp_of_acking {w : ι} {message : Option Nat} {attempt n : Nat}
    (hw : s.threads w = .publishing message attempt) (hg : GivenUp (s.move w (.acking message)) n) :
    GivenUp s n := by
  rcases hg with hack | ⟨v, hv⟩
  · exact Or.inl hack
  · right
    have hv' : GivenUpAt n (Function.update s.threads w (.acking message) v) (s.row.workers v) := hv
    by_cases hvw : v = w
    · subst hvw
      rw [Function.update_self] at hv'
      obtain rfl : message = some n := hv'.message
      exact ⟨v, by rw [hw]; rfl⟩
    · rw [Function.update_of_ne hvw] at hv'
      exact ⟨v, hv'⟩

/-- **Where a step leaves the row PENDING, whatever is given up on after it was given up on before.** -/
theorem givenUp_step {e : BrokerEvent ι κ A} (hn : Numbered s)
    (ht : brokerStep home cfg name H s e = some t) (hp : t.row.row.status = .pending) {n : Nat}
    (hg : GivenUp t n) : GivenUp s n ∧ t.announces n = s.announces n := by
  -- handing an entry out acknowledges nothing
  have hdelivery : ∀ {m : Nat}, Function.update s.delivery m .pending n = .acked →
      s.delivery n = .acked := by
    intro m hd
    exact of_update (p := fun d : Delivery => d = .acked) (fun hc => absurd hc (by simp)) hd
  -- a thread that enters `_execute_task` has not looked at the row
  have henter : ∀ {w : ι} {m : Nat}, (∃ v, GivenUpAt n (Function.update s.threads w (.executing (some m)) v)
      (Function.update s.row.workers w .delivered v)) → GivenUp s n := by
    rintro w m ⟨v, hv⟩
    rcases givenUpAt_update hv with hc | hold
    · exact absurd hc.2 (by simp [WorkerPc.active])
    · exact Or.inr ⟨v, hold⟩
  cases brokerStep_transition ht with
  | announce ha => exact givenUp_publishTask hn hg
  | consumeRefused hw => exact ⟨hg, rfl⟩
  | consumeLost hw hlt hd ht => exact ⟨hg.imp hdelivery id, rfl⟩
  | consume hw hlt hd ht =>
    refine ⟨?_, rfl⟩
    rcases hg with hack | hheld
    · exact Or.inl (hdelivery hack)
    · exact henter hheld
  | reclaimNothing hw => exact ⟨hg, rfl⟩
  | reclaim hw hc =>
    refine ⟨?_, rfl⟩
    rcases hg with hack | hheld
    · exact Or.inl hack
    · exact henter hheld
  | popPending hw hq =>
    refine ⟨?_, rfl⟩
    rcases hg with hack | hheld
    · exact Or.inl hack
    · exact henter hheld
  | poll hw hrow => exact absurd hp (by simp [State.claimBy])
  | @work w input message row hw hrow =>
    refine ⟨?_, rfl⟩
    rcases hg with hack | ⟨v, hv⟩
    · exact Or.inl hack
    · obtain ⟨pc, hpc⟩ := workStep_workers hrow
      have hself : row.workers w = pc := by rw [hpc, Function.update_self]
      have hv' : GivenUpAt n (Function.update s.threads w
          (afterWork (s.row.workers w) pc message (s.attempts + 1)) v)
          (Function.update s.row.workers w pc v) := by
        rw [← hpc, ← hself]
        exact hv
      rcases givenUpAt_update hv' with hnew | hold
      · refine Or.inr ⟨w, ?_⟩
        rw [hw]
        -- it is this thread: past its claim, at the re-queue, or it has just read PENDING
        rcases workStep_pending hrow hp with ⟨hbefore, _⟩ | ⟨_, hactive | ⟨_, hafter⟩⟩
        · exact givenUpAt_of_afterWork (by rw [hbefore]; rfl) hnew
        · exact givenUpAt_of_afterWork hactive hnew
        · rw [← hself, hafter] at hnew
          obtain ⟨m, rfl⟩ : ∃ m, message = some m := ⟨n, afterWork_message hnew.message⟩
          exact absurd hnew.2 (by simp [WorkerPc.active])
      · exact Or.inr ⟨v, hold⟩
  | @publish w reply message attempt hw =>
    have hpub : (s.publishTask attempt reply).threads w = .publishing message attempt := by
      rw [publishTask_threads]
      exact hw
    exact givenUp_publishTask hn (givenUp_of_acking hpub hg)
  | @ack w reply message hw =>
    refine ⟨?_, rfl⟩
    rcases hg with hack | ⟨v, hv⟩
    · by_cases hm : message = some n
      · refine Or.inr ⟨w, ?_⟩
        rw [hw, hm]
        rfl
      · have hack' : xack s.delivery message reply n = .acked := hack
        rw [xack_of_ne hm] at hack'
        exact Or.inl hack'
    · have hv' : GivenUpAt n (Function.update s.threads w .free v) (s.row.workers v) := hv
      by_cases hvw : v = w
      · subst hvw
        rw [Function.update_self] at hv'
        exact absurd hv' (by simp [GivenUpAt])
      · rw [Function.update_of_ne hvw] at hv'
        exact Or.inr ⟨v, hv'⟩
  | handle hrow =>
    refine ⟨?_, rfl⟩
    unfold GivenUp at hg
    rwa [handleStep_workers hrow] at hg
  | die hrow =>
    refine ⟨?_, rfl⟩
    unfold GivenUp at hg
    rwa [dieStep_workers hrow] at hg
  | recoverRead hr hrow =>
    refine ⟨?_, rfl⟩
    unfold GivenUp at hg
    rwa [recoverStep_workers hrow] at hg
  | recoverWrite hr hrow =>
    refine ⟨?_, rfl⟩
    unfold GivenUp at hg
    rwa [recoverStep_workers hrow] at hg
  | @crash w hw =>
    refine ⟨?_, rfl⟩
    rcases hg with hack | ⟨v, hv⟩
    · exact Or.inl hack
    · rcases givenUpAt_update hv with hc | hold
      · exact absurd hc (by simp [GivenUpAt])
      · exact Or.inr ⟨v, hold⟩
  | exit => exact ⟨hg, rfl⟩
  | trim hlt => exact ⟨hg, rfl⟩

/-! ## No lost wakeup -/

/-- A PENDING row is about to be announced, or announced by an entry nobody has given up on. -/
def Wakeful (s : BrokerState ι κ L X) : Prop :=
  s.row.row.status = .pending → Announcing s ∨ ∃ n, Awaited s n

/-- Who is announcing still is after a thread that is not has moved. -/
theorem Announcing.move (h : Announcing s) {w : ι} {q : BrokerPc}
    (hw : ∀ message attempt, s.threads w ≠ .publishing message attempt) (ha : t.announced = s.announced)
    (ht : t.threads = Function.update s.threads w q) : Announcing t := by
  rcases h with hno | ⟨v, message, attempt, hv⟩
  · exact Or.inl (ha.trans hno)
  · right
    have hvw : v ≠ w := by
      rintro rfl
      exact hw message attempt hv
    exact ⟨v, message, attempt, by rw [ht, Function.update_of_ne hvw]; exact hv⟩

/-- The publication of a thread that is about to publish leaves an awaited entry behind. -/
theorem awaited_publish (h : Numbered s) {w : ι} {message : Option Nat} {attempt : Nat} {reply : Reply}
    (hw : s.threads w = .publishing message attempt) (hr : reply.done = true) :
    Awaited ((s.publishTask attempt reply).move w (.acking message)) s.published := by
  have hnew := awaited_publishTask h attempt hr
  have hpub : (s.publishTask attempt reply).threads w = .publishing message attempt := by
    rw [publishTask_threads]
    exact hw
  exact ⟨hnew.published, hnew.kept, fun hg => hnew.unsettled (givenUp_of_acking hpub hg)⟩

/-- **One step loses no wakeup.** -/
theorem wakeful_step {e : BrokerEvent ι κ A} (hn : Numbered s) (h : Wakeful s) (hP : NothingLost s e)
    (ht : brokerStep home cfg name H s e = some t) : Wakeful t := by
  intro hp
  -- an awaited entry stays awaited as long as the stream keeps it
  have hawait : ∀ n, Awaited s n → n < t.published → t.trimmed n = false → Awaited t n := by
    intro n hm hlt hkept
    exact ⟨hlt, hkept, fun hg => hm.unsettled (givenUp_step hn ht hp hg).1⟩
  have hkeep : s.row.row.status = .pending → (Announcing s → Announcing t) →
      s.published ≤ t.published → (∀ n, Awaited s n → t.trimmed n = false) →
      Announcing t ∨ ∃ n, Awaited t n := by
    intro hrow hann hpub hkept
    rcases h hrow with ha | ⟨n, hm⟩
    · exact Or.inl (hann ha)
    · exact Or.inr ⟨n, hawait n hm (Nat.lt_of_lt_of_le hm.published hpub) (hkept n hm)⟩
  -- a free thread publishes nothing
  have hfree : ∀ {w : ι}, s.threads w = .free → ∀ message attempt,
      s.threads w ≠ .publishing message attempt := by
    intro w hw message attempt
    rw [hw]
    simp
  cases brokerStep_transition ht with
  | announce ha =>
    have hnew := awaited_publishTask hn 1 hP
    exact Or.inr ⟨s.published, hnew.published, hnew.kept, hnew.unsettled⟩
  | consumeRefused hw => exact hkeep hp id (Nat.le_refl _) fun n hm => hm.kept
  | consumeLost hw hlt hd ht => exact hkeep hp id (Nat.le_refl _) fun n hm => hm.kept
  | consume hw hlt hd ht =>
    exact hkeep hp (fun ha => ha.move (hfree hw) rfl rfl) (Nat.le_refl _) fun n hm => hm.kept
  | reclaimNothing hw => exact hkeep hp id (Nat.le_refl _) fun n hm => hm.kept
  | reclaim hw hc =>
    exact hkeep hp (fun ha => ha.move (hfree hw) rfl rfl) (Nat.le_refl _) fun n hm => hm.kept
  | popPending hw hq =>
    exact hkeep hp (fun ha => ha.move (hfree hw) rfl rfl) (Nat.le_refl _) fun n hm => hm.kept
  | poll hw hrow => exact absurd hp (by simp [State.claimBy])
  | @work w input message row hw hrow =>
    rcases workStep_pending hrow hp with ⟨hbefore, hafter⟩ | ⟨hrow', _⟩
    · -- the re-queue: this thread publishes next
      refine Or.inl (Or.inr ⟨w, message, s.attempts + 1, ?_⟩)
      show Function.update s.threads w (afterWork (s.row.workers w) (row.workers w) message _) w = _
      rw [Function.update_self, hbefore, hafter]
      rfl
    · exact hkeep hrow' (fun ha => ha.move (w := w) (by rw [hw]; simp) rfl rfl) (Nat.le_refl _)
        fun n hm => hm.kept
  | @publish w reply message attempt hw =>
    exact Or.inr ⟨s.published, awaited_publish hn hw hP⟩
  | ack hw =>
    exact hkeep hp (fun ha => ha.move (by rw [hw]; simp) rfl rfl) (Nat.le_refl _) fun n hm => hm.kept
  | handle hrow =>
    exact hkeep (handleStep_pending hrow hp) id (Nat.le_refl _) fun n hm => hm.kept
  | die hrow => exact hkeep (dieStep_pending hrow hp) id (Nat.le_refl _) fun n hm => hm.kept
  | recoverRead hr hrow =>
    exact hkeep (recoverRead_pending hrow hr hp) id (Nat.le_refl _) fun n hm => hm.kept
  | recoverWrite hr hrow =>
    have hno := hP
    exact absurd (hr.symm.trans hno) (by simp)
  | crash hw =>
    exact hkeep hp (fun ha => ha.move hP rfl rfl) (Nat.le_refl _) fun n hm => hm.kept
  | exit => exact hkeep hp id (Nat.le_refl _) fun n hm => hm.kept
  | @trim n hlt =>
    refine hkeep hp id (Nat.le_refl _) ?_
    intro m hm
    have hmn : m ≠ n := by
      rintro rfl
      exact hm.unsettled (Or.inl hP)
    show Function.update s.trimmed n true m = false
    rw [Function.update_of_ne hmn]
    exact hm.kept

/-- In a run without the listed misfortunes the invariants hold throughout. -/
theorem wakeful_of_run {row : Task} {stores : X} {es : List (BrokerEvent ι κ A)}
    (hrun : Run (brokerStep home cfg name H) NothingLost (BrokerState.init row stores) es s) :
    Coupled s ∧ Numbered s ∧ Wakeful s := by
  refine hrun.invariant (I := fun s => Coupled s ∧ Numbered s ∧ Wakeful s) ?_
    ⟨coupled_init row stores, numbered_init row stores, fun _ => Or.inl (Or.inl rfl)⟩
  intro s e t ⟨hl, hn, h⟩ hP ht
  exact ⟨coupled_step hl ht, numbered_step hn ht, wakeful_step hn h hP ht⟩

/-! ### From the announcement to the claim -/

/-- The events of the broker path, each taking its normal course. -/
def BrokerEvent.isNormal : BrokerEvent ι κ A → Bool
  | .announce .answered | .publish _ .answered | .consume _ _ .answered => true
  | .reclaim _ _ _ | .popPending _ | .work _ (.go _) => true
  | _ => false

/-- What the next operation of a thread inside `_execute_task` makes of the system. -/
def BrokerState.worked (s : BrokerState ι κ L X) (w : ι) (message : Option Nat) (row : State ι L X) :
    BrokerState ι κ L X :=
  { s.move w (afterWork (s.row.workers w) (row.workers w) message (s.attempts + 1)) with
    row := row
    attempts := attemptsAfter (s.row.workers w) s.attempts }

theorem brokerStep_work {w : ι} {message : Option Nat} {input : WorkInput} {row : State ι L X}
    (hw : s.threads w = .executing message) (hrow : workStep cfg name H s.row w input = some row) :
    brokerStep home cfg name H s (.work w input) = some (s.worked w message row) := by
  simp only [brokerStep, hw, hrow, Option.map_some]
  rfl

variable (home cfg name H) in
/-- A thread that has just entered `_execute_task` with a PENDING row claims it. -/
theorem claim_of_delivered {w : ι} {n : Nat} (hw : s.threads w = .executing (some n))
    (hd : s.row.workers w = .delivered) (hp : s.row.row.status = .pending) (now : Int) :
    ∃ t, exec (brokerStep home cfg name H) s [.work w (.go now), .work w (.go now)] = some t ∧
      t.row.workers w = .claimed ∧ t.row.row.status = .running := by
  have hread : workStep cfg name H s.row w (.go now) = some (s.row.goto w .sawPending) := by
    simp only [workStep, hd, if_pos hp]
  have hsaw : (s.row.goto w .sawPending).workers w = .sawPending := Function.update_self _ _ _
  have hth : (s.worked w (some n) (s.row.goto w .sawPending)).threads w = .executing (some n) := by
    show Function.update s.threads w (afterWork (s.row.workers w)
      ((s.row.goto w .sawPending).workers w) (some n) _) w = _
    rw [Function.update_self, hsaw, hd]
    rfl
  have hclaim : workStep cfg name H (s.row.goto w .sawPending) w (.go now) =
      some ((s.row.goto w .sawPending).claimBy w now .claimed) := by
    have hp' : (s.row.goto w .sawPending).row.status = .pending := hp
    simp only [workStep, hsaw, if_pos hp']
  refine ⟨(s.worked w (some n) (s.row.goto w .sawPending)).worked w (some n)
    ((s.row.goto w .sawPending).claimBy w now .claimed), ?_, Function.update_self _ _ _, rfl⟩
  have hclaimed : brokerStep home cfg name H (s.worked w (some n) (s.row.goto w .sawPending))
      (.work w (.go now)) = some _ := brokerStep_work hth hclaim
  simp only [exec, brokerStep_work hw hread, hclaimed]

variable (home cfg name H) in
/-- An entry nobody has given up on reaches a free thread in one event. -/
theorem fetch_awaited {w : ι} {n : Nat} (h : Awaited s n) (hw : s.threads w = .free) :
    ∃ e t m, BrokerEvent.isNormal (κ := κ) (A := A) e = true ∧
      brokerStep home cfg name H s e = some t ∧ t.threads w = .executing (some m) ∧
      t.row.workers w = .delivered ∧ t.row.row = s.row.row := by
  cases hq : s.pendingMessages (home w) with
  | cons m rest =>
    -- the process still has reclaimed entries: the next of them comes first
    refine ⟨.popPending w,
      { s.deliver w m with pendingMessages := Function.update s.pendingMessages (home w) rest }, m, rfl, ?_,
      Function.update_self _ _ _, Function.update_self _ _ _, rfl⟩
    simp only [brokerStep, hq, if_pos hw]
  | nil =>
    cases hd : s.delivery n with
    | acked => exact absurd (Or.inl hd) h.unsettled
    | unread =>
      refine ⟨.consume w n .answered,
        { s.deliver w n with delivery := Function.update s.delivery n .pending }, n, rfl, ?_,
        Function.update_self _ _ _,
        Function.update_self _ _ _, rfl⟩
      have hguard : s.threads w = .free ∧ n < s.published ∧ s.delivery n = .unread ∧
          s.trimmed n = false := ⟨hw, h.published, hd, h.kept⟩
      simp only [brokerStep]
      rw [if_pos hguard]
    | pending =>
      refine ⟨.reclaim w (s.nextPendingReclaim (home w)) [n],
        { s.deliver w n with
          pendingMessages := Function.update s.pendingMessages (home w) []
          nextPendingReclaim := Function.update s.nextPendingReclaim (home w)
            (s.nextPendingReclaim (home w) + pendingReclaimIntervalSeconds) }, n, rfl, ?_,
        Function.update_self _ _ _,
        Function.update_self _ _ _, rfl⟩
      have hguard : s.threads w = .free ∧ s.pendingMessages (home w) = [] ∧
          s.nextPendingReclaim (home w) ≤ s.nextPendingReclaim (home w) ∧
          ∀ m ∈ [n], m < s.published ∧ s.delivery m = .pending ∧ s.trimmed m = false := by
        refine ⟨hw, hq, Int.le_refl _, ?_⟩
        intro m hm
        rw [List.mem_singleton.mp hm]
        exact ⟨h.published, hd, h.kept⟩
      simp only [brokerStep]
      rw [if_pos hguard]

variable (home cfg name H) in
/-- An awaited entry of a PENDING row takes a free thread to its claim in three events. -/
theorem claim_awaited {w : ι} {n : Nat} (h : Awaited s n) (hw : s.threads w = .free)
    (hp : s.row.row.status = .pending) :
    ∃ es t, es.length = 3 ∧ (∀ e ∈ es, BrokerEvent.isNormal (κ := κ) (A := A) e = true) ∧
      exec (brokerStep home cfg name H) s es = some t ∧ t.row.workers w = .claimed ∧
      t.row.row.status = .running := by
  obtain ⟨e, t, m, hnormal, hstep, hth, hd, hrow⟩ :=
    fetch_awaited home cfg name H h hw
  obtain ⟨u, hexec, hclaimed, hrunning⟩ :=
    claim_of_delivered home cfg name H hth hd (by rw [hrow]; exact hp) 0
  refine ⟨[e, .work w (.go 0), .work w (.go 0)], u, rfl, ?_, ?_, hclaimed, hrunning⟩
  · intro f hf
    rcases List.mem_cons.mp hf with rfl | hf
    · exact hnormal
    · rcases List.mem_cons.mp hf with rfl | hf
      · rfl
      · rw [List.mem_singleton.mp hf]
        rfl
  · simp only [exec, hstep]
    exact hexec

/-- **No lost wakeup.**  In every run in which no publication is refused, no thread dies between the
    PENDING commit and its publication, no live entry is trimmed and no recovery resets the row: whenever
    the row is PENDING, any free thread comes to own the task within four events of the broker path,
    without a database poll, a recovery or another task's message. -/
theorem pending_task_can_start {row : Task} {stores : X} {es : List (BrokerEvent ι κ A)}
    (hrun : Run (brokerStep home cfg name H) NothingLost (BrokerState.init row stores) es s)
    (hp : s.row.row.status = .pending) {w : ι} (hw : s.threads w = .free) :
    ∃ fs t, fs.length ≤ 4 ∧ (∀ f ∈ fs, f.isNormal = true) ∧
      exec (brokerStep home cfg name H) s fs = some t ∧ t.row.workers w = .claimed ∧
      t.row.row.status = .running := by
  obtain ⟨_, hn, hwake⟩ := wakeful_of_run hrun
  -- one event first, if the publication is still to come
  have hafter : ∀ (e : BrokerEvent ι κ A) (u : BrokerState ι κ L X) {n : Nat}, e.isNormal = true →
      brokerStep home cfg name H s e = some u → Awaited u n → u.threads w = .free →
      u.row.row.status = .pending → ∃ fs t, fs.length ≤ 4 ∧ (∀ f ∈ fs, f.isNormal = true) ∧
        exec (brokerStep home cfg name H) s fs = some t ∧ t.row.workers w = .claimed ∧
        t.row.row.status = .running := by
    intro e u n he hstep hawait hfree hpend
    obtain ⟨fs, t, hlen, hnormal, hexec, hclaimed, hrunning⟩ :=
      claim_awaited home cfg name H hawait hfree hpend
    refine ⟨e :: fs, t, by rw [List.length_cons, hlen], ?_, ?_, hclaimed, hrunning⟩
    · intro f hf
      rcases List.mem_cons.mp hf with rfl | hf
      · exact he
      · exact hnormal f hf
    · simp only [exec, hstep]
      exact hexec
  rcases hwake hp with (ha | ⟨v, message, attempt, hv⟩) | ⟨n, hawait⟩
  · -- the creating request is about to publish
    have hnew := awaited_publishTask hn 1 (show Reply.answered.done = true from rfl)
    exact hafter (.announce .answered) { s.publishTask 1 .answered with announced := true } rfl
      (by simp only [brokerStep, if_pos ha]) ⟨hnew.published, hnew.kept, hnew.unsettled⟩ hw hp
  · -- another thread is about to publish its re-queue
    have hwv : w ≠ v := by
      rintro rfl
      exact absurd (hv.symm.trans hw) (by simp)
    refine hafter (.publish v .answered) ((s.publishTask attempt .answered).move v (.acking message)) rfl
      (by simp only [brokerStep, hv]) (awaited_publish hn hv rfl) ?_ ?_
    · show Function.update (s.publishTask attempt .answered).threads v _ w = .free
      rw [Function.update_of_ne hwv, publishTask_threads]
      exact hw
    · show (s.publishTask attempt .answered).row.row.status = .pending
      rw [publishTask_row]
      exact hp
  · obtain ⟨fs, t, hlen, hnormal, hexec, hclaimed, hrunning⟩ :=
      claim_awaited home cfg name H hawait hw hp
    exact ⟨fs, t, by omega, hnormal, hexec, hclaimed, hrunning⟩

end Wakeup

/-- The entry is pending in the group, and no thread knows it: thread 1 still starts the task. -/
theorem lostAnswers_can_start :
    ∃ s : BrokerState Nat Unit AgentPc Ledgers,
      exec (brokerStep (fun _ => ()) .default toString agentTaskHandler)
        (BrokerState.init sampleAgentTask noLedgers) [.announce .lost, .consume 0 0 .lost] = some s ∧
      s.delivery 0 = .pending ∧
      ∃ fs t, fs.length ≤ 4 ∧ (∀ f ∈ fs, f.isNormal = true) ∧
        exec (brokerStep (fun _ => ()) .default toString agentTaskHandler) s fs = some t ∧
        t.row.workers 1 = .claimed ∧ t.row.row.status = .running := by
  have hexec : ∃ s : BrokerState Nat Unit AgentPc Ledgers,
      exec (brokerStep (fun _ => ()) .default toString agentTaskHandler)
        (BrokerState.init sampleAgentTask noLedgers) [.announce .lost, .consume 0 0 .lost] = some s ∧
      s.delivery 0 = .pending ∧ s.row.row.status = .pending ∧ s.threads 1 = .free :=
    ⟨_, rfl, rfl, rfl, rfl⟩
  obtain ⟨s, hs, hpending, hrow, hfree⟩ := hexec
  have hnothing : ∀ e ∈ ([.announce .lost, .consume 0 0 .lost] : List (BrokerEvent Nat Unit AgentInput)),
      ∀ u : BrokerState Nat Unit AgentPc Ledgers, NothingLost u e := by
    intro e he u
    simp only [List.mem_cons, List.not_mem_nil, or_false] at he
    rcases he with rfl | rfl
    · exact (rfl : Reply.lost.done = true)
    · trivial
  exact ⟨s, hs, hpending, pending_task_can_start (run_of_exec hs hnothing) hrow hfree⟩

end FinancialRag.Tasks
