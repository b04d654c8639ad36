/-
  No entry of the task's stream is acknowledged before its attempt.

  Every PENDING commit of the row (its creation, and each re-queue) is numbered, and the entry that is
  published after it announces that number.  Without recovery a PENDING commit is answered by exactly one
  claim before the next can come (`workStep_claims`), and a thread gives up on an entry only when it sees
  the row claimed; so the acknowledgement of the k-th entry proves that k attempts have begun.

  crux: `answered_step`.  Where the row is PENDING after a step, whatever is given up on was given up on
  before (`givenUp_step`); where it is not, every commit so far has been claimed.
-/
import FinancialRag.Tasks.Wakeup

set_option linter.unusedVariables false
set_option linter.unusedSectionVars false

namespace FinancialRag.Tasks

open Machine

section Acknowledgement

variable {ι κ L X A : Type} [DecidableEq ι] [DecidableEq κ]
variable {home : ι → κ} {cfg : WorkerConfig} {name : ι → String} {H : Handler L X A}
variable {s t : BrokerState ι κ L X}

/-! ## Claims and PENDING commits -/

def Mark.isClaim : Mark ι → Bool
  | .claim _ => true
  | .start _ => false

/-- How often the row has been claimed. -/
def claims (marks : List (Mark ι)) : Nat := marks.countP Mark.isClaim

/-- A PENDING commit that no claim has answered yet. -/
def unanswered (st : TaskStatus) : Nat := if st = .pending then 1 else 0

theorem unanswered_of_ne {st : TaskStatus} (h : st ≠ .pending) : unanswered st = 0 := if_neg h

/-- **Every PENDING commit is answered by one claim.**  Without recovery, claims and unanswered PENDING
    commits together grow by one exactly with the re-queue. -/
theorem workStep_claims {r r' : State ι L X} (hx : Excl r) {w : ι} {input : WorkInput}
    (h : workStep cfg name H r w input = some r') :
    claims r'.history + unanswered r'.row.status =
      attemptsAfter (r.workers w) (claims r.history + unanswered r.row.status) := by
  -- who is past its claim does not see a PENDING row
  have hbusy : ∀ {pc : WorkerPc}, r.workers w = pc → pc.active = true → r.row.status ≠ .pending := by
    intro pc hw hactive hp
    have hfree := (hx.pendingFree hp).1 w
    rw [hw, hactive] at hfree
    exact absurd hfree (by simp)
  cases workStep_transition h with
  | readPending hw hrow => rw [hw]; rfl
  | readOther hw hrow => rw [hw]; rfl
  | claim hw hrow =>
    rw [hw, hrow]
    show claims (.claim w :: r.history) + unanswered .running = claims r.history + 1
    rw [claims, List.countP_cons_of_pos (by rfl)]
    rfl
  | claimLost hw hrow => rw [hw]; rfl
  | reread hw hrow => rw [hw]; rfl
  | rereadOther hw hrow => rw [hw]; rfl
  | lock hw => rw [hw]; rfl
  | noHandler hw hh =>
    rw [unanswered_of_ne (hbusy hw rfl), hw]
    rfl
  | notStarted hw => rw [hw]; rfl
  | start hw =>
    rw [hw]
    show claims (.start w :: r.history) + unanswered r.row.status = _
    rw [claims, List.countP_cons_of_neg (by simp [Mark.isClaim])]
    rfl
  | joined hw hq => rw [hw]; rfl
  | joinedFailed hw hq hd => rw [hw]; rfl
  | @killed w n input detail hw hi =>
    show claims (r.kill n).history + unanswered (r.kill n).row.status = _
    rw [kill_history, kill_row, hw]
    rfl
  | writeFailed hw =>
    rw [unanswered_of_ne (hbusy hw rfl), hw]
    rfl
  | retry hw hrow hr => rw [hw]; rfl
  | done hw hr => rw [hw]; rfl
  | countRetry hw => rw [hw]; rfl
  | requeue hw =>
    rw [unanswered_of_ne (hbusy hw rfl), hw]
    rfl

/-- A handler commits only while the row is its own. -/
theorem handleStep_claims {r r' : State ι L X} (hx : Excl r) {n : Nat} {a : A}
    (h : step cfg name H r (.handle n a) = some r') :
    claims r'.history + unanswered r'.row.status = claims r.history + unanswered r.row.status := by
  cases step_transition h with
  | @handle n a l m hq he hm =>
    have hne : r.row.status ≠ .pending := by
      intro hp
      have hdead := (hx.pendingFree hp).2 n
      rw [hq] at hdead
      exact absurd hdead (by simp [Proc.isAlive])
    have hne' : (applyCommit r.row m.commit).status ≠ .pending := by
      rcases applyCommit_status r.row m.commit with hs | ⟨_, _, _, hs⟩ | ⟨_, _, _, hs⟩
      · rw [hs]; exact hne
      · rw [hs]; simp
      · rw [hs]; simp
    show claims r.history + unanswered (applyCommit r.row m.commit).status = _
    rw [unanswered_of_ne hne, unanswered_of_ne hne']
  | exit hq he => rfl

/-- Marks are only added. -/
theorem step_claims_le {r r' : State ι L X} {e : Event ι A} (h : step cfg name H r e = some r') :
    claims r.history ≤ claims r'.history := by
  have hcons : ∀ m : Mark ι, claims r.history ≤ claims (m :: r.history) := by
    intro m
    rw [claims, claims, List.countP_cons]
    exact Nat.le_add_right _ _
  cases step_transition h with
  | poll hw hrow => exact hcons _
  | claim hw hrow => exact hcons _
  | start hw => exact hcons _
  | @killed w n input detail hw hi =>
    show claims r.history ≤ claims (r.kill n).history
    rw [kill_history]
  | _ => exact Nat.le_refl _

/-- What an acknowledged entry says about the attempts of the task. -/
structure Answered (s : BrokerState ι κ L X) : Prop where
  counted : s.attempts = claims s.row.history + unanswered s.row.row.status
  born : 1 ≤ s.attempts
  announced : ∀ n, s.announces n ≤ s.attempts
  owed : ∀ w message attempt, s.threads w = .publishing message attempt → attempt ≤ s.attempts
  settled : ∀ n, GivenUp s n → s.announces n ≤ claims s.row.history

theorem answered_init {row : Task} (hrow : row.status = .pending) (stores : X) :
    Answered (BrokerState.init row stores : BrokerState ι κ L X) := by
  refine ⟨?_, Nat.le_refl _, fun _ => Nat.zero_le _, ?_, fun _ _ => Nat.zero_le _⟩
  · show 1 = claims [] + unanswered row.status
    rw [hrow]
    rfl
  · intro w message attempt hw
    exact absurd hw (by simp [BrokerState.init])

@[simp] theorem publishTask_attempts (attempt : Nat) (reply : Reply) :
    (s.publishTask attempt reply).attempts = s.attempts := by
  unfold BrokerState.publishTask
  split <;> rfl

/-- An entry announces what it did before, or the commit just published. -/
theorem publishTask_announces (attempt : Nat) (reply : Reply) (n : Nat) :
    (s.publishTask attempt reply).announces n = s.announces n ∨
      (s.publishTask attempt reply).announces n = attempt := by
  unfold BrokerState.publishTask
  split
  · by_cases hn : n = s.published
    · right
      subst hn
      exact Function.update_self _ _ _
    · exact Or.inl (Function.update_of_ne hn _ _)
  · exact Or.inl rfl

theorem attemptsAfter_le (before : WorkerPc) (k : Nat) : k ≤ attemptsAfter before k := by
  unfold attemptsAfter
  split
  · exact Nat.le_succ _
  · exact Nat.le_refl _

/-- Only the re-queue leads to a publication. -/
theorem publishing_of_afterWork {before after : WorkerPc} {message message' : Option Nat}
    {attempt attempt' : Nat} (h : afterWork before after message attempt = .publishing message' attempt') :
    before = .requeueing ∧ attempt = attempt' := by
  unfold afterWork at h
  split at h
  · cases before with
    | requeueing => exact ⟨rfl, (BrokerPc.publishing.inj h).2⟩
    | _ => exact absurd h (by simp)
  · exact absurd h (by simp)

theorem owed_update {ts : ι → BrokerPc} {k : Nat} {w : ι} {q : BrokerPc}
    (h : ∀ v message attempt, ts v = .publishing message attempt → attempt ≤ k)
    (hq : ∀ message attempt, q = .publishing message attempt → attempt ≤ k) (v : ι) (message : Option Nat)
    (attempt : Nat) (hv : Function.update ts w q v = .publishing message attempt) : attempt ≤ k := by
  rcases update_cases hv with ⟨_, hc⟩ | ⟨_, hold⟩
  · exact hq message attempt hc
  · exact h v message attempt hold

theorem recoversAtRest_of_noRecovery {r : State ι L X} {e : Event ι A} (h : NoRecovery r e) :
    RecoversAtRest r e := by
  cases e with
  | recover q now => exact absurd h (by simp [NoRecovery, Event.isRecover])
  | _ => trivial

/-- The counts that do not speak of the entries. -/
theorem counted_step {e : BrokerEvent ι κ A} (hx : Excl s.row) (h : Answered s)
    (hP : OnRow NoRecovery s e) (ht : brokerStep home cfg name H s e = some t) :
    t.attempts = claims t.row.history + unanswered t.row.row.status ∧ s.attempts ≤ t.attempts := by
  have hrow : ∀ {r : State ι L X}, r.row = s.row.row → r.history = s.row.history →
      s.attempts = claims r.history + unanswered r.row.status := by
    intro r hr hh
    rw [hr, hh]
    exact h.counted
  cases brokerStep_transition ht with
  | announce ha =>
    refine ⟨?_, Nat.le_of_eq (publishTask_attempts _ _).symm⟩
    show (s.publishTask 1 _).attempts = claims (s.publishTask 1 _).row.history +
      unanswered (s.publishTask 1 _).row.row.status
    rw [publishTask_attempts, publishTask_row]
    exact h.counted
  | @poll w now hw hrow =>
    refine ⟨?_, Nat.le_refl _⟩
    have hcount := h.counted
    rw [hrow] at hcount
    show s.attempts = claims (.claim w :: s.row.history) + unanswered .running
    rw [claims, List.countP_cons_of_pos (by rfl)]
    exact hcount
  | @work w input message row hw hrow =>
    refine ⟨?_, attemptsAfter_le _ _⟩
    show attemptsAfter (s.row.workers w) s.attempts = claims row.history + unanswered row.row.status
    rw [workStep_claims hx hrow, ← h.counted]
  | publish hw =>
    refine ⟨?_, Nat.le_of_eq (publishTask_attempts _ _).symm⟩
    show (s.publishTask _ _).attempts = claims (s.publishTask _ _).row.history +
      unanswered (s.publishTask _ _).row.row.status
    rw [publishTask_attempts, publishTask_row]
    exact h.counted
  | handle hrow =>
    refine ⟨?_, Nat.le_refl _⟩
    rw [handleStep_claims hx hrow]
    exact h.counted
  | die hrow =>
    refine ⟨?_, Nat.le_refl _⟩
    cases step_transition hrow with
    | die hp => exact h.counted
  | recoverRead hr hrow => exact absurd hP (by simp [OnRow, NoRecovery, Event.isRecover])
  | recoverWrite hr hrow => exact absurd hP (by simp [OnRow, NoRecovery, Event.isRecover])
  | _ => exact ⟨h.counted, Nat.le_refl _⟩

theorem brokerStep_claims_le {e : BrokerEvent ι κ A} (hl : Coupled s)
    (ht : brokerStep home cfg name H s e = some t) : claims s.row.history ≤ claims t.row.history := by
  have hany : OnRow (fun _ _ => True) s e := by
    cases e with
    | consume w n reply => cases reply <;> trivial
    | reclaim w now claimed => cases claimed <;> trivial
    | _ => trivial
  rcases brokerStep_simulates hl hany ht with hsame | ⟨e', _, he'⟩
  · rw [hsame]
  · exact step_claims_le he'

/-- **One step keeps every given-up entry answered.** -/
theorem answered_step {e : BrokerEvent ι κ A} (hl : Coupled s) (hn : Numbered s) (hx : Excl s.row)
    (h : Answered s) (hP : OnRow NoRecovery s e) (ht : brokerStep home cfg name H s e = some t) :
    Answered t := by
  obtain ⟨hcounted, hle⟩ := counted_step hx h hP ht
  -- what the entries announce, and what is about to be published, was committed before
  have hann : ∀ n, t.announces n ≤ t.attempts := by
    intro n
    have hold : s.announces n ≤ t.attempts := Nat.le_trans (h.announced n) hle
    cases brokerStep_transition ht with
    | @announce reply ha =>
      rcases publishTask_announces (s := s) 1 reply n with hsame | hnew
      · show (s.publishTask 1 reply).announces n ≤ _
        rw [hsame]
        exact hold
      · show (s.publishTask 1 reply).announces n ≤ _
        rw [hnew]
        exact Nat.le_trans h.born hle
    | @publish w reply message attempt hw =>
      rcases publishTask_announces (s := s) attempt reply n with hsame | hnew
      · show (s.publishTask attempt reply).announces n ≤ _
        rw [hsame]
        exact hold
      · show (s.publishTask attempt reply).announces n ≤ _
        rw [hnew]
        exact Nat.le_trans (h.owed w message attempt hw) hle
    | _ => exact hold
  have howed : ∀ v message attempt, t.threads v = .publishing message attempt →
      attempt ≤ t.attempts := by
    have hold : ∀ v message attempt, s.threads v = .publishing message attempt → attempt ≤ t.attempts :=
      fun v message attempt hv => Nat.le_trans (h.owed v message attempt hv) hle
    cases brokerStep_transition ht with
    | announce ha =>
      intro v message attempt hv
      have hv' : (s.publishTask 1 _).threads v = .publishing message attempt := hv
      rw [publishTask_threads] at hv'
      exact hold v message attempt hv'
    | consume hw hlt hd ht => exact owed_update hold (by simp)
    | reclaim hw hc => exact owed_update hold (by simp)
    | popPending hw hq => exact owed_update hold (by simp)
    | poll hw hrow => exact owed_update hold (by simp)
    | @work w input message row hw hrow =>
      refine owed_update hold ?_
      intro message' attempt' hq
      obtain ⟨hbefore, rfl⟩ := publishing_of_afterWork hq
      show s.attempts + 1 ≤ attemptsAfter (s.row.workers w) s.attempts
      rw [hbefore]
      exact Nat.le_refl _
    | @publish w reply message attempt hw =>
      intro v message' attempt' hv
      have hv' : Function.update (s.publishTask attempt reply).threads w (.acking message) v =
        .publishing message' attempt' := hv
      rw [publishTask_threads] at hv'
      exact owed_update hold (by simp) v message' attempt' hv'
    | ack hw => exact owed_update hold (by simp)
    | crash hw => exact owed_update hold (by simp)
    | _ => exact hold
  refine ⟨hcounted, Nat.le_trans h.born hle, hann, howed, ?_⟩
  intro n hg
  by_cases hp : t.row.row.status = .pending
  · obtain ⟨hg', hsame⟩ := givenUp_step hn ht hp hg
    rw [hsame]
    exact Nat.le_trans (h.settled n hg') (brokerStep_claims_le hl ht)
  · -- a row that is not PENDING has had all its PENDING commits claimed
    have hall := hann n
    rw [hcounted, unanswered_of_ne hp] at hall
    exact hall

/-- **An entry is acknowledged only after the attempt it announces was claimed.**  In every run without
    recovery, whatever is refused, lost, trimmed, duplicated or crashes: the entry of the `k`-th PENDING
    commit of the task (its creation is the first) is acknowledged only when the row has been claimed at
    least `k` times, and the claims that are missing belong to a PENDING row. -/
theorem acked_after_claim {row : Task} (hnew : row.status = .pending) {stores : X}
    {es : List (BrokerEvent ι κ A)}
    (hrun : Run (brokerStep home cfg name H) (OnRow NoRecovery) (BrokerState.init row stores) es s) :
    (∀ n, s.delivery n = .acked → s.announces n ≤ claims s.row.history) ∧
      (∀ n, s.announces n ≤ s.attempts) ∧
      s.attempts = claims s.row.history + unanswered s.row.row.status := by
  have hinv : Coupled s ∧ Numbered s ∧ Excl s.row ∧ Answered s := by
    refine hrun.invariant (I := fun s => Coupled s ∧ Numbered s ∧ Excl s.row ∧ Answered s) ?_
      ⟨coupled_init row stores, numbered_init row stores, excl_init row stores, answered_init hnew stores⟩
    intro s e t ⟨hl, hn, hx, h⟩ hP ht
    refine ⟨coupled_step hl ht, numbered_step hn ht, ?_, answered_step hl hn hx h hP ht⟩
    rcases brokerStep_simulates hl hP ht with hsame | ⟨e', he', hstep⟩
    · rw [hsame]
      exact hx
    · exact excl_step hx (recoversAtRest_of_noRecovery he') hstep
  obtain ⟨_, _, _, h⟩ := hinv
  exact ⟨fun n hd => h.settled n (Or.inl hd), h.announced, h.counted⟩

end Acknowledgement

/-- The entry of the creation is acknowledged by thread 0 after thread 1 has claimed the task once. -/
theorem lostAnswers_acked_after_claim :
    ∃ s : BrokerState Nat Unit AgentPc Ledgers,
      exec (brokerStep (fun _ => ()) .default toString agentTaskHandler)
        (BrokerState.init sampleAgentTask noLedgers) lostAnswers = some s ∧ s.announces 0 = 1 ∧
      s.announces 0 ≤ claims s.row.history := by
  have hexec : ∃ s : BrokerState Nat Unit AgentPc Ledgers,
      exec (brokerStep (fun _ => ()) .default toString agentTaskHandler)
        (BrokerState.init sampleAgentTask noLedgers) lostAnswers = some s ∧ s.announces 0 = 1 ∧
      s.delivery 0 = .acked := ⟨_, rfl, rfl, rfl⟩
  obtain ⟨s, hs, hfirst, hacked⟩ := hexec
  exact ⟨s, hs, hfirst, (acked_after_claim rfl (run_of_exec hs lostAnswers_no_recovery)).1 0 hacked⟩

end FinancialRag.Tasks
