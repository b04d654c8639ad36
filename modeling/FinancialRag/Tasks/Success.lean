/-
  When is SUCCESS TERMINAL?

  No writer of the row tests the status it overwrites, and a handler commits SUCCESS BEFORE its last
  operations.  So SUCCESS is kept only by what does NOT happen afterwards: the rest of the handler
  must not raise, its process must not die or be killed under a waiting worker, and no recovery may
  write back a row it has read earlier.  `Undisturbed` collects these events.

  What the argument needs of a handler is `SuccessPoints`: which control points lie after the SUCCESS
  commit, and which inputs are failures.  Both registered handlers have them.

  `Sealed` says what the parties can still do once the row is SUCCESS: a live process is past its
  commit, and an active worker is waiting for it or has seen it return.  By mutual exclusion a live
  process past its commit is enough for that (`sealed_of_live`), and such a process means that the row
  IS SUCCESS (`committedSuccess_step`), which is what lets the charging results start from a control
  point instead of the status.
-/
import FinancialRag.Tasks.Exclusion
import FinancialRag.Tasks.KnowledgeTasks

set_option linter.unusedVariables false
set_option linter.unusedSectionVars false

namespace FinancialRag.Tasks

open Machine

/-- The control points of a handler after its SUCCESS commit, and the inputs that are failures. -/
structure SuccessPoints {L X A : Type} (H : Handler L X A) where
  committed : L → Bool
  raises : A → Bool
  entry : committed H.entry = false
  succeed : ∀ {l a row x m r now}, H.step l a row x = some m →
    m.commit = some (.succeed r, now) → committed m.next = true
  fail : ∀ {l a row x m e now}, H.step l a row x = some m →
    m.commit = some (.fail e, now) → committed m.next = false
  back : ∀ {l a row x m}, H.step l a row x = some m → committed m.next = true →
    (∃ r now, m.commit = some (.succeed r, now)) ∨ committed l = true
  forth : ∀ {l a row x m}, H.step l a row x = some m → committed l = true → raises a = false →
    committed m.next = true
  returned : ∀ {l how}, committed l = true → H.exit l = some how → how = .returned

/-- The agent handler commits SUCCESS before it records usage and bills. -/
def agentSuccessPoints : SuccessPoints agentTaskHandler where
  committed := AgentPc.committed
  raises := AgentInput.isRaise
  entry := rfl
  succeed h hc := by
    cases agentStep_move h with
    | succeed => rfl
    | _ => simp at hc
  fail h hc := by
    cases agentStep_move h with
    | reject => rfl
    | fail => rfl
    | _ => simp at hc
  back h hc := by
    cases agentStep_move h with
    | load => split at hc <;> simp [AgentPc.committed] at hc
    | succeed => exact Or.inl ⟨_, _, rfl⟩
    | charge => exact Or.inr rfl
    | chargeLost => exact Or.inr rfl
    | bill => exact Or.inr rfl
    | close => exact Or.inr rfl
    | _ => simp [AgentPc.committed] at hc
  forth h hc ha := by
    cases agentStep_move h with
    | charge => rfl
    | chargeLost => rfl
    | bill => rfl
    | close => rfl
    | raise hin => simp [AgentInput.isRaise] at ha
    | _ => simp [AgentPc.committed] at hc
  returned {l how} hc he := by
    cases l with
    | completed => exact (Option.some.inj he).symm
    | recordingUsage r => simp [agentTaskHandler, agentExit] at he
    | billing r => simp [agentTaskHandler, agentExit] at he
    | closing => simp [agentTaskHandler, agentExit] at he
    | _ => simp [AgentPc.committed] at hc

/-- The document handler commits SUCCESS before it marks the document and records usage. -/
def documentSuccessPoints {F : Type} [PyFloat F] (T : PyText) (cfg : EmbeddingConfig) :
    SuccessPoints (processDocumentTask (F := F) T cfg) where
  committed := DocPc.committed
  raises := DocInput.isRaise
  entry := rfl
  succeed h hc := by
    cases docStep_move h with
    | succeed => rfl
    | _ => simp at hc
  fail h hc := by
    cases docStep_move h with
    | reject => rfl
    | noFile => rfl
    | @fail error known now => cases known <;> rfl
    | _ => simp at hc
  back h hc := by
    cases docStep_move h with
    | succeed => exact Or.inl ⟨_, _, rfl⟩
    | mark => exact Or.inr rfl
    | recordDocument _ => exact Or.inr rfl
    | recordEmbedding _ => exact Or.inr rfl
    | recordVector _ => exact Or.inr rfl
    | load => split at hc <;> simp [DocPc.committed] at hc
    | locate => split at hc <;> simp [DocPc.committed] at hc
    | size _ _ => split at hc <;> simp [DocPc.committed] at hc
    | chunk _ => split at hc <;> simp [DocPc.committed] at hc
    | embed => split at hc <;> simp [DocPc.committed] at hc
    | fail => split at hc <;> simp [DocPc.committed] at hc
    | _ => simp [DocPc.committed] at hc
  forth h hc ha := by
    cases docStep_move h with
    | mark => rfl
    | recordDocument _ => rfl
    | recordEmbedding _ => rfl
    | recordVector _ => rfl
    | raise hin => simp [DocInput.isRaise] at ha
    | _ => simp [DocPc.committed] at hc
  returned {l how} hc he := by
    cases l with
    | completed => exact (Option.some.inj he).symm
    | marking n => simp [processDocumentTask, docExit] at he
    | recordingDocument n => simp [processDocumentTask, docExit] at he
    | recordingEmbedding n => simp [processDocumentTask, docExit] at he
    | recordingVector n => simp [processDocumentTask, docExit] at he
    | _ => simp [DocPc.committed] at hc

section Sealing

variable {ι L X A : Type} [DecidableEq ι] {cfg : WorkerConfig} {name : ι → String}
  {H : Handler L X A} (S : SuccessPoints H)

/-- Nothing comes in the way of a committed SUCCESS. -/
def Undisturbed (s : State ι L X) : Event ι A → Prop
  | .handle _ a => s.row.status = .success → S.raises a = false
  | .die n _ => s.row.status = .success → ∀ w, s.workers w ≠ .waiting n
  | .work _ .timeout => s.row.status ≠ .success
  | .work _ .stop => s.row.status ≠ .success
  | .recover r _ => s.stale r = true → AtRest s ∧ s.row.status ≠ .success
  | _ => True

theorem Undisturbed.recoversAtRest {s : State ι L X} {e : Event ι A} (h : Undisturbed S s e) :
    RecoversAtRest s e := by
  cases e with
  | recover r now => exact fun hr => (h hr).1
  | _ => trivial

/-- What the parties can still be doing once the row is SUCCESS. -/
structure Sealed (s : State ι L X) : Prop where
  success : s.row.status = .success
  live : ∀ n l, s.procs n = .alive l → S.committed l = true
  active : ∀ w, (s.workers w).active = true → s.workers w = .settled ∨
    ∃ n, s.workers w = .waiting n ∧ ((s.procs n).isAlive = true ∨ s.procs n = .exited .returned)

/-- A live process past its SUCCESS commit means that the row IS SUCCESS. -/
def CommittedSuccess (s : State ι L X) : Prop :=
  ∀ n l, s.procs n = .alive l → S.committed l = true → s.row.status = .success

variable {S}

/-! ## A sealed state stays sealed -/

/-- A worker that stops being active does not matter. -/
theorem Sealed.goto_inactive {s : State ι L X} {w : ι} {q : WorkerPc} (h : Sealed S s)
    (hq : q.active = false) : Sealed S (s.goto w q) := by
  refine ⟨h.success, h.live, ?_⟩
  intro v hv
  have hvw : v ≠ w := by
    intro hvw
    have hv' : (Function.update s.workers w q v).active = true := hv
    rw [hvw, Function.update_self, hq] at hv'
    exact absurd hv' (by simp)
  have hself : (s.goto w q).workers v = s.workers v := Function.update_of_ne hvw _ _
  rw [hself] at hv ⊢
  exact h.active v hv

/-- No worker of a sealed state stands anywhere but at `waiting` or `settled`. -/
theorem Sealed.not_at {s : State ι L X} {w : ι} {q : WorkerPc} (h : Sealed S s)
    (hw : s.workers w = q) (ha : q.active = true) (hs : q ≠ .settled) (hn : ∀ n, q ≠ .waiting n) :
    False := by
  rcases h.active w (by rw [hw]; exact ha) with hc | ⟨n, hc, _⟩
  · exact hs (hw.symm.trans hc)
  · exact hn n (hw.symm.trans hc)

/-- The join of a process that has returned. -/
theorem Sealed.goto_settled {s : State ι L X} {w : ι} (h : Sealed S s) :
    Sealed S (s.goto w .settled) := by
  refine ⟨h.success, h.live, ?_⟩
  intro v hv
  by_cases hvw : v = w
  · subst hvw
    exact Or.inl (Function.update_self _ _ _)
  · have hself : (s.goto w .settled).workers v = s.workers v := Function.update_of_ne hvw _ _
    rw [hself] at hv ⊢
    exact h.active v hv

/-- A live process makes a step that is no failure: the row stays SUCCESS. -/
theorem Sealed.handle {s : State ι L X} {n : Nat} {a : A} {l : L} {m : HandlerMove L X}
    (h : Sealed S s) (hp : s.procs n = .alive l) (hm : H.step l a s.row s.stores = some m)
    (ha : S.raises a = false) :
    Sealed S { s.setProc n (.alive m.next) with
      row := applyCommit s.row m.commit, stores := m.stores } := by
  have hl : S.committed l = true := h.live n l hp
  have hnext : S.committed m.next = true := S.forth hm hl ha
  have hrow : (applyCommit s.row m.commit).status = .success := by
    rcases applyCommit_status s.row m.commit with hs | ⟨_, _, _, hs⟩ | ⟨e, now, hc, _⟩
    · rw [hs]; exact h.success
    · exact hs
    · -- a FAILED commit would leave the committed control points
      rw [S.fail hm hc] at hnext
      exact absurd hnext (by simp)
  refine ⟨hrow, ?_, ?_⟩
  · intro k l' hk
    rcases update_cases hk with ⟨_, hmoved⟩ | ⟨_, hk'⟩
    · injection hmoved with hmoved
      exact hmoved ▸ hnext
    · exact h.live k l' hk'
  · intro v hv
    rcases h.active v hv with hs | ⟨k, hk, hcase⟩
    · exact Or.inl hs
    · refine Or.inr ⟨k, hk, ?_⟩
      by_cases hkn : k = n
      · subst hkn
        exact Or.inl (by show (Function.update s.procs k (.alive m.next) k).isAlive = true
                         rw [Function.update_self]; rfl)
      · show (Function.update s.procs n _ k).isAlive = true ∨ Function.update s.procs n _ k = _
        rw [Function.update_of_ne hkn]
        exact hcase

/-- A process ends; a worker that waits for it must find a normal return. -/
theorem Sealed.exit {s : State ι L X} {n : Nat} {how : Exit} (h : Sealed S s)
    (hhow : (∃ w, s.workers w = .waiting n) → how = .returned) :
    Sealed S (s.setProc n (.exited how)) := by
  refine ⟨h.success, ?_, ?_⟩
  · intro k l hk
    rcases update_cases hk with ⟨_, hended⟩ | ⟨_, hk'⟩
    · exact absurd hended (by simp)
    · exact h.live k l hk'
  · intro v hv
    rcases h.active v hv with hs | ⟨k, hk, hcase⟩
    · exact Or.inl hs
    · refine Or.inr ⟨k, hk, ?_⟩
      show (Function.update s.procs n _ k).isAlive = true ∨ Function.update s.procs n _ k = _
      by_cases hkn : k = n
      · subst hkn
        rw [Function.update_self, hhow ⟨v, hk⟩]
        exact Or.inr rfl
      · rw [Function.update_of_ne hkn]
        exact hcase

/-- **A sealed state stays sealed, and no handler is started in it.** -/
theorem sealed_step {s t : State ι L X} {e : Event ι A} (hx : Excl s) (h : Sealed S s)
    (hP : Undisturbed S s e) (ht : step cfg name H s e = some t) :
    Sealed S t ∧ t.starts = s.starts := by
  -- the branches that need another status, or a worker elsewhere, do not arise
  have hstatus : ∀ {st : TaskStatus}, s.row.status = st → st = .success := by
    intro st hst; rw [← hst]; exact h.success
  cases step_transition ht with
  | deliver hw => exact ⟨h.goto_inactive rfl, rfl⟩
  | poll hw hrow => exact absurd (hstatus hrow) (by simp)
  | readPending hw hrow => exact absurd (hstatus hrow) (by simp)
  | readOther hw hrow => exact ⟨h.goto_inactive rfl, rfl⟩
  | claim hw hrow => exact absurd (hstatus hrow) (by simp)
  | claimLost hw hrow => exact ⟨h.goto_inactive rfl, rfl⟩
  | reread hw hrow => exact absurd (hstatus hrow) (by simp)
  | rereadOther hw hrow => exact ⟨h.goto_inactive rfl, rfl⟩
  | lock hw => exact (h.not_at hw rfl (by simp) (by simp)).elim
  | noHandler hw hh => exact (h.not_at hw rfl (by simp) (by simp)).elim
  | notStarted hw => exact (h.not_at hw rfl (by simp) (by simp)).elim
  | start hw => exact (h.not_at hw rfl (by simp) (by simp)).elim
  | joined hw hp => exact ⟨h.goto_settled, rfl⟩
  | @joinedFailed w now n how detail hw hp hd =>
    -- the process the worker joins has returned, and a return has no detail
    rcases h.active w (by rw [hw]; rfl) with hc | ⟨k, hk, hcase⟩
    · exact absurd (hw.symm.trans hc) (by simp)
    · injection hw.symm.trans hk with hnk
      subst hnk
      rw [hp] at hcase
      rcases hcase with hal | hret
      · exact absurd hal (by simp [Proc.isAlive])
      · injection hret with hret
        rw [hret] at hd
        exact absurd hd (by simp [Exit.detail])
  | killed hw hi =>
    rcases hi with hi | hi <;> subst hi <;> exact absurd h.success hP
  | writeFailed hw => exact (h.not_at hw rfl (by simp) (by simp)).elim
  | retry hw hrow hr => exact absurd (hstatus hrow) (by simp)
  | done hw hr => exact ⟨h.goto_inactive rfl, rfl⟩
  | countRetry hw => exact (h.not_at hw rfl (by simp) (by simp)).elim
  | requeue hw => exact (h.not_at hw rfl (by simp) (by simp)).elim
  | handle hp he hm => exact ⟨h.handle hp hm (hP h.success), rfl⟩
  | @exit n a l how hp he =>
    exact ⟨h.exit fun _ => S.returned (h.live n l hp) he, rfl⟩
  | @die n code l hp =>
    refine ⟨h.exit ?_, rfl⟩
    intro hw
    obtain ⟨w, hw⟩ := hw
    exact absurd hw (hP h.success w)
  | crash hw => exact ⟨h.goto_inactive rfl, rfl⟩
  | recoverRead hr hrow => exact ⟨⟨h.success, h.live, h.active⟩, rfl⟩
  | recoverWrite hr => exact absurd h.success (hP hr).2

/-! ## Becoming sealed -/

/-- A live process past its commit seals the row: it is the only one, and whoever is active waits
    for it. -/
theorem sealed_of_live {s : State ι L X} {n : Nat} {l : L} (hx : Excl s)
    (hs : s.row.status = .success) (hp : s.procs n = .alive l) (hl : S.committed l = true) :
    Sealed S s := by
  have hal : (s.procs n).isAlive = true := by rw [hp]; rfl
  refine ⟨hs, ?_, ?_⟩
  · intro k l' hk
    have hkn : k = n := hx.oneProc k n (by rw [hk]; rfl) hal
    subst hkn
    injection hk.symm.trans hp with hll
    rw [hll]
    exact hl
  · intro w hw
    exact Or.inr ⟨n, hx.ownProc w n hw hal, Or.inl hal⟩

/-- Only a handler's commit makes the row SUCCESS. -/
theorem success_step {s t : State ι L X} {e : Event ι A} (hne : s.row.status ≠ .success)
    (ht : step cfg name H s e = some t) (hs : t.row.status = .success) :
    ∃ n l, t.procs n = .alive l ∧ S.committed l = true := by
  cases step_transition ht with
  | @handle n a l m hp he hm =>
    refine ⟨n, m.next, Function.update_self _ _ _, ?_⟩
    rcases applyCommit_status s.row m.commit with hk | ⟨r, now, hc, _⟩ | ⟨_, _, _, hf⟩
    · have hs' : (applyCommit s.row m.commit).status = .success := hs
      rw [hk] at hs'
      exact absurd hs' hne
    · exact S.succeed hm hc
    · have hs' : (applyCommit s.row m.commit).status = .success := hs
      rw [hf] at hs'
      exact absurd hs' (by simp)
  | poll hw hrow => exact absurd hs (by simp [State.claimBy])
  | claim hw hrow => exact absurd hs (by simp [State.claimBy])
  | noHandler hw hh => exact absurd hs (by simp [State.writeBy, failedUpdate])
  | writeFailed hw => exact absurd hs (by simp [State.writeBy, failedUpdate])
  | requeue hw => exact absurd hs (by simp [State.writeBy, requeueUpdate])
  | recoverWrite hr => exact absurd hs (by simp)
  | @killed w n input detail hw hi =>
    have hs' : (s.kill n).row.status = .success := hs
    rw [kill_row] at hs'
    exact absurd hs' hne
  | deliver hw => exact absurd hs hne
  | readPending hw hrow => exact absurd hs hne
  | readOther hw hrow => exact absurd hs hne
  | claimLost hw hrow => exact absurd hs hne
  | reread hw hrow => exact absurd hs hne
  | rereadOther hw hrow => exact absurd hs hne
  | lock hw => exact absurd hs hne
  | notStarted hw => exact absurd hs hne
  | start hw => exact absurd hs hne
  | joined hw hp => exact absurd hs hne
  | joinedFailed hw hp hd => exact absurd hs hne
  | retry hw hrow hr => exact absurd hs hne
  | done hw hr => exact absurd hs hne
  | countRetry hw => exact absurd hs hne
  | exit hp he => exact absurd hs hne
  | die hp => exact absurd hs hne
  | crash hw => exact absurd hs hne
  | recoverRead hr hrow => exact absurd hs hne

theorem committedSuccess_init (row : Task) (stores : X) :
    CommittedSuccess S (State.init row stores : State ι L X) := by
  intro n l hp
  exact absurd hp (by simp [State.init])

/-- **A live process past its commit keeps meaning SUCCESS**, whatever is disturbed. -/
theorem committedSuccess_step {s t : State ι L X} {e : Event ι A} (hx : Excl s)
    (h : CommittedSuccess S s) (hP : RecoversAtRest s e) (ht : step cfg name H s e = some t) :
    CommittedSuccess S t := by
  intro n l hp hl
  rcases live_step hx hP ht hp with ⟨hp', hrow, _⟩ | ⟨a, l₀, m, _, hp', _, hm, rfl, hrow, _, _⟩ |
    ⟨_, rfl, _⟩
  · rw [hrow]; exact h n l hp' hl
  · rw [hrow]
    rcases applyCommit_status s.row m.commit with hk | ⟨_, _, _, hs⟩ | ⟨_, _, hc, _⟩
    · -- no SUCCESS commit now, so the process was past it before
      rw [hk]
      rcases S.back hm hl with ⟨r, now, hc⟩ | hl₀
      · rw [hc] at hk
        rw [← hk]
        rfl
      · exact h n l₀ hp' hl₀
    · exact hs
    · rw [S.fail hm hc] at hl
      exact absurd hl (by simp)
  · rw [S.entry] at hl
    exact absurd hl (by simp)

/-! ## The headline -/

/-- Mutual exclusion, and every SUCCESS is sealed. -/
def SealInv (S : SuccessPoints H) (s : State ι L X) : Prop :=
  Excl s ∧ (s.row.status = .success → Sealed S s)

theorem sealInv_step {s t : State ι L X} {e : Event ι A} (h : SealInv S s)
    (hP : Undisturbed S s e) (ht : step cfg name H s e = some t) : SealInv S t := by
  have hx : Excl t := excl_step h.1 hP.recoversAtRest ht
  refine ⟨hx, ?_⟩
  intro hs
  by_cases hsucc : s.row.status = .success
  · exact (sealed_step h.1 (h.2 hsucc) hP ht).1
  · obtain ⟨n, l, hp, hl⟩ := success_step hsucc ht hs
    exact sealed_of_live hx hs hp hl

/-- **SUCCESS is terminal in every undisturbed run.**  From the moment the row is SUCCESS, however the
    run goes on, it stays SUCCESS and no handler is started. -/
theorem success_terminal (S : SuccessPoints H) {row : Task} {stores : X} {es fs : List (Event ι A)}
    {s t : State ι L X} (hnew : row.status ≠ .success)
    (hrun : Run (step cfg name H) (Undisturbed S) (State.init row stores) es s)
    (hsucc : s.row.status = .success)
    (hlater : Run (step cfg name H) (Undisturbed S) s fs t) :
    t.row.status = .success ∧ t.starts = s.starts := by
  have hinv : SealInv S s :=
    hrun.invariant (I := SealInv S) (fun _ _ _ h hP ht => sealInv_step h hP ht)
      ⟨excl_init row stores, fun hs => absurd hs hnew⟩
  have hend : SealInv S t ∧ t.row.status = .success ∧ t.starts = s.starts := by
    refine hlater.invariant (I := fun u => SealInv S u ∧ u.row.status = .success ∧ u.starts = s.starts)
      ?_ ⟨hinv, hsucc, rfl⟩
    intro u e v hu hP hv
    obtain ⟨hu, husucc, hstarts⟩ := hu
    obtain ⟨hsealed, hkeep⟩ := sealed_step hu.1 (hu.2 husucc) hP hv
    exact ⟨sealInv_step hu hP hv, hsealed.success, hkeep.trans hstarts⟩
  exact hend.2

end Sealing

/-- The first attempt of an agent task up to its SUCCESS commit. -/
def upToSuccess : List (Event Nat AgentInput) :=
  [.poll 0 1, .work 0 (.go 2), .work 0 (.go 3), .work 0 (.go 4),
    .handle 0 (.go 5), .handle 0 (.go 6), .handle 0 (.answers {} 1), .handle 0 (.go 7)]

/-- The rest of the attempt, undisturbed, with a message of the task delivered again on the way. -/
def quietEnding : List (Event Nat AgentInput) :=
  [.handle 0 (.go 8), .deliver 1, .work 1 (.go 9), .handle 0 (.go 10), .handle 0 (.go 11),
    .handle 0 (.go 12), .work 0 (.go 13), .work 0 (.go 14)]

theorem quietEnding_stays_success :
    ∃ s t : State Nat AgentPc Ledgers,
      exec (step .default toString agentTaskHandler) (State.init sampleAgentTask noLedgers)
        upToSuccess = some s ∧ s.row.status = .success ∧
      exec (step .default toString agentTaskHandler) s quietEnding = some t ∧
      t.row.status = .success ∧ t.starts = 1 := by
  have hexec : ∃ s t : State Nat AgentPc Ledgers,
      exec (step .default toString agentTaskHandler) (State.init sampleAgentTask noLedgers)
        upToSuccess = some s ∧ s.row.status = .success ∧ s.starts = 1 ∧
      exec (step .default toString agentTaskHandler) s quietEnding = some t :=
    ⟨_, _, rfl, rfl, rfl, rfl⟩
  obtain ⟨s, t, hs, hsucc, hstarts, ht⟩ := hexec
  -- none of the events raises, kills or recovers, so each is undisturbed in every state
  have hcalm : ∀ e ∈ upToSuccess ++ quietEnding, ∀ u : State Nat AgentPc Ledgers,
      Undisturbed agentSuccessPoints u e := by
    intro e he u
    simp only [upToSuccess, quietEnding, List.cons_append, List.nil_append, List.mem_cons,
      List.not_mem_nil, or_false] at he
    rcases he with rfl | rfl | rfl | rfl | rfl | rfl | rfl | rfl | rfl | rfl | rfl | rfl | rfl | rfl |
      rfl | rfl <;> first | trivial | exact fun _ => rfl
  have h := success_terminal agentSuccessPoints (by decide)
    (run_of_exec hs fun e he u => hcalm e (List.mem_append_left _ he) u) hsucc
    (run_of_exec ht fun e he u => hcalm e (List.mem_append_right _ he) u)
  exact ⟨s, t, hs, hsucc, ht, h.1, h.2.trans hstarts⟩

/-- After the SUCCESS commit the billing insert raises: the `except` block commits FAILED, and the
    worker re-queues the task and starts the handler again. -/
def billingRaises : List (Event Nat AgentInput) :=
  [.handle 0 (.go 8), .handle 0 (.raises "billing"), .handle 0 (.go 9), .handle 0 (.go 10),
    .work 0 (.go 11), .work 0 (.go 12), .work 0 (.go 13), .work 0 (.go 14),
    .poll 0 20, .work 0 (.go 21), .work 0 (.go 22), .work 0 (.go 23)]

theorem success_overwritten :
    ∃ s t u : State Nat AgentPc Ledgers,
      exec (step .default toString agentTaskHandler) (State.init sampleAgentTask noLedgers)
        upToSuccess = some s ∧ s.row.status = .success ∧ s.starts = 1 ∧
      exec (step .default toString agentTaskHandler) s (billingRaises.take 3) = some t ∧
      t.row.status = .failed ∧
      exec (step .default toString agentTaskHandler) s billingRaises = some u ∧
      u.starts = 2 :=
  ⟨_, _, _, rfl, rfl, rfl, rfl, rfl, rfl, rfl⟩

end FinancialRag.Tasks
