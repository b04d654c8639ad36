/-
  Does a document ever get STUCK in 'processing'?

  Task status and document status are two rows, written by separate commits, and the worker's own
  failure path writes only the task.  `Calm` is the state in which the task may be left alone: SUCCESS
  goes with 'indexed', and FAILED goes with 'failed' UNLESS a further attempt is still to come
  (`Spare`), which will write the document again.

  `DocumentCare` names the steps that must find a calm state because nobody mends it afterwards:
    * the handler process ends without finishing (it dies, is killed, or its `except` block raises);
    * FAILED is written without the document: by the worker, or by a handler that failed before it had
      read its payload.

  The invariant reads the two statuses off the control point of the live handler (`DocAt`), and says
  that the task is calm whenever no handler is alive.
-/
import FinancialRag.Tasks.KnowledgeTasks
import FinancialRag.Tasks.Retries

set_option linter.unusedVariables false
set_option linter.unusedSectionVars false

namespace FinancialRag.Tasks

open Machine

/-! ## The two statuses -/

section Documents

variable {ι F : Type} [DecidableEq ι] [PyFloat F] {cfg : WorkerConfig} {name : ι → String}
  {T : PyText} {ecfg : EmbeddingConfig}

def DocStores.status (x : DocStores F) : Option DocumentStatus := x.document.map Document.status

/-- The task's document is there and belongs to the task's tenant. -/
def Ours (row : Task) (x : DocStores F) : Prop :=
  ∃ d, x.document = some d ∧ row.payload.documentId = some d.id ∧ d.tenantId = row.tenantId

/-- On the task's own document `_set_document_status` returns `True` and commits. -/
theorem setDocumentStatus_ours {d : Document} {tenantId : Int} (hten : d.tenantId = tenantId)
    (u : DocumentUpdate) :
    setDocumentStatus (some d) (some d.id) tenantId u = (true, some (d.update u)) := by
  have hget : getDocument (some d) d.id = some d := by
    unfold getDocument
    rw [Option.filter_some_pos]
    simp
  simp only [setDocumentStatus, hget]
  rw [if_neg (by simpa using hten)]

theorem Ours.setStatus {row : Task} {x : DocStores F} (h : Ours row x) (u : DocumentUpdate) :
    ∃ d, x.document = some d ∧
      setDocumentStatus x.document row.payload.documentId row.tenantId u = (true, some (d.update u)) := by
  obtain ⟨d, hd, hid, hten⟩ := h
  refine ⟨d, hd, ?_⟩
  rw [hd, hid]
  exact setDocumentStatus_ours hten u

/-- A status commit on the task's own document takes effect. -/
theorem Ours.mark_status {row : Task} {x : DocStores F} (h : Ours row x) (u : DocumentUpdate) :
    (x.mark row u).status = some u.status := by
  obtain ⟨d, _, hset⟩ := h.setStatus u
  simp only [DocStores.status, DocStores.mark, hset]
  rfl

theorem Ours.mark {row : Task} {x : DocStores F} (h : Ours row x) (u : DocumentUpdate) :
    Ours row (x.mark row u) := by
  obtain ⟨d, hd, hid, hten⟩ := h
  refine ⟨d.update u, ?_, hid, hten⟩
  show (setDocumentStatus x.document row.payload.documentId row.tenantId u).2 = _
  rw [hd, hid, setDocumentStatus_ours hten u]

/-- No step of the handler loses the document. -/
theorem Ours.move {row : Task} {x : DocStores F} {l : DocPc F} {a : DocInput F}
    {m : HandlerMove (DocPc F) (DocStores F)} (h : Ours row x) (hm : DocMove T ecfg row x l a m) :
    Ours row m.stores := by
  cases hm with
  | check _ => exact h.mark _
  | noFileMark => exact h.mark _
  | mark => exact h.mark _
  | failMark => exact h.mark _
  | _ => exact h

/-! ## When the task may be left alone -/

/-- Retries are left, also after the count that an active worker has still to write. -/
structure Spare (cfg : WorkerConfig) (rc : Nat) (ws : ι → WorkerPc) : Prop where
  now : (rc : Int) < cfg.maxRetry
  counted : ∀ w, (ws w).active = true → ws w ≠ .requeueing → (rc : Int) + 1 < cfg.maxRetry

/-- SUCCESS with an indexed document; FAILED with a failed one, or with an attempt to come. -/
structure CalmAt (cfg : WorkerConfig) (row : Task) (d : Option DocumentStatus) (ws : ι → WorkerPc) :
    Prop where
  success : row.status = .success → d = some .indexed
  failed : row.status = .failed → d = some .failed ∨ Spare cfg row.retryCount ws

abbrev Calm (cfg : WorkerConfig) (s : State ι (DocPc F) (DocStores F)) : Prop :=
  CalmAt cfg s.row s.stores.status s.workers

/-- A row that is neither SUCCESS nor FAILED is calm. -/
theorem CalmAt.open {row : Task} {d : Option DocumentStatus} {ws : ι → WorkerPc}
    (hs : row.status ≠ .success) (hf : row.status ≠ .failed) : CalmAt cfg row d ws :=
  ⟨fun h => absurd h hs, fun h => absurd h hf⟩

/-- Calm is kept while no worker becomes active and none leaves its re-queue. -/
theorem CalmAt.workers {row : Task} {d : Option DocumentStatus} {ws ws' : ι → WorkerPc}
    (h : CalmAt cfg row d ws)
    (hws : ∀ v, (ws' v).active = true → ws' v ≠ .requeueing →
      (ws v).active = true ∧ ws v ≠ .requeueing) : CalmAt cfg row d ws' := by
  refine ⟨h.success, ?_⟩
  intro hf
  rcases h.failed hf with hd | hsp
  · exact Or.inl hd
  · refine Or.inr ⟨hsp.now, ?_⟩
    intro v hv hne
    obtain ⟨hact, hreq⟩ := hws v hv hne
    exact hsp.counted v hact hreq

theorem CalmAt.goto {row : Task} {d : Option DocumentStatus} {ws : ι → WorkerPc} {w : ι}
    {q : WorkerPc} (h : CalmAt cfg row d ws)
    (hq : q.active = true → (ws w).active = true ∧ ws w ≠ .requeueing) :
    CalmAt cfg row d (Function.update ws w q) := by
  refine h.workers ?_
  intro v hv hne
  by_cases hvw : v = w
  · subst hvw
    rw [Function.update_self] at hv
    exact hq hv
  · rw [Function.update_of_ne hvw] at hv hne
    exact ⟨hv, hne⟩

theorem CalmAt.goto_inactive {row : Task} {d : Option DocumentStatus} {ws : ι → WorkerPc} {w : ι}
    {q : WorkerPc} (h : CalmAt cfg row d ws) (hq : q.active = false) :
    CalmAt cfg row d (Function.update ws w q) := by
  refine h.goto ?_
  intro hc
  rw [hq] at hc
  exact absurd hc (by simp)

/-! ## The care that keeps documents from getting stuck -/

/-- The next operation of worker `w` is its own FAILED write. -/
def State.writesFailed {L X : Type} (s : State ι L X) (w : ι) : Bool :=
  match s.workers w with
  | .raised _ => true
  | .locked => (handlerFor s.row.taskType).isNone
  | _ => false

/-- FAILED may be committed without the document: it is 'failed' already, or a further attempt will
    come. -/
def Excused (cfg : WorkerConfig) (s : State ι (DocPc F) (DocStores F)) : Prop :=
  s.stores.status = some .failed ∨ Spare cfg s.row.retryCount s.workers

theorem Excused.calm {s : State ι (DocPc F) (DocStores F)} (h : Excused cfg s) (message : String)
    (now : Int) : CalmAt cfg (s.row.update (failedUpdate message) now) s.stores.status s.workers :=
  ⟨fun hs => absurd hs (by simp [failedUpdate]), fun _ => h⟩

/-- What a step of the live handler at `l` must find. -/
def HandlerCare (cfg : WorkerConfig) (s : State ι (DocPc F) (DocStores F)) :
    DocPc F → DocInput F → Prop
  | .failing _ _, .raises _ => Calm cfg s
  | .failedDocument, .raises _ => Calm cfg s
  | .failing _ false, .go _ => Excused cfg s
  | _, _ => True

def DocumentCare (cfg : WorkerConfig) (s : State ι (DocPc F) (DocStores F)) :
    Event ι (DocInput F) → Prop
  | .die _ _ => Calm cfg s
  | .work w .timeout => ∀ n, s.workers w = .waiting n → (s.procs n).isAlive = true → Calm cfg s
  | .work w .stop => ∀ n, s.workers w = .waiting n → (s.procs n).isAlive = true → Calm cfg s
  | .work w (.go _) => s.writesFailed w = true → Excused cfg s
  | .handle n a => ∀ l, s.procs n = .alive l → HandlerCare cfg s l a
  | .recover r _ => s.stale r = true → AtRest s
  | _ => True

theorem DocumentCare.recoversAtRest {s : State ι (DocPc F) (DocStores F)} {e : Event ι (DocInput F)}
    (h : DocumentCare cfg s e) : RecoversAtRest s e := by
  cases e with
  | recover r now => exact h
  | _ => trivial

/-! ## The invariant -/

/-- What the statuses are while the handler stands at this control point. -/
def DocAt (cfg : WorkerConfig) (row : Task) (d : Option DocumentStatus) (ws : ι → WorkerPc) :
    DocPc F → Prop
  | .missingDocument => False
  | .missingFileDocument => row.status = .failed
  | .failedDocument => row.status = .failed
  | .marking _ => row.status = .success
  | .recordingDocument _ => row.status = .success ∧ d = some .indexed
  | .recordingEmbedding _ => row.status = .success ∧ d = some .indexed
  | .recordingVector _ => row.status = .success ∧ d = some .indexed
  | .completed => row.status = .success ∧ d = some .indexed
  | .failing _ _ => True
  | .handled => CalmAt cfg row d ws
  | .escaped _ => CalmAt cfg row d ws
  | _ => row.status = .running

/-- While a handler is alive its control point fits, whatever the workers do. -/
theorem DocAt.workers {row : Task} {d : Option DocumentStatus} {ws ws' : ι → WorkerPc} {l : DocPc F}
    (h : DocAt cfg row d ws l)
    (hws : ∀ v, (ws' v).active = true → ws' v ≠ .requeueing →
      (ws v).active = true ∧ ws v ≠ .requeueing) : DocAt cfg row d ws' l := by
  cases l with
  | handled => exact CalmAt.workers h hws
  | escaped e => exact CalmAt.workers h hws
  | _ => exact h

/-- **One step of the handler follows the statuses.** -/
theorem DocAt.move {s : State ι (DocPc F) (DocStores F)} {l : DocPc F} {a : DocInput F}
    {m : HandlerMove (DocPc F) (DocStores F)} (h : DocAt cfg s.row s.stores.status s.workers l)
    (hours : Ours s.row s.stores) (hm : DocMove T ecfg s.row s.stores l a m)
    (hcare : HandlerCare cfg s l a) :
    DocAt cfg (applyCommit s.row m.commit) m.stores.status s.workers m.next := by
  cases hm with
  | load => show DocAt cfg s.row _ _ (if _ then _ else _); split <;> exact h
  | check _ => exact h
  | checkFails hno =>
    -- the document is there and ours, so the check succeeds
    obtain ⟨d, _, hset⟩ := hours.setStatus { status := .processing }
    rw [hset] at hno
    exact absurd hno (by simp)
  | reject => exact h.elim
  | locate => show DocAt cfg s.row _ _ (if _ then _ else _); split <;> exact h
  | noFile => rfl
  | noFileMark =>
    refine ⟨?_, fun _ => Or.inl (hours.mark_status _)⟩
    intro hs
    have hfailed : s.row.status = .failed := h
    exact absurd (hfailed.symm.trans hs) (by simp)
  | size n hn =>
    show DocAt cfg s.row _ _ (if _ then _ else _)
    split
    · trivial
    · exact h
  | begin => exact h
  | chunk hf =>
    show DocAt cfg s.row _ _ (if _ then _ else _)
    split
    · trivial
    · exact h
  | chunkDone => exact h
  | embed =>
    show DocAt cfg s.row _ _ (if _ then _ else _)
    split
    · trivial
    · exact h
  | embedDone => exact h
  | openStore => exact h
  | buildDone => exact h
  | delete => exact h
  | add => exact h
  | succeed => rfl
  | mark => exact ⟨h, hours.mark_status _⟩
  | recordDocument _ => exact h
  | recordEmbedding _ => exact h
  | recordVector _ => exact h
  | @fail error known now =>
    cases known with
    | true => rfl
    | false =>
      -- FAILED is all this attempt leaves behind
      refine ⟨fun hs => absurd hs (by simp [applyCommit, HandlerCommit.toUpdate]), ?_⟩
      intro _
      exact hcare
  | escape => exact hcare
  | failMark =>
    refine ⟨?_, fun _ => Or.inl (hours.mark_status _)⟩
    intro hs
    have hfailed : s.row.status = .failed := h
    exact absurd (hfailed.symm.trans hs) (by simp)
  | failMarkEscape => exact hcare
  | raiseUnread => trivial
  | raise hin => trivial

structure DocInv (cfg : WorkerConfig) (s : State ι (DocPc F) (DocStores F)) : Prop where
  excl : Excl s
  read : ReadCount s
  ours : Ours s.row s.stores
  rest : (∀ n, (s.procs n).isAlive = false) → Calm cfg s
  position : ∀ n l, s.procs n = .alive l → DocAt cfg s.row s.stores.status s.workers l

/-- A handler that has ended by itself leaves a calm state. -/
theorem DocInv.calm_of_exit {s : State ι (DocPc F) (DocStores F)} {n : Nat} {l : DocPc F} {how : Exit}
    (h : DocInv cfg s) (hp : s.procs n = .alive l) (he : docExit l = some how) : Calm cfg s := by
  have hpos := h.position n l hp
  cases l with
  | completed =>
    obtain ⟨hs, hd⟩ := hpos
    exact ⟨fun _ => hd, fun hf => absurd (hs.symm.trans hf) (by simp)⟩
  | handled => exact hpos
  | escaped e => exact hpos
  | _ => simp [docExit] at he

/-- The live handler's control point keeps fitting. -/
theorem DocInv.position_step {s t : State ι (DocPc F) (DocStores F)} {e : Event ι (DocInput F)}
    (h : DocInv cfg s) (hP : DocumentCare cfg s e)
    (ht : step cfg name (processDocumentTask T ecfg) s e = some t) (n : Nat) (l : DocPc F)
    (hp : t.procs n = .alive l) : DocAt cfg t.row t.stores.status t.workers l := by
  rcases live_step h.excl hP.recoversAtRest ht hp with ⟨hp', hrow, hst, hact⟩ |
    ⟨a, l₀, m, rfl, hp', _, hm, rfl, hrow, hst, hws⟩ | ⟨_, rfl, hrow, _, w, hw⟩
  · rw [hrow, hst]
    refine (h.position n l hp').workers (fun v hv hne => ⟨hact v hv, fun hreq => ?_⟩)
    -- a worker at its re-queue does not coexist with a live handler
    have hwait := h.excl.ownProc v n (hact v hv) (by rw [hp']; rfl)
    exact absurd (hreq.symm.trans hwait) (by simp)
  · rw [hrow, hst, hws]
    exact (h.position n l₀ hp').move h.ours (docStep_move hm) (hP l₀ hp')
  · rw [hrow]
    exact h.excl.holdingRunning w (by rw [hw]; rfl)

/-- With no handler alive, the step has left the task calm. -/
theorem DocInv.rest_step {s t : State ι (DocPc F) (DocStores F)} {e : Event ι (DocInput F)}
    (h : DocInv cfg s) (hP : DocumentCare cfg s e)
    (ht : step cfg name (processDocumentTask T ecfg) s e = some t)
    (hdead : ∀ n, (t.procs n).isAlive = false) : Calm cfg t := by
  have hrunning : ∀ {w : ι} {q : WorkerPc}, s.workers w = q → q.holding = true →
      s.row.status = .running := by
    intro w q hw hq
    exact h.excl.holdingRunning w (by rw [hw]; exact hq)
  cases step_transition ht with
  | deliver hw => exact (h.rest hdead).goto_inactive rfl
  | poll hw hrow => exact .open (by simp [State.claimBy]) (by simp [State.claimBy])
  | readPending hw hrow => exact (h.rest hdead).goto_inactive rfl
  | readOther hw hrow => exact (h.rest hdead).goto_inactive rfl
  | claim hw hrow => exact .open (by simp [State.claimBy]) (by simp [State.claimBy])
  | claimLost hw hrow => exact (h.rest hdead).goto_inactive rfl
  | reread hw hrow => exact (h.rest hdead).goto (fun _ => by rw [hw]; exact ⟨rfl, by simp⟩)
  | rereadOther hw hrow => exact (h.rest hdead).goto_inactive rfl
  | lock hw =>
    have hr := hrunning hw rfl
    exact .open (by show s.row.status ≠ _; rw [hr]; simp) (by show s.row.status ≠ _; rw [hr]; simp)
  | notStarted hw =>
    have hr := hrunning hw rfl
    exact .open (by show s.row.status ≠ _; rw [hr]; simp) (by show s.row.status ≠ _; rw [hr]; simp)
  | @noHandler w now hw hh =>
    have hx : Excused cfg s := hP (by simp [State.writesFailed, hw, hh])
    exact (hx.calm _ now).goto (fun _ => by rw [hw]; exact ⟨rfl, by simp⟩)
  | @writeFailed w now detail hw =>
    have hx : Excused cfg s := hP (by simp [State.writesFailed, hw])
    exact (hx.calm detail now).goto (fun _ => by rw [hw]; exact ⟨rfl, by simp⟩)
  | @start w now hw =>
    have hal : (Function.update s.procs s.starts (.alive _) s.starts).isAlive = false :=
      hdead s.starts
    rw [Function.update_self] at hal
    exact absurd hal (by simp [Proc.isAlive])
  | joined hw hp => exact (h.rest hdead).goto (fun _ => by rw [hw]; exact ⟨rfl, by simp⟩)
  | joinedFailed hw hp hd => exact (h.rest hdead).goto (fun _ => by rw [hw]; exact ⟨rfl, by simp⟩)
  | @killed w n input detail hw hi =>
    -- killed while alive: care; already dead: the state was at rest
    have hcalm : Calm cfg s := by
      by_cases hal : (s.procs n).isAlive = true
      · rcases hi with hi | hi <;> subst hi <;> exact hP n hw hal
      · exact h.rest (h.excl.dead_of_waiting hw (by simpa using hal))
    have hgoto := hcalm.goto (w := w) (q := .raised detail) (fun _ => by rw [hw]; exact ⟨rfl, by simp⟩)
    show CalmAt cfg (s.kill n).row (s.kill n).stores.status
      (Function.update (s.kill n).workers w (.raised detail))
    have hst : (s.kill n).stores = s.stores := by unfold State.kill; split <;> rfl
    rw [kill_row, kill_workers, hst]
    exact hgoto
  | retry hw hrow hr => exact (h.rest hdead).goto (fun _ => by rw [hw]; exact ⟨rfl, by simp⟩)
  | done hw hr => exact (h.rest hdead).goto_inactive rfl
  | @countRetry w now k hw =>
    have hk : k = s.row.retryCount := h.read w k hw
    have hcalm := h.rest hdead
    refine ⟨hcalm.success, ?_⟩
    intro hf
    rcases hcalm.failed hf with hd | hsp
    · exact Or.inl hd
    · -- the count is the one the spare retries had reckoned with
      have hlt := hsp.counted w (by rw [hw]; rfl) (by rw [hw]; simp)
      refine Or.inr ⟨?_, ?_⟩
      · show ((k + 1 : Nat) : Int) < cfg.maxRetry
        omega
      · intro v hv hne
        have hv' : (Function.update s.workers w .requeueing v).active = true := hv
        have hne' : Function.update s.workers w .requeueing v ≠ .requeueing := hne
        by_cases hvw : v = w
        · subst hvw
          rw [Function.update_self] at hne'
          exact absurd rfl hne'
        · rw [Function.update_of_ne hvw] at hv'
          exact absurd (h.excl.oneWorker v w hv' (by rw [hw]; rfl)) hvw
  | requeue hw =>
    exact .open (by simp [State.writeBy, requeueUpdate]) (by simp [State.writeBy, requeueUpdate])
  | @handle n a l m hp he hm =>
    have hal : (Function.update s.procs n (.alive m.next) n).isAlive = false := hdead n
    rw [Function.update_self] at hal
    exact absurd hal (by simp [Proc.isAlive])
  | exit hp he => exact h.calm_of_exit hp he
  | die hp => exact hP
  | crash hw => exact (h.rest hdead).goto_inactive rfl
  | recoverRead hr hrow => exact h.rest hdead
  | recoverWrite hr => exact .open (by simp) (by simp)

/-- **One step keeps the document invariant.** -/
theorem docInv_step {s t : State ι (DocPc F) (DocStores F)} {e : Event ι (DocInput F)}
    (h : DocInv cfg s) (hP : DocumentCare cfg s e)
    (ht : step cfg name (processDocumentTask T ecfg) s e = some t) : DocInv cfg t := by
  refine ⟨excl_step h.excl hP.recoversAtRest ht, readCount_step h.excl h.read ht, ?_,
    h.rest_step hP ht, h.position_step hP ht⟩
  have hours : Ours s.row t.stores := by
    rcases stores_step ht with hst | ⟨n, a, l, m, _, _, hm, _, hst⟩
    · rw [hst]; exact h.ours
    · rw [hst]; exact h.ours.move (docStep_move hm)
  obtain ⟨_, hten, _, hpay⟩ := step_identity ht
  obtain ⟨d, hd, hid, hdten⟩ := hours
  exact ⟨d, hd, by rw [hpay]; exact hid, by rw [hten]; exact hdten⟩

/-- **Documents do not get stuck**, as long as care is taken: whenever no handler of the task is
    running, SUCCESS goes with 'indexed' and FAILED with its retries exhausted goes with 'failed', so
    the document is not 'processing'. -/
theorem document_not_stuck {row : Task} {stores : DocStores F} {es : List (Event ι (DocInput F))}
    {s : State ι (DocPc F) (DocStores F)} (hnew : row.status = .pending) (hours : Ours row stores)
    (hrun : Run (step cfg name (processDocumentTask T ecfg)) (DocumentCare cfg)
      (State.init row stores) es s)
    (hdead : ∀ n, (s.procs n).isAlive = false) :
    ∃ d, s.stores.document = some d ∧
      (s.row.status = .success → d.status = .indexed) ∧
      (s.row.status = .failed → cfg.maxRetry ≤ s.row.retryCount → d.status = .failed) := by
  have hinv : DocInv cfg s := by
    refine hrun.invariant (I := DocInv cfg) (fun _ _ _ h hP ht => docInv_step h hP ht) ?_
    refine ⟨excl_init row stores, ?_, hours, ?_, ?_⟩
    · intro w k hw
      exact absurd hw (by simp [State.init])
    · intro _
      exact .open (by show row.status ≠ _; rw [hnew]; simp) (by show row.status ≠ _; rw [hnew]; simp)
    · intro n l hp
      exact absurd hp (by simp [State.init])
  have hcalm := hinv.rest hdead
  obtain ⟨d, hd, _, _⟩ := hinv.ours
  have hstatus : s.stores.status = some d.status := by simp [DocStores.status, hd]
  refine ⟨d, hd, ?_, ?_⟩
  · intro hs
    exact Option.some.inj (hstatus.symm.trans (hcalm.success hs))
  · intro hf hmax
    rcases hcalm.failed hf with hfd | hsp
    · exact Option.some.inj (hstatus.symm.trans hfd)
    · have := hsp.now
      omega

end Documents

/-! ## Schedules -/

/-- An uploaded document of tenant 7 and its task, for evaluating schedules on. -/
def sampleDocumentTask : Task :=
  newTask "d1" .processDocument
    { filePath := some "/uploads/7/3-x/tesla Q3.pdf", documentId := some 3, contentSha256 := some "ab" }
    7 1 0

def sampleDocument : Document where
  id := 3
  tenantId := 7
  filename := "tesla Q3.pdf"
  company := "Tesla"
  period := "Q3"
  status := .processing
  contentSha256 := some "ab"
  byteSize := some 10
  uploadedByUserId := some 1
  indexedChunkCount := some 0

def sampleStores : DocStores ℚ := ⟨some sampleDocument, ⟨[]⟩, some 10, []⟩

def sampleChunk : DocumentChunk := ⟨"Total revenues were 25.2 billion", 1, "", false, 0, "p", "c"⟩

/-- The machine the schedules run on. -/
abbrev documentStep :=
  step (ι := Unit) .default (fun _ => "w") (processDocumentTask (F := ℚ) .ascii ⟨"m", ""⟩)

/-- One attempt that runs to its end. -/
def processed : List (Event Unit (DocInput ℚ)) :=
  [.poll () 1, .work () (.go 2), .work () (.go 3), .work () (.go 4),
    .handle 0 (.go 5), .handle 0 (.go 6), .handle 0 (.go 7), .handle 0 (.go 8), .handle 0 (.go 9),
    .handle 0 (.loads [sampleChunk]), .handle 0 (.go 10), .handle 0 (.embeds [[1, 0]]),
    .handle 0 (.go 11), .handle 0 (.go 12), .handle 0 (.go 13), .handle 0 (.go 14),
    .handle 0 (.go 15), .handle 0 (.go 16), .handle 0 (.go 17), .handle 0 (.go 18),
    .handle 0 .usageLost, .handle 0 (.go 19), .handle 0 (.go 20), .work () (.go 21), .work () (.go 22)]

/-- A test that no step needing care passes. -/
def carefree (s : State Unit (DocPc ℚ) (DocStores ℚ)) : Event Unit (DocInput ℚ) → Bool
  | .poll _ _ => true
  | .work w (.go _) => !s.writesFailed w
  | .handle n _ =>
    match s.procs n with
    | .alive (.failing _ _) => false
    | .alive .failedDocument => false
    | _ => true
  | _ => false

theorem documentCare_of_carefree (s : State Unit (DocPc ℚ) (DocStores ℚ))
    (e : Event Unit (DocInput ℚ)) (h : carefree s e = true) : DocumentCare .default s e := by
  cases e with
  | poll w now => trivial
  | work w input =>
    cases input with
    | go now =>
      intro hw
      simp only [carefree, hw, Bool.not_true] at h
      exact absurd h (by simp)
    | _ => exact absurd h (by simp [carefree])
  | handle n a =>
    intro l hl
    simp only [carefree, hl] at h
    cases l with
    | failing e k => exact absurd h (by simp)
    | failedDocument => exact absurd h (by simp)
    | _ => trivial
  | _ => exact absurd h (by simp [carefree])

theorem processed_document_indexed :
    ∃ s d, exec documentStep (State.init sampleDocumentTask sampleStores) processed = some s ∧
      s.row.status = .success ∧ s.stores.document = some d ∧ d.status = .indexed := by
  have hexec : ∃ s, execIf carefree documentStep (State.init sampleDocumentTask sampleStores)
        processed = some s ∧
      exec documentStep (State.init sampleDocumentTask sampleStores) processed = some s ∧
      s.row.status = .success ∧ ∀ n, (s.procs n).isAlive = false := by
    refine ⟨_, rfl, rfl, rfl, ?_⟩
    intro n
    cases n with
    | zero => rfl
    | succ n => rfl
  obtain ⟨s, hif, hs, hsucc, hdead⟩ := hexec
  have hours : Ours sampleDocumentTask sampleStores := ⟨sampleDocument, rfl, rfl, rfl⟩
  obtain ⟨d, hd, hindexed, _⟩ :=
    document_not_stuck rfl hours (run_of_execIf documentCare_of_carefree hif) hdead
  exact ⟨s, d, hs, hsucc, hd, hindexed hsucc⟩

/-- An attempt that the worker kills at its deadline, in the middle of the extraction. -/
def timedOutAttempt (n : Nat) : List (Event Unit (DocInput ℚ)) :=
  [.poll () 1, .work () (.go 2), .work () (.go 3), .work () (.go 4),
    .handle n (.go 5), .handle n (.go 6), .handle n (.go 7), .handle n (.go 8),
    .work () .timeout, .work () (.go 9), .work () (.go 10)]

/-- All four attempts time out. -/
def timedOutRun : List (Event Unit (DocInput ℚ)) :=
  (List.range 3).flatMap (fun n => timedOutAttempt n ++ [.work () (.go 11), .work () (.go 12)]) ++
    timedOutAttempt 3

/-- The task is FAILED with its retries exhausted and nothing runs any more, and the document is still
    'processing'. -/
theorem document_stuck :
    ∃ s d, exec documentStep (State.init sampleDocumentTask sampleStores) timedOutRun = some s ∧
      s.workers () = .idle ∧ (∀ n, (s.procs n).isAlive = false) ∧
      s.row.status = .failed ∧ WorkerConfig.default.maxRetry ≤ s.row.retryCount ∧
      s.stores.document = some d ∧ d.status = .processing := by
  refine ⟨_, _, rfl, rfl, ?_, rfl, by decide, rfl, rfl⟩
  intro n
  match n with
  | 0 => rfl
  | 1 => rfl
  | 2 => rfl
  | 3 => rfl
  | n + 4 => rfl

end FinancialRag.Tasks
