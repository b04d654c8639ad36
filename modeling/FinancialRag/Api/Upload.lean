/-
  The upload endpoint (`api/routers/upload.py`) and the document quota it checks
  (`services/plan_service.py`), with any number of requests at a time.

  A request is cut at its database steps.  It looks for a duplicate, counts the tenant's rows, inserts
  its own row in an open transaction (`pending`), stores the file, and commits row and task together.
  Against DUPLICATES the endpoint relies on the unique index, which holds whatever the order of the
  steps.  Against the QUOTA it has only the count it took, and a count says nothing about rows that are
  committed after it: two requests that both see the last free place both commit.

  `Timely` is what is missing: since a request's count, fewer rows have been committed than the count
  found places free.  It is EXACTLY what keeps a tenant within its plan (`documents_within_plan_iff`).

  A request starts here with its file read and validated.
-/
import FinancialRag.Lib.Machine
import FinancialRag.Tasks.KnowledgeTasks

set_option linter.unusedVariables false

namespace FinancialRag.Api.Upload

open Machine FinancialRag.Tasks

/-! ## Plans -/

structure Plan where
  slug : String
  maxDocuments : Int
  deriving DecidableEq, Repr

structure TenantSubscription where
  tenantId : Int
  status : String
  plan : Option Plan
  deriving DecidableEq, Repr

structure PlanTables where
  plans : List Plan
  subscriptions : List TenantSubscription

/-- `_get_tenant_plan`. -/
def getTenantPlan (p : PlanTables) (tenantId : Int) : Plan :=
  match (p.subscriptions.find? fun s => s.tenantId == tenantId && s.status == "active").bind
      TenantSubscription.plan with
  | some plan => plan
  | none => (p.plans.find? (·.slug == "free")).getD ⟨"fallback", 10⟩

structure DocumentQuota where
  used : Int
  limit : Int
  remaining : Int
  deriving DecidableEq, Repr

def rowsOf (documents : List Document) (tenantId : Int) : Nat :=
  documents.countP (·.tenantId == tenantId)

/-- `get_document_quota`. -/
def getDocumentQuota (p : PlanTables) (documents : List Document) (tenantId : Int) : DocumentQuota :=
  let limit := (getTenantPlan p tenantId).maxDocuments
  let used : Int := rowsOf documents tenantId
  ⟨used, limit, max 0 (limit - used)⟩

/-- `can_upload`, on the quota it reads. -/
def DocumentQuota.canUpload (quota : DocumentQuota) : Bool := quota.used < quota.limit

/-! ## The endpoint, cut at its database steps -/

/-- The user, and the file that was read. -/
structure UploadRequest where
  tenantId : Int
  userId : Int
  filename : String
  contentSha256 : String
  byteSize : Int
  deriving DecidableEq, Repr

inductive UploadResponse where
  | success (file : String) (documentId : Int) (taskId : String)
  | error (status : Nat) (detail : String)
  /-- an exception the endpoint does not catch -/
  | raised (error : String)
  deriving DecidableEq, Repr

inductive UploadPc where
  | idle
  /-- before the query for a duplicate -/
  | received (req : UploadRequest)
  /-- before `can_upload` -/
  | unseen (req : UploadRequest)
  /-- the quota allows it, before `db.flush()` -/
  | allowed (req : UploadRequest) (quota : DocumentQuota)
  /-- the flush has violated the unique index and is rolled back, before the second query -/
  | collided (req : UploadRequest)
  /-- the row is inserted, before the file is stored -/
  | flushed (req : UploadRequest) (quota : DocumentQuota) (document : Document)
  /-- before the task is inserted and both are committed -/
  | stored (req : UploadRequest) (quota : DocumentQuota) (document : Document) (filePath : String)
  /-- committed, before the usage record -/
  | created (req : UploadRequest) (document : Document) (taskId : String)
  | done (response : UploadResponse)
  deriving DecidableEq, Repr

/-- How the next operation of a request ends. -/
inductive UploadInput where
  | go
  | stores (filePath : String)
  | creates (publicId : String) (now : Int)
  | usageLost
  /-- `OSError` -/
  | cannotPersist
  | raises (error : String)
  deriving DecidableEq, Repr

structure Database where
  documents : List Document
  /-- rows that open transactions have inserted -/
  pending : List Document
  tasks : List Task
  usage : List UsageRecord
  nextId : Int

def duplicateDocumentDetail : String := "This document already exists in your workspace."

/-- The tenant's row of this content. -/
def isDuplicate (req : UploadRequest) (d : Document) : Bool :=
  d.tenantId == req.tenantId && d.contentSha256 == some req.contentSha256

def newDocument (T : PyText) (req : UploadRequest) (id : Int) : Document where
  id := id
  tenantId := req.tenantId
  filename := req.filename
  company := getCompany T req.filename
  period := getQuarter T req.filename
  status := .processing
  contentSha256 := some req.contentSha256
  byteSize := some req.byteSize
  uploadedByUserId := some req.userId
  indexedChunkCount := some 0

def uploadUsage (req : UploadRequest) (taskId : String) : UsageRecord where
  tenantId := req.tenantId
  userId := some req.userId
  eventType := .documentUpload
  resourceType := .document
  quantity := 1
  taskId := taskId

def Database.rollback (db : Database) (document : Document) : Database :=
  { db with pending := db.pending.erase document }

/-- `create_task`: row and task are committed. -/
def Database.commit (db : Database) (document : Document) (task : Task) : Database :=
  { db with
    documents := db.documents ++ [document]
    pending := db.pending.erase document
    tasks := db.tasks ++ [task] }

/-- The next operation of a request. -/
def requestStep (p : PlanTables) (T : PyText) (db : Database) :
    UploadPc → UploadInput → Option (UploadPc × Database)
  | .received req, .go =>
    some (if db.documents.any (isDuplicate req) then .done (.error 409 duplicateDocumentDetail)
      else .unseen req, db)
  | .unseen req, .go =>
    let quota := getDocumentQuota p db.documents req.tenantId
    some (if quota.canUpload then .allowed req quota
      else .done (.error 429 "Upload limit exceeded. Upgrade your plan."), db)
  | .allowed req quota, .go =>
    -- the index makes an insert wait for another transaction that has inserted the same key
    if db.pending.any (isDuplicate req) then none
    else if db.documents.any (isDuplicate req) then some (.collided req, { db with nextId := db.nextId + 1 })
    else
      some (.flushed req quota (newDocument T req db.nextId),
        { db with pending := newDocument T req db.nextId :: db.pending, nextId := db.nextId + 1 })
  | .collided req, .go =>
    some (.done (if db.documents.any (isDuplicate req) then .error 409 duplicateDocumentDetail
      else .raised "IntegrityError"), db)
  | .flushed req quota document, .stores filePath => some (.stored req quota document filePath, db)
  | .stored req _ document filePath, .creates publicId now =>
    some (.created req document publicId, db.commit document
      (newTask publicId .processDocument
        { filePath := some filePath, documentId := some document.id,
          contentSha256 := some req.contentSha256 }
        req.tenantId req.userId now))
  | .created req document taskId, .go =>
    some (.done (.success req.filename document.id taskId),
      { db with usage := recordUsage db.usage (uploadUsage req taskId) true })
  | .created req document taskId, .usageLost =>
    some (.done (.success req.filename document.id taskId),
      { db with usage := recordUsage db.usage (uploadUsage req taskId) false })
  | .flushed _ _ document, .cannotPersist =>
    some (.done (.error 500 "Unable to persist uploaded file"), db.rollback document)
  | .stored _ _ document _, .cannotPersist =>
    some (.done (.error 500 "Unable to persist uploaded file"), db.rollback document)
  | .received _, .raises error => some (.done (.raised error), db)
  | .unseen _, .raises error => some (.done (.raised error), db)
  | .allowed _ _, .raises error => some (.done (.raised error), db)
  | .collided _, .raises error => some (.done (.raised error), db)
  | .flushed _ _ document, .raises error => some (.done (.raised error), db.rollback document)
  | .stored _ _ document _, .raises error => some (.done (.raised error), db.rollback document)
  -- both rows are read again after the commit, and nothing takes that back
  | .created _ _ _, .raises error => some (.done (.raised error), db)
  | _, _ => none

/-! ## Any number of requests -/

structure State (κ : Type) where
  db : Database
  requests : κ → UploadPc

inductive UploadEvent (κ : Type) where
  | receive (k : κ) (req : UploadRequest)
  | proceed (k : κ) (input : UploadInput)

variable {κ : Type} [DecidableEq κ]

def State.init (db : Database) : State κ := ⟨db, fun _ => .idle⟩

def uploadStep (p : PlanTables) (T : PyText) (s : State κ) : UploadEvent κ → Option (State κ)
  | .receive k req =>
    match s.requests k with
    | .idle | .done _ => some { s with requests := Function.update s.requests k (.received req) }
    | _ => none
  | .proceed k input =>
    (requestStep p T s.db (s.requests k) input).map fun m =>
      ⟨m.2, Function.update s.requests k m.1⟩

/-! ## What a step can do to the count -/

/-- The count a request relies on, with the tenant it is of. -/
def UploadPc.snapshot : UploadPc → Option (Int × DocumentQuota)
  | .allowed req quota => some (req.tenantId, quota)
  | .flushed _ quota document => some (document.tenantId, quota)
  | .stored _ quota document _ => some (document.tenantId, quota)
  | _ => none

/-- **A step takes a count, or commits one row, or does neither.** -/
inductive CountMove (p : PlanTables) (db : Database) : UploadPc → UploadInput → UploadPc → Database → Prop
  /-- the count is dropped, or kept as it is -/
  | keeps {pc input pc' db'} (hdocuments : db'.documents = db.documents)
      (hsnapshot : pc'.snapshot = none ∨ pc'.snapshot = pc.snapshot) : CountMove p db pc input pc' db'
  | counts {req} (hfree : (getDocumentQuota p db.documents req.tenantId).canUpload = true) :
      CountMove p db (.unseen req) .go
        (.allowed req (getDocumentQuota p db.documents req.tenantId)) db
  | commits {req quota document filePath publicId now task} :
      CountMove p db (.stored req quota document filePath) (.creates publicId now)
        (.created req document publicId) (db.commit document task)

theorem requestStep_move {p : PlanTables} {T : PyText} {db db' : Database} {pc pc' : UploadPc}
    {input : UploadInput} (h : requestStep p T db pc input = some (pc', db')) :
    CountMove p db pc input pc' db' := by
  unfold requestStep at h
  split at h
  · injection h with h
    obtain ⟨rfl, rfl⟩ := Prod.mk.inj h
    refine .keeps rfl (Or.inl ?_)
    split <;> rfl
  · injection h with h
    obtain ⟨rfl, rfl⟩ := Prod.mk.inj h
    split
    · rename_i hfree
      exact .counts hfree
    · exact .keeps rfl (Or.inl rfl)
  · split at h
    · cases h
    · split at h
      · injection h with h
        obtain ⟨rfl, rfl⟩ := Prod.mk.inj h
        exact .keeps rfl (Or.inl rfl)
      · injection h with h
        obtain ⟨rfl, rfl⟩ := Prod.mk.inj h
        exact .keeps rfl (Or.inr rfl)
  · injection h with h
    obtain ⟨rfl, rfl⟩ := Prod.mk.inj h
    exact .keeps rfl (Or.inl rfl)
  · injection h with h
    obtain ⟨rfl, rfl⟩ := Prod.mk.inj h
    exact .keeps rfl (Or.inr rfl)
  · injection h with h
    obtain ⟨rfl, rfl⟩ := Prod.mk.inj h
    exact .commits
  all_goals
    first
    | injection h with h
      obtain ⟨rfl, rfl⟩ := Prod.mk.inj h
      exact .keeps rfl (Or.inl rfl)
    | cases h

theorem rowsOf_commit (db : Database) (document : Document) (task : Task) (tenant : Int) :
    rowsOf (db.commit document task).documents tenant =
      rowsOf db.documents tenant + if document.tenantId = tenant then 1 else 0 := by
  show (db.documents ++ [document]).countP _ = db.documents.countP _ + _
  rw [List.countP_append, List.countP_singleton]
  simp

/-! ## Within the plan -/

section Quota

variable {p : PlanTables} {T : PyText} {tenant : Int}

/-- `max_documents` of the tenant. -/
def maxDocuments (p : PlanTables) (tenant : Int) : Int := (getTenantPlan p tenant).maxDocuments

/-- Since a request counted, fewer rows of the tenant have been committed than it found places free. -/
def Timely (tenant : Int) (s : State κ) (e : UploadEvent κ) : Prop :=
  ∀ k publicId now, e = .proceed k (.creates publicId now) →
    ∀ req quota document filePath, s.requests k = .stored req quota document filePath →
      document.tenantId = tenant → (rowsOf s.db.documents tenant : Int) - quota.used < quota.remaining

/-- A count of the tenant that the request relies on has found as many places free as there were. -/
def Counted (p : PlanTables) (tenant : Int) (pc : UploadPc) : Prop :=
  ∀ quota, pc.snapshot = some (tenant, quota) →
    quota.remaining = maxDocuments p tenant - quota.used

/-- The tenant is within its plan, and every request has counted right. -/
structure QuotaInv (p : PlanTables) (tenant : Int) (s : State κ) : Prop where
  within : (rowsOf s.db.documents tenant : Int) ≤ maxDocuments p tenant
  counted : ∀ k, Counted p tenant (s.requests k)

theorem remaining_of_canUpload {documents : List Document}
    (h : (getDocumentQuota p documents tenant).canUpload = true) :
    (getDocumentQuota p documents tenant).remaining =
      maxDocuments p tenant - (getDocumentQuota p documents tenant).used := by
  have hlt : (rowsOf documents tenant : Int) < maxDocuments p tenant := of_decide_eq_true h
  show max 0 (maxDocuments p tenant - rowsOf documents tenant) = _
  exact max_eq_right (by omega)

/-- The ways a step of the system can go. -/
theorem uploadStep_cases {s t : State κ} {e : UploadEvent κ} (h : uploadStep p T s e = some t) :
    (∃ k req, e = .receive k req ∧
      t = { s with requests := Function.update s.requests k (.received req) }) ∨
    (∃ k input pc db, e = .proceed k input ∧ CountMove p s.db (s.requests k) input pc db ∧
      t = ⟨db, Function.update s.requests k pc⟩) := by
  unfold uploadStep at h
  split at h
  · rename_i k req
    left
    split at h
    · exact ⟨k, req, rfl, (Option.some.inj h).symm⟩
    · exact ⟨k, req, rfl, (Option.some.inj h).symm⟩
    · cases h
  · rename_i k input
    right
    obtain ⟨⟨pc, db⟩, hm, rfl⟩ := Option.map_eq_some_iff.mp h
    exact ⟨k, input, pc, db, rfl, requestStep_move hm, rfl⟩

/-- A count that is relied on after a step was relied on before, or has just been taken. -/
theorem snapshot_of_move {db db' : Database} {pc pc' : UploadPc} {input : UploadInput}
    {quota : DocumentQuota} (h : CountMove p db pc input pc' db')
    (hsnapshot : pc'.snapshot = some (tenant, quota)) :
    pc.snapshot = some (tenant, quota) ∨
      (∃ req, pc = .unseen req ∧ input = .go ∧ req.tenantId = tenant) ∧
        quota = getDocumentQuota p db.documents tenant ∧ quota.canUpload = true ∧ db' = db := by
  cases h with
  | keeps _ hkeep =>
    left
    rcases hkeep with hnone | hsame
    · rw [hnone] at hsnapshot
      cases hsnapshot
    · rw [← hsame]
      exact hsnapshot
  | counts hfree =>
    rename_i req
    right
    obtain ⟨rfl, rfl⟩ := Prod.mk.inj (Option.some.inj hsnapshot)
    exact ⟨⟨req, rfl, rfl, rfl⟩, rfl, hfree, rfl⟩
  | commits => cases hsnapshot

/-- The rows are those from before, or a request has committed one more. -/
theorem documents_of_move {db db' : Database} {pc pc' : UploadPc} {input : UploadInput}
    (h : CountMove p db pc input pc' db') :
    db'.documents = db.documents ∨
      ∃ req quota document filePath publicId now task, pc = .stored req quota document filePath ∧
        input = .creates publicId now ∧ pc' = .created req document publicId ∧
        db' = db.commit document task := by
  cases h with
  | keeps hdocuments _ => exact Or.inl hdocuments
  | counts => exact Or.inl rfl
  | commits => exact Or.inr ⟨_, _, _, _, _, _, _, rfl, rfl, rfl, rfl⟩

theorem quotaInv_step {s t : State κ} {e : UploadEvent κ} (h : QuotaInv p tenant s)
    (hP : Timely tenant s e) (ht : uploadStep p T s e = some t) : QuotaInv p tenant t := by
  rcases uploadStep_cases ht with ⟨k, req, rfl, rfl⟩ | ⟨k, input, pc, db, rfl, hmove, rfl⟩
  · refine ⟨h.within, (Function.forall_update_iff s.requests fun _ pc => Counted p tenant pc).mpr ?_⟩
    exact ⟨fun quota hnone => (by cases hnone), fun j _ => h.counted j⟩
  · constructor
    · show (rowsOf db.documents tenant : Int) ≤ _
      rcases documents_of_move hmove with
        hsame | ⟨req, quota, document, filePath, publicId, now, task, hk, rfl, rfl, rfl⟩
      · rw [hsame]
        exact h.within
      · rw [rowsOf_commit]
        split
        · rename_i htenant
          have hfree := hP k publicId now rfl req quota document filePath hk htenant
          have hremaining := h.counted k quota (by rw [hk, ← htenant]; rfl)
          push_cast
          omega
        · exact h.within
    · refine (Function.forall_update_iff s.requests fun _ pc => Counted p tenant pc).mpr
        ⟨fun quota hnew => ?_, fun j _ => h.counted j⟩
      rcases snapshot_of_move hmove hnew with hold | ⟨_, rfl, hfree, _⟩
      · exact h.counted k quota hold
      · exact remaining_of_canUpload hfree

/-- A commit that is not timely goes beyond the plan. -/
theorem beyond_plan {s t : State κ} {e : UploadEvent κ} (h : QuotaInv p tenant s)
    (hP : ¬ Timely tenant s e) (ht : uploadStep p T s e = some t) :
    ¬ (rowsOf t.db.documents tenant : Int) ≤ maxDocuments p tenant := by
  unfold Timely at hP
  push Not at hP
  obtain ⟨k, publicId, now, rfl, req, quota, document, filePath, hk, htenant, hlate⟩ := hP
  have hremaining := h.counted k quota (by rw [hk, ← htenant]; rfl)
  unfold uploadStep at ht
  dsimp only at ht
  rw [hk] at ht
  obtain rfl := Option.some.inj ht
  show ¬ (rowsOf (s.db.commit document _).documents tenant : Int) ≤ _
  rw [rowsOf_commit, if_pos htenant]
  push_cast
  omega

/-- **The quota under concurrency.**  A tenant that starts within its plan is within it in every state of
    a schedule if and only if every commit of the schedule is timely. -/
theorem documents_within_plan_iff (p : PlanTables) (T : PyText) (tenant : Int) {db : Database}
    {es : List (UploadEvent κ)} {s : State κ}
    (hstart : (rowsOf db.documents tenant : Int) ≤ maxDocuments p tenant)
    (hexec : exec (uploadStep p T) (State.init db) es = some s) :
    (∀ pre suf u, es = pre ++ suf → exec (uploadStep p T) (State.init db) pre = some u →
      (rowsOf u.db.documents tenant : Int) ≤ maxDocuments p tenant) ↔
    Run (uploadStep p T) (Timely tenant) (State.init db) es s :=
  good_prefixes_iff_run (I := QuotaInv p tenant) (fun _ h => h.within)
    (fun _ _ _ h hP ht => quotaInv_step h hP ht) (fun _ _ _ h hP ht => beyond_plan h hP ht)
    ⟨hstart, fun k quota hnone => by cases hnone⟩ hexec

/-! ## One upload at a time -/

/-- A request of the tenant counts only while no other one relies on a count. -/
def Alone (tenant : Int) (s : State κ) (e : UploadEvent κ) : Prop :=
  ∀ k req, e = .proceed k .go → s.requests k = .unseen req → req.tenantId = tenant →
    ∀ j quota, (s.requests j).snapshot ≠ some (tenant, quota)

/-- At most one request relies on a count, and that count is up to date. -/
structure SerialInv (tenant : Int) (s : State κ) : Prop where
  single : ∀ j k quota quota', (s.requests j).snapshot = some (tenant, quota) →
    (s.requests k).snapshot = some (tenant, quota') → j = k
  upToDate : ∀ k quota, (s.requests k).snapshot = some (tenant, quota) →
    quota.used = rowsOf s.db.documents tenant ∧ 0 < quota.remaining

/-- What is relied on after a step was relied on before, and the rows are the same. -/
theorem SerialInv.keep {ι : Type} {s t : State ι} (h : SerialInv tenant s)
    (hdocuments : rowsOf t.db.documents tenant = rowsOf s.db.documents tenant)
    (hsnapshot : ∀ k quota, (t.requests k).snapshot = some (tenant, quota) →
      (s.requests k).snapshot = some (tenant, quota)) : SerialInv tenant t := by
  constructor
  · intro j k quota quota' hj hk
    exact h.single j k quota quota' (hsnapshot j quota hj) (hsnapshot k quota' hk)
  · intro k quota hk
    rw [hdocuments]
    exact h.upToDate k quota (hsnapshot k quota hk)

/-- A request counts, and it is the only one. -/
theorem SerialInv.count {s : State κ} {k : κ} {pc : UploadPc}
    (halone : ∀ j quota, (s.requests j).snapshot ≠ some (tenant, quota))
    (hpc : pc.snapshot = some (tenant, getDocumentQuota p s.db.documents tenant))
    (hfree : (getDocumentQuota p s.db.documents tenant).canUpload = true) :
    SerialInv tenant ⟨s.db, Function.update s.requests k pc⟩ := by
  have honly : ∀ j quota, (Function.update s.requests k pc j).snapshot = some (tenant, quota) →
      j = k := by
    intro j quota hj
    by_contra hne
    rw [Function.update_of_ne hne] at hj
    exact halone j quota hj
  constructor
  · intro i j quota quota' hi hj
    exact (honly i quota hi).trans (honly j quota' hj).symm
  · intro j quota hj
    obtain rfl := honly j quota hj
    change (Function.update s.requests j pc j).snapshot = _ at hj
    rw [Function.update_self, hpc] at hj
    obtain rfl := (Prod.mk.inj (Option.some.inj hj)).2
    have hlt : (rowsOf s.db.documents tenant : Int) < maxDocuments p tenant := of_decide_eq_true hfree
    refine ⟨rfl, ?_⟩
    rw [remaining_of_canUpload hfree]
    show 0 < maxDocuments p tenant - (rowsOf s.db.documents tenant : Int)
    omega

/-- The request that relies on the tenant's count commits, and nobody does any more. -/
theorem SerialInv.commit {s : State κ} {k : κ} {pc : UploadPc} {db : Database} {quota : DocumentQuota}
    (h : SerialInv tenant s) (hmine : (s.requests k).snapshot = some (tenant, quota))
    (hpc : pc.snapshot = none) : SerialInv tenant ⟨db, Function.update s.requests k pc⟩ := by
  have hnobody : ∀ j quota', (Function.update s.requests k pc j).snapshot ≠ some (tenant, quota') := by
    intro j quota' hj
    by_cases hjk : j = k
    · subst hjk
      rw [Function.update_self, hpc] at hj
      cases hj
    · rw [Function.update_of_ne hjk] at hj
      exact hjk (h.single j k quota' quota hj hmine)
  exact ⟨fun j _ quota' _ hj => absurd hj (hnobody j quota'),
    fun j quota' hj => absurd hj (hnobody j quota')⟩

theorem serialInv_step {s t : State κ} {e : UploadEvent κ} (h : SerialInv tenant s)
    (hP : Alone tenant s e) (ht : uploadStep p T s e = some t) : SerialInv tenant t := by
  have hback : ∀ k pc, (∀ quota, pc.snapshot = some (tenant, quota) →
        (s.requests k).snapshot = some (tenant, quota)) →
      ∀ j quota, (Function.update s.requests k pc j).snapshot = some (tenant, quota) →
        (s.requests j).snapshot = some (tenant, quota) := by
    intro k pc hpc j quota hj
    exact of_update (p := fun pc => UploadPc.snapshot pc = some (tenant, quota)) (hpc quota) hj
  rcases uploadStep_cases ht with ⟨k, req, rfl, rfl⟩ | ⟨k, input, pc, db, rfl, hmove, rfl⟩
  · exact h.keep rfl (hback k _ fun quota hnone => by cases hnone)
  · rcases documents_of_move hmove with
      hsame | ⟨req, quota, document, filePath, publicId, now, task, hk, rfl, rfl, rfl⟩
    · by_cases hold : ∀ quota, pc.snapshot = some (tenant, quota) →
          (s.requests k).snapshot = some (tenant, quota)
      · exact h.keep (by rw [hsame]) (hback k pc hold)
      · push Not at hold
        obtain ⟨quota, hnew, hold⟩ := hold
        rcases snapshot_of_move hmove hnew with
          hold' | ⟨⟨req, hk, rfl, htenant⟩, rfl, hfree, rfl⟩
        · exact absurd hold' hold
        · exact .count (hP k req rfl hk htenant) hnew hfree
    · by_cases htenant : document.tenantId = tenant
      · have hmine : (s.requests k).snapshot = some (tenant, quota) := by
          rw [hk, ← htenant]
          rfl
        exact h.commit hmine rfl
      · refine h.keep ?_ (hback k _ fun quota' hnone => by cases hnone)
        rw [rowsOf_commit, if_neg htenant, Nat.add_zero]

/-- **Uploads that do not overlap stay within the plan.** -/
theorem serial_uploads_within_plan {db : Database} {es : List (UploadEvent κ)} {s : State κ}
    (hstart : (rowsOf db.documents tenant : Int) ≤ maxDocuments p tenant)
    (hrun : Run (uploadStep p T) (Alone tenant) (State.init db) es s) :
    (rowsOf s.db.documents tenant : Int) ≤ maxDocuments p tenant := by
  have htimely : Run (uploadStep p T) (Timely tenant) (State.init db) es s := by
    refine hrun.strengthen (I := SerialInv tenant) (fun _ _ _ h hP ht => serialInv_step h hP ht) ?_ ?_
    · rintro s e h _ k publicId now rfl req quota document filePath hk htenant
      have hcount := h.upToDate k quota (by rw [hk, ← htenant]; rfl)
      omega
    · exact ⟨fun _ _ _ _ hnone => (by cases hnone), fun _ _ hnone => (by cases hnone)⟩
  have hinv := htimely.invariant (I := QuotaInv p tenant)
    (fun _ _ _ h hP ht => quotaInv_step h hP ht) ⟨hstart, fun k quota hnone => by cases hnone⟩
  exact hinv.within

end Quota

/-! ## Two requests for one place -/

/-- Tenant 7 may have one document. -/
def onePlace : PlanTables := ⟨[⟨"free", 1⟩], []⟩

def emptyDatabase : Database := ⟨[], [], [], [], 1⟩

def sampleUpload (sha : String) : UploadRequest := ⟨7, 1, "tesla Q3.pdf", sha, 10⟩

abbrev sampleUploadStep := uploadStep (κ := Bool) onePlace .ascii

/-- A test that only timely commits of tenant 7 pass. -/
def timelyTest (s : State Bool) : UploadEvent Bool → Bool
  | .proceed k (.creates _ _) =>
    match s.requests k with
    | .stored _ quota document _ =>
      document.tenantId != 7 || decide ((rowsOf s.db.documents 7 : Int) - quota.used < quota.remaining)
    | _ => true
  | _ => true

theorem timely_of_test (s : State Bool) (e : UploadEvent Bool) (h : timelyTest s e = true) :
    Timely 7 s e := by
  rintro k publicId now rfl req quota document filePath hk htenant
  simp only [timelyTest, hk, htenant] at h
  simpa using h

/-- The second request comes after the first. -/
def oneAfterTheOther : List (UploadEvent Bool) :=
  [.receive true (sampleUpload "ab"), .proceed true .go, .proceed true .go, .proceed true .go,
    .proceed true (.stores "/uploads/7/1-x/tesla Q3.pdf"), .proceed true (.creates "d1" 1),
    .receive false (sampleUpload "cd"), .proceed false .go, .proceed false .go, .proceed true .go]

/-- Both requests count before either commits. -/
def bothCountFirst : List (UploadEvent Bool) :=
  [.receive true (sampleUpload "ab"), .receive false (sampleUpload "cd"),
    .proceed true .go, .proceed false .go, .proceed true .go, .proceed false .go,
    .proceed true .go, .proceed true (.stores "/uploads/7/1-x/tesla Q3.pdf"),
    .proceed true (.creates "d1" 1),
    .proceed false .go, .proceed false (.stores "/uploads/7/2-y/tesla Q3.pdf"),
    .proceed false (.creates "d2" 2)]

/-- The second request is refused. -/
theorem oneAfterTheOther_within_plan :
    ∃ s, exec sampleUploadStep (State.init emptyDatabase) oneAfterTheOther = some s ∧
      s.requests false = .done (.error 429 "Upload limit exceeded. Upgrade your plan.") ∧
      ∀ pre suf u, oneAfterTheOther = pre ++ suf →
        exec sampleUploadStep (State.init emptyDatabase) pre = some u →
        (rowsOf u.db.documents 7 : Int) ≤ maxDocuments onePlace 7 := by
  have hexec : ∃ s, execIf timelyTest sampleUploadStep (State.init emptyDatabase) oneAfterTheOther =
        some s ∧
      exec sampleUploadStep (State.init emptyDatabase) oneAfterTheOther = some s ∧
      s.requests false = .done (.error 429 "Upload limit exceeded. Upgrade your plan.") :=
    ⟨_, rfl, rfl, rfl⟩
  obtain ⟨s, hif, hs, hrefused⟩ := hexec
  exact ⟨s, hs, hrefused, (documents_within_plan_iff onePlace .ascii 7 (by decide +kernel) hs).mpr
    (run_of_execIf timely_of_test hif)⟩

/-- Both requests see the one free place, and both get it. -/
theorem quota_overrun :
    (rowsOf emptyDatabase.documents 7 : Int) ≤ maxDocuments onePlace 7 ∧
    ∃ s, exec sampleUploadStep (State.init emptyDatabase) bothCountFirst = some s ∧
      ¬ (rowsOf s.db.documents 7 : Int) ≤ maxDocuments onePlace 7 := by
  refine ⟨by decide +kernel, _, rfl, ?_⟩
  decide +kernel

end FinancialRag.Api.Upload
