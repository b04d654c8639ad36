/-
  The durable task row (`models/task.py`) and the repository that is the ONLY writer of it
  (`tasks/repository.py`).

  Two levels, tied together at the end of the file:
    * the row operations `Task.claim` / `Task.update` / `Task.recover` — what one COMMIT does to the
      one row it loaded (the ORM writes back the assigned columns of that row and nothing else);
    * the table operations `claimTask` / `updateTask` / `staleTasks` / `writeRecovered` — which row a
      query selects, as the code states it.

  `TaskTable` carries the UNIQUE constraint on `public_id` as a field, so a table with two rows of
  one id cannot be built.  `getTask_updateTask`, `getTask_claimTask` and `getTask_writeRecovered` say
  that every table operation acts on any one row as the row operation or not at all: a protocol
  about ONE row (the worker model) is therefore a projection of the table, not a simplification.

  Times are seconds on an arbitrary clock (`Int`): workers on several hosts do not share one, so no
  result here may use that a later commit carries a larger stamp.
-/
import Mathlib.Data.List.Sort

set_option linter.unusedVariables false

namespace FinancialRag.Tasks

/-! ## The row -/

inductive TaskStatus where
  | pending | running | success | failed
  deriving DecidableEq, Repr

inductive TaskType where
  | processDocument | refreshKnowledge | agentTask
  deriving DecidableEq, Repr

/-- The text stored in the `task_type` column. -/
def TaskType.value : TaskType → String
  | .processDocument => "process_document"
  | .refreshKnowledge => "refresh_knowledge"
  | .agentTask => "agent_task"

/-- `TaskTypeEnum(value)`; `none` stands for the `ValueError` of an unknown text. -/
def TaskType.ofValue (s : String) : Option TaskType :=
  if s = "process_document" then some .processDocument
  else if s = "refresh_knowledge" then some .refreshKnowledge
  else if s = "agent_task" then some .agentTask
  else none

theorem TaskType.ofValue_value (ty : TaskType) : TaskType.ofValue ty.value = some ty := by
  cases ty <;> decide

/-- The keys of the JSON payload that the handlers read with `payload.get`. -/
structure TaskPayload where
  question : Option String := none
  threadId : Option String := none
  filePath : Option String := none
  documentId : Option Int := none
  contentSha256 : Option String := none
  deriving DecidableEq, Repr

/-- The JSON result: `{}` until a handler stores one. -/
inductive TaskResult where
  | empty
  | agent (answer threadId : String) (toolsUsed sources companies : List String)
      (qualityScore duration : Rat)
  | document (chunks : Nat) (company : String) (documentId : Option Int)
  deriving DecidableEq, Repr

structure Task where
  publicId : String
  taskType : String
  status : TaskStatus
  tenantId : Int
  userId : Int
  progress : Int
  errorMessage : Option String
  payload : TaskPayload
  result : TaskResult
  createdAt : Int
  updatedAt : Int
  startedAt : Option Int
  completedAt : Option Int
  workerId : Option String
  lockedAt : Option Int
  retryCount : Nat
  deriving DecidableEq, Repr

/-- The row `create_task` inserts: PENDING, every nullable column NULL, every default in place. -/
def newTask (publicId : String) (taskType : TaskType) (payload : TaskPayload)
    (tenantId userId now : Int) : Task where
  publicId := publicId
  taskType := taskType.value
  status := .pending
  tenantId := tenantId
  userId := userId
  progress := 0
  errorMessage := none
  payload := payload
  result := .empty
  createdAt := now
  updatedAt := now
  startedAt := none
  completedAt := none
  workerId := none
  lockedAt := none
  retryCount := 0

/-! ## The row operations: one commit each -/

/-- The keyword arguments of `update_task`; `none` is the default `None`, "leave the column". -/
structure TaskUpdate where
  status : Option TaskStatus := none
  progress : Option Int := none
  errorMessage : Option String := none
  result : Option TaskResult := none
  deriving DecidableEq, Repr

/-- `claim_task`'s assignments to the row it selected. -/
def Task.claim (t : Task) (now : Int) : Task :=
  { t with status := .running, startedAt := some now, updatedAt := now }

/-- `update_task`'s assignments.  Nothing is ever CLEARED: an absent argument keeps the column. -/
def Task.update (t : Task) (u : TaskUpdate) (now : Int) : Task :=
  { t with
    status := u.status.getD t.status
    completedAt :=
      if u.status = some .success ∨ u.status = some .failed then some now else t.completedAt
    progress := u.progress.getD t.progress
    errorMessage := u.errorMessage.or t.errorMessage
    result := u.result.getD t.result
    updatedAt := now }

/-- `recover_stale_tasks`' assignments to a row it had read as stale. -/
def Task.recover (t : Task) (now : Int) : Task :=
  { t with status := .pending, startedAt := none, updatedAt := now }

/-- The worker's `worker_id` / `locked_at` commit right after its claim. -/
def Task.lock (t : Task) (workerId : String) (now : Int) : Task :=
  { t with workerId := some workerId, lockedAt := some now }

/-- The filter of `recover_stale_tasks`: RUNNING and started before the threshold.  A NULL
    `started_at` compares as unknown in SQL, so such a row is not selected. -/
def Task.isStale (t : Task) (threshold : Int) : Bool :=
  t.status == .running && t.startedAt.any (· < threshold)

section RowLemmas

variable (t : Task) (u : TaskUpdate) (s : String) (now : Int)

@[simp] theorem Task.claim_publicId : (t.claim now).publicId = t.publicId := rfl
@[simp] theorem Task.claim_status : (t.claim now).status = .running := rfl
@[simp] theorem Task.claim_retryCount : (t.claim now).retryCount = t.retryCount := rfl
@[simp] theorem Task.update_publicId : (t.update u now).publicId = t.publicId := rfl
@[simp] theorem Task.update_status : (t.update u now).status = u.status.getD t.status := rfl
@[simp] theorem Task.update_retryCount : (t.update u now).retryCount = t.retryCount := rfl
@[simp] theorem Task.update_startedAt : (t.update u now).startedAt = t.startedAt := rfl
@[simp] theorem Task.recover_publicId : (t.recover now).publicId = t.publicId := rfl
@[simp] theorem Task.recover_status : (t.recover now).status = .pending := rfl
@[simp] theorem Task.recover_retryCount : (t.recover now).retryCount = t.retryCount := rfl
@[simp] theorem Task.lock_status : (t.lock s now).status = t.status := rfl
@[simp] theorem Task.lock_retryCount : (t.lock s now).retryCount = t.retryCount := rfl
@[simp] theorem Task.lock_startedAt : (t.lock s now).startedAt = t.startedAt := rfl

end RowLemmas

/-! ## The table and its queries -/

/-- The `tasks` table; the UNIQUE constraint on `public_id` is part of the type. -/
structure TaskTable where
  rows : List Task
  publicIdNodup : (rows.map Task.publicId).Nodup

/-- Apply `f` to the rows selected by `p`; `f` must keep the key. -/
def TaskTable.modify (db : TaskTable) (p : Task → Bool) (f : Task → Task)
    (hf : ∀ t, (f t).publicId = t.publicId) : TaskTable where
  rows := db.rows.map fun t => if p t then f t else t
  publicIdNodup := by
    have hkeys : (db.rows.map fun t => if p t then f t else t).map Task.publicId
        = db.rows.map Task.publicId := by
      rw [List.map_map]
      apply List.map_congr_left
      intro t _
      simp only [Function.comp_apply]
      split
      · exact hf t
      · rfl
    rw [hkeys]
    exact db.publicIdNodup

def getTask (db : TaskTable) (taskId : String) : Option Task :=
  db.rows.find? fun t => t.publicId == taskId

/-- `create_task`; the `Except` branches are its `ValueError` and the violated UNIQUE constraint. -/
def createTask (db : TaskTable) (publicId : String) (taskType : TaskType) (payload : TaskPayload)
    (tenantId : Option Int) (userId now : Int) : Except String (Task × TaskTable) :=
  match tenantId with
  | none => .error "tenant_id is required to create a task"
  | some tenant =>
    let task := newTask publicId taskType payload tenant userId now
    if h : task.publicId ∈ db.rows.map Task.publicId then
      .error "UNIQUE constraint failed: tasks.public_id"
    else
      .ok (task, { rows := task :: db.rows, publicIdNodup := List.nodup_cons.mpr ⟨h, db.publicIdNodup⟩ })

/-- The rows `claim_task`'s query selects, oldest first. -/
def claimable (db : TaskTable) (taskId : Option String) : List Task :=
  (db.rows.filter fun t => t.status == .pending && taskId.all (t.publicId == ·)).insertionSort
    fun a b => a.createdAt ≤ b.createdAt

/-- `claim_task`: the first claimable row becomes RUNNING in the same transaction that read it
    (`FOR UPDATE SKIP LOCKED` + commit). -/
def claimTask (db : TaskTable) (taskId : Option String) (now : Int) : Option Task × TaskTable :=
  match (claimable db taskId).head? with
  | none => (none, db)
  | some task =>
    (some (task.claim now),
      db.modify (fun t => t.publicId == task.publicId) (·.claim now) fun t => t.claim_publicId now)

def updateTask (db : TaskTable) (taskId : String) (u : TaskUpdate) (now : Int) :
    Option Task × TaskTable :=
  match getTask db taskId with
  | none => (none, db)
  | some task =>
    (some (task.update u now),
      db.modify (fun t => t.publicId == taskId) (·.update u now) fun t => t.update_publicId u now)

/-- The READ half of `recover_stale_tasks`. -/
def staleTasks (db : TaskTable) (threshold : Int) : List Task :=
  db.rows.filter (·.isStale threshold)

/-- The WRITE half: the loaded rows go back to PENDING, whatever they have become meanwhile. -/
def writeRecovered (db : TaskTable) (stale : List Task) (now : Int) : TaskTable :=
  db.modify (fun t => (stale.map Task.publicId).contains t.publicId) (·.recover now)
    fun t => t.recover_publicId now

def recoverStaleTasks (db : TaskTable) (staleAfterSeconds now : Int) :
    Except String (Nat × TaskTable) :=
  if staleAfterSeconds ≤ 0 then .error "stale_after_seconds must be greater than zero"
  else
    let stale := staleTasks db (now - staleAfterSeconds)
    .ok (stale.length, writeRecovered db stale now)

/-! ## Every table operation is a row operation on the row it touches -/

/-- Reading back a modified table: the row itself, modified when it was selected. -/
theorem getTask_modify (db : TaskTable) (p : Task → Bool) (f : Task → Task)
    (hf : ∀ t, (f t).publicId = t.publicId) (id : String) :
    getTask (db.modify p f hf) id = (getTask db id).map fun t => if p t then f t else t := by
  unfold getTask TaskTable.modify
  rw [List.find?_map]
  congr 2
  funext t
  simp only [Function.comp_apply]
  split
  · rw [hf t]
  · rfl

theorem getTask_publicId {db : TaskTable} {id : String} {t : Task} (h : getTask db id = some t) :
    t.publicId = id := by
  have := List.find?_some h
  simpa using this

/-- A row of the table is what `get_task` returns for its own id (the ids are unique). -/
theorem getTask_of_mem {db : TaskTable} {t : Task} (h : t ∈ db.rows) :
    getTask db t.publicId = some t := by
  obtain ⟨rows, hnd⟩ := db
  unfold getTask
  induction rows with
  | nil => exact absurd h List.not_mem_nil
  | cons r rows ih =>
    obtain ⟨hr, hnd'⟩ := List.nodup_cons.mp hnd
    rcases List.mem_cons.mp h with h | h
    · subst h; simp
    · have hne : r.publicId ≠ t.publicId := by
        intro heq
        exact hr (heq ▸ List.mem_map_of_mem h)
      rw [List.find?_cons_of_neg (by simpa using hne)]
      exact ih hnd' h

/-- `update_task` touches the row of its id and no other. -/
theorem getTask_updateTask (db : TaskTable) (id id' : String) (u : TaskUpdate) (now : Int) :
    getTask (updateTask db id u now).2 id' =
      if id' = id then (getTask db id).map (·.update u now) else getTask db id' := by
  unfold updateTask
  split
  · rename_i hnone
    split
    · rename_i h; subst h; rw [hnone]; rfl
    · rfl
  · rename_i task hsome
    rw [getTask_modify]
    split
    · rename_i h
      subst h
      rw [hsome]
      simp [getTask_publicId hsome]
    · rename_i hne
      cases ht : getTask db id' with
      | none => rfl
      | some t => simp [getTask_publicId ht, hne]

/-- A claimed row was a PENDING row of the table (and the asked-for one when an id was given). -/
theorem claimable_spec {db : TaskTable} {taskId : Option String} {t : Task}
    (h : (claimable db taskId).head? = some t) :
    t ∈ db.rows ∧ t.status = .pending ∧ ∀ id, taskId = some id → t.publicId = id := by
  have hmem : t ∈ claimable db taskId := List.mem_of_mem_head? h
  rw [claimable, (List.perm_insertionSort _ _).mem_iff, List.mem_filter] at hmem
  obtain ⟨hrow, hsel⟩ := hmem
  simp only [Bool.and_eq_true, beq_iff_eq] at hsel
  refine ⟨hrow, hsel.1, ?_⟩
  intro id hid
  subst hid
  simpa using hsel.2

/-- **A claim is a PENDING → RUNNING step of exactly one row.**  Every other row is unchanged, and
    when nothing is returned nothing has changed. -/
theorem getTask_claimTask (db : TaskTable) (taskId : Option String) (now : Int) (id : String) :
    getTask (claimTask db taskId now).2 id = getTask db id ∨
      ∃ t, getTask db id = some t ∧ t.status = .pending ∧
        (claimTask db taskId now).1 = some (t.claim now) ∧
        getTask (claimTask db taskId now).2 id = some (t.claim now) := by
  unfold claimTask
  split
  · exact Or.inl rfl
  · rename_i task hhead
    obtain ⟨hrow, hpend, -⟩ := claimable_spec hhead
    rw [getTask_modify]
    by_cases hid : task.publicId = id
    · right
      subst hid
      refine ⟨task, getTask_of_mem hrow, hpend, rfl, ?_⟩
      rw [getTask_of_mem hrow]
      simp
    · left
      cases ht : getTask db id with
      | none => rfl
      | some t =>
        have hne : ¬ t.publicId = task.publicId := by
          rw [getTask_publicId ht]
          exact fun h => hid h.symm
        simp [hne]

/-- Claiming by id succeeds exactly on a PENDING row: the compare-and-set the workers rely on. -/
theorem claimTask_some_iff (db : TaskTable) (id : String) (now : Int) :
    (claimTask db (some id) now).1.isSome ↔ ∃ t, getTask db id = some t ∧ t.status = .pending := by
  constructor
  · intro h
    unfold claimTask at h
    split at h
    · exact absurd h (by simp)
    · rename_i task hhead
      obtain ⟨hrow, hpend, hid⟩ := claimable_spec hhead
      exact ⟨task, by rw [← hid id rfl]; exact getTask_of_mem hrow, hpend⟩
  · rintro ⟨t, ht, hpend⟩
    have hmem : t ∈ claimable db (some id) := by
      rw [claimable, (List.perm_insertionSort _ _).mem_iff, List.mem_filter]
      exact ⟨List.mem_of_find?_eq_some ht, by simp [hpend, getTask_publicId ht]⟩
    unfold claimTask
    split
    · rename_i hnone
      rw [List.head?_eq_none_iff] at hnone
      rw [hnone] at hmem
      exact absurd hmem List.not_mem_nil
    · rfl

/-- The recovery write sends every row it had read back to PENDING and touches no other. -/
theorem getTask_writeRecovered (db : TaskTable) (stale : List Task) (now : Int) (id : String) :
    getTask (writeRecovered db stale now) id =
      (getTask db id).map fun t => if id ∈ stale.map Task.publicId then t.recover now else t := by
  rw [writeRecovered, getTask_modify]
  cases ht : getTask db id with
  | none => rfl
  | some t => simp [getTask_publicId ht]

end FinancialRag.Tasks
