/-
  Usage records in batches (`services/usage_service.py`, `models/usage.py`).

  A batch is added to a session record by record and committed at the end, with a counter that runs along.
  What can go wrong is an argument: `fails` says at which points the code raises.  The counter is not set back
  when the session is, so the number that is returned is the number of records that were stored only if the
  batch went through or had not begun (`record_batch_usage_truthful_iff`).
-/
import FinancialRag.Lib.Dict

set_option linter.unusedVariables false

namespace FinancialRag.Services.Usage

/-! ## Events and records -/

/-- What `event` holds under a key; `None` is `none`. -/
abbrev Event (α : Type) := Dict String (Option α)

/-- What the code does with a value that is not `None`.  Where `json.dumps` raises, the record cannot be built. -/
structure Values (α : Type) where
  truthy : α → Bool
  ofString : String → α
  ofInt : Int → α
  dumps : α → String

/-- `UsageRecord`, without the columns the database fills in. -/
structure UsageRecord (α : Type) where
  tenantId : α
  userId : Option α
  eventType : Option α
  resourceType : Option α
  quantity : Option α
  metaText : String
  deriving DecidableEq

variable {α : Type}

/-- `event.get(key)`. -/
def Event.value (event : Event α) (key : String) : Option α := (event.get key).join

/-- `event.get(key, default)`: a `None` that is there stays. -/
def Event.valueOr (event : Event α) (key : String) (default : α) : Option α := (event.get key).getD (some default)

/-- `record.meta = meta`, which is left out for an empty one. -/
def metaOf (values : Values α) (event : Event α) : String :=
  match event.value "metadata" with
  | some metadata => if values.truthy metadata then values.dumps metadata else "\x7b\x7d"
  | none => "\x7b\x7d"

def recordOf (values : Values α) (event : Event α) (tenantId : α) : UsageRecord α where
  tenantId := tenantId
  userId := event.value "user_id"
  eventType := event.valueOr "event_type" (values.ofString "unknown")
  resourceType := event.valueOr "resource_type" (values.ofString "generic")
  quantity := event.valueOr "quantity" (values.ofInt 1)
  metaText := metaOf values event

/-! ## The session -/

/-- The rows of `usage_records`, and what was added to the session and is not committed yet. -/
structure Session (α : Type) where
  table : List (UsageRecord α)
  pending : List (UsageRecord α)

namespace Session

def add (s : Session α) (record : UsageRecord α) : Session α := { s with pending := s.pending ++ [record] }

def commit (s : Session α) : Session α := ⟨s.table ++ s.pending, []⟩

def rollback (s : Session α) : Session α := { s with pending := [] }

/-- A session that is closed gives up what is pending. -/
def close (s : Session α) : Session α := { s with pending := [] }

@[simp] theorem add_pending (s : Session α) (record : UsageRecord α) :
    (s.add record).pending = s.pending ++ [record] := rfl

end Session

/-- Where the code can raise; an event is named by its place in the batch. -/
inductive Point where
  | opening
  | building (index : Nat)
  | adding (index : Nat)
  | committing
  | rollingBack
  | closing
  deriving DecidableEq

/-! ## The batch -/

/-- The local variables of the loop, and whether it was left by an exception. -/
structure Run (α : Type) where
  session : Session α
  count : Nat
  failed : Bool

variable (values : Values α) (fails : Point → Bool)

/-- `for event in events`. -/
def addEvents : Nat → List (Event α) → Session α → Nat → Run α
  | _, [], s, count => ⟨s, count, false⟩
  | index, event :: events, s, count =>
    match event.value "tenant_id" with
    | none => addEvents (index + 1) events s count
    | some tenantId =>
      if fails (.building index) then ⟨s, count, true⟩
      else if fails (.adding index) then ⟨s, count, true⟩
      else addEvents (index + 1) events (s.add (recordOf values event tenantId)) (count + 1)

/-- What the call leaves behind: the number it returned, or none if it raised. -/
structure Outcome (α : Type) where
  returned : Option Nat
  session : Session α

/-- The `try` with its `except`. -/
def commitOrRollback (run : Run α) : Outcome α :=
  if run.failed || fails .committing then
    if fails .rollingBack then ⟨none, run.session⟩ else ⟨some run.count, run.session.rollback⟩
  else ⟨some run.count, run.session.commit⟩

/-- `finally`: a session of its own is closed. -/
def closing (owned : Bool) (outcome : Outcome α) : Outcome α :=
  if owned then ⟨if fails .closing then none else outcome.returned, outcome.session.close⟩ else outcome

/-- `record_batch_usage`, in the session of a caller who has `db` pending in it, or in one of its own. -/
def recordBatchUsage (events : List (Event α)) (table : List (UsageRecord α)) (db : Option (List (UsageRecord α))) :
    Outcome α :=
  if events.isEmpty then ⟨some 0, ⟨table, db.getD []⟩⟩
  else if db.isNone && fails .opening then ⟨none, ⟨table, []⟩⟩
  else
    closing fails db.isNone (commitOrRollback fails (addEvents values fails 0 events ⟨table, db.getD []⟩ 0))

/-! ## What the loop does -/

/-- The events that are recorded: those of a tenant. -/
def recorded : Nat → List (Event α) → List Nat
  | _, [] => []
  | index, event :: events =>
    if (event.value "tenant_id").isSome then index :: recorded (index + 1) events else recorded (index + 1) events

/-- The event does not become a pending record. -/
def breaks (index : Nat) : Bool := fails (.building index) || fails (.adding index)

/-- What the loop did when it ends: it stops at the first event that breaks. -/
structure Added (index : Nat) (events : List (Event α)) (s : Session α) (count : Nat) (run : Run α) : Prop where
  table : run.session.table = s.table
  pending : ∃ added, run.session.pending = s.pending ++ added ∧ run.count = count + added.length ∧
    (added = [] ↔ (recorded index events).head?.all (breaks fails) = true)
  failed : run.failed = true ↔ ∃ i ∈ recorded index events, breaks fails i = true

theorem addEvents_of_tenant {event : Event α} {tenantId : α} (htenant : event.value "tenant_id" = some tenantId)
    (index : Nat) (events : List (Event α)) (s : Session α) (count : Nat) :
    addEvents values fails index (event :: events) s count =
      if breaks fails index then ⟨s, count, true⟩
      else addEvents values fails (index + 1) events (s.add (recordOf values event tenantId)) (count + 1) := by
  simp only [addEvents, htenant]
  by_cases hbuild : fails (.building index) = true
  · rw [if_pos hbuild, if_pos (by simp [breaks, hbuild])]
  · rw [if_neg hbuild]
    by_cases hadd : fails (.adding index) = true
    · rw [if_pos hadd, if_pos (by simp [breaks, hadd])]
    · rw [if_neg hadd, if_neg (by simp [breaks, hbuild, hadd])]

theorem addEvents_added (index : Nat) (events : List (Event α)) (s : Session α) (count : Nat) :
    Added fails index events s count (addEvents values fails index events s count) := by
  induction events generalizing index s count with
  | nil => exact ⟨rfl, ⟨[], by simp [addEvents, recorded]⟩, by simp [addEvents, recorded]⟩
  | cons event events ih =>
    cases htenant : event.value "tenant_id" with
    | none =>
      have hskip : recorded index (event :: events) = recorded (index + 1) events := by simp [recorded, htenant]
      simp only [addEvents, htenant]
      obtain ⟨htable, hpending, hfailed⟩ := ih (index + 1) s count
      exact ⟨htable, hskip ▸ hpending, hskip ▸ hfailed⟩
    | some tenantId =>
      have hrecorded : recorded index (event :: events) = index :: recorded (index + 1) events := by
        simp [recorded, htenant]
      rw [addEvents_of_tenant values fails htenant]
      -- the loop is left here, or the record is pending and counted
      cases hbreaks : breaks fails index with
      | true =>
        rw [if_pos rfl]
        exact ⟨rfl, ⟨[], by simp [hrecorded, hbreaks]⟩, by simp [hrecorded, hbreaks]⟩
      | false =>
        rw [if_neg Bool.false_ne_true]
        obtain ⟨htable, ⟨added, hpending, hcount, -⟩, hfailed⟩ :=
          ih (index + 1) (s.add (recordOf values event tenantId)) (count + 1)
        refine ⟨htable, ⟨recordOf values event tenantId :: added, ?_, ?_, ?_⟩, ?_⟩
        · simpa using hpending
        · rw [hcount, List.length_cons]
          omega
        · simp [hrecorded, hbreaks]
        · simpa [hrecorded, hbreaks] using hfailed

/-! ## The number that is returned -/

/-- What the call itself made persistent: the rows behind those of the table and of the caller. -/
def persisted (table : List (UsageRecord α)) (db : Option (List (UsageRecord α))) (outcome : Outcome α) :
    List (UsageRecord α) :=
  outcome.session.table.drop (table.length + (db.getD []).length)

/-- Some event breaks, or the commit does. -/
def Fails (events : List (Event α)) : Prop :=
  (∃ index ∈ recorded 0 events, breaks fails index = true) ∨ fails .committing = true

/-- The number is the number of records that were stored, and a batch that fails stores none. -/
def Truthful (events : List (Event α)) (table : List (UsageRecord α)) (db : Option (List (UsageRecord α))) : Prop :=
  (recordBatchUsage values fails events table db).returned =
      some (persisted table db (recordBatchUsage values fails events table db)).length ∧
    (Fails fails events → persisted table db (recordBatchUsage values fails events table db) = [])

section Outcomes

variable {values : Values α} {fails : Point → Bool} {events : List (Event α)} {table : List (UsageRecord α)}
  {db : Option (List (UsageRecord α))}

/-- The batch, before the session is closed. -/
def body (values : Values α) (fails : Point → Bool) (events : List (Event α)) (table : List (UsageRecord α))
    (db : Option (List (UsageRecord α))) : Outcome α :=
  commitOrRollback fails (addEvents values fails 0 events ⟨table, db.getD []⟩ 0)

theorem body_of_not_fails (values : Values α) (table : List (UsageRecord α)) (db : Option (List (UsageRecord α)))
    (h : ¬ Fails fails events) :
    ∃ added, body values fails events table db = ⟨some added.length, ⟨table ++ (db.getD [] ++ added), []⟩⟩ := by
  obtain ⟨htable, ⟨added, hpending, hcount, -⟩, hfailed⟩ :=
    addEvents_added values fails 0 events ⟨table, db.getD []⟩ 0
  have hgoes : ¬ ((addEvents values fails 0 events ⟨table, db.getD []⟩ 0).failed || fails .committing) = true := by
    rw [Bool.or_eq_true, hfailed]
    exact h
  refine ⟨added, ?_⟩
  rw [body, commitOrRollback, if_neg hgoes, hcount, Nat.zero_add, Session.commit, htable, hpending]

theorem body_of_fails (values : Values α) (table : List (UsageRecord α)) (db : Option (List (UsageRecord α)))
    (h : Fails fails events) :
    ∃ added : List (UsageRecord α), (added = [] ↔ (recorded 0 events).head?.all (breaks fails) = true) ∧
      (body values fails events table db).session.table = table ∧
      (body values fails events table db).returned = if fails .rollingBack then none else some added.length := by
  obtain ⟨htable, ⟨added, -, hcount, hfirst⟩, hfailed⟩ :=
    addEvents_added values fails 0 events ⟨table, db.getD []⟩ 0
  have hgoes : ((addEvents values fails 0 events ⟨table, db.getD []⟩ 0).failed || fails .committing) = true := by
    rw [Bool.or_eq_true, hfailed]
    exact h
  refine ⟨added, hfirst, ?_⟩
  rw [body, commitOrRollback, if_pos hgoes, hcount, Nat.zero_add]
  split
  · exact ⟨htable, rfl⟩
  · exact ⟨htable, rfl⟩

theorem closing_table (owned : Bool) (outcome : Outcome α) :
    (closing fails owned outcome).session.table = outcome.session.table := by
  cases owned
  · rfl
  · rfl

theorem closing_returned (owned : Bool) (outcome : Outcome α) :
    (closing fails owned outcome).returned = if owned && fails .closing then none else outcome.returned := by
  cases owned
  · rfl
  · rfl

theorem persisted_of_table {outcome : Outcome α} {added : List (UsageRecord α)}
    (h : outcome.session.table = table ++ (db.getD [] ++ added)) : persisted table db outcome = added := by
  rw [persisted, h, ← List.append_assoc, ← List.length_append, List.drop_left]

theorem persisted_of_table_eq {outcome : Outcome α} (h : outcome.session.table = table) :
    persisted table db outcome = [] := by
  rw [persisted, h]
  exact List.drop_eq_nil_of_le (Nat.le_add_right _ _)

/-- **A batch that fails stores nothing**, wherever it fails. -/
theorem persisted_of_fails (h : Fails fails events) :
    persisted table db (recordBatchUsage values fails events table db) = [] := by
  refine persisted_of_table_eq ?_
  unfold recordBatchUsage
  split
  · rfl
  · split
    · rfl
    · obtain ⟨_, -, htable, -⟩ := body_of_fails values table db h
      exact (closing_table db.isNone _).trans htable

/-- The session works as far as the call has to do with it: one of its own is opened and closed. -/
def SessionWorks (fails : Point → Bool) (db : Option (List (UsageRecord α))) : Prop :=
  db = none → fails .opening = false ∧ fails .closing = false

theorem returned_of_not_sessionWorks (hne : events ≠ []) (h : ¬ SessionWorks fails db) :
    (recordBatchUsage values fails events table db).returned = none := by
  obtain ⟨rfl, hfails⟩ := Classical.not_imp.mp h
  unfold recordBatchUsage
  rw [if_neg (by simpa using hne)]
  split
  · rfl
  · rename_i hopens
    have hcloses : fails .closing = true := by
      cases hclosing : fails .closing with
      | true => rfl
      | false => exact absurd ⟨by simpa using hopens, hclosing⟩ hfails
    rw [closing_returned, hcloses]
    rfl

theorem recordBatchUsage_of_sessionWorks (values : Values α) (table : List (UsageRecord α))
    (db : Option (List (UsageRecord α))) (hne : events ≠ []) (h : SessionWorks fails db) :
    (recordBatchUsage values fails events table db).returned = (body values fails events table db).returned ∧
      (recordBatchUsage values fails events table db).session.table =
        (body values fails events table db).session.table := by
  have hopens : ¬ (db.isNone && fails .opening) = true := by
    rw [Bool.and_eq_true, Option.isNone_iff_eq_none]
    rintro ⟨hown, hfails⟩
    rw [(h hown).1] at hfails
    cases hfails
  have hcloses : ¬ (db.isNone && fails .closing) = true := by
    rw [Bool.and_eq_true, Option.isNone_iff_eq_none]
    rintro ⟨hown, hfails⟩
    rw [(h hown).2] at hfails
    cases hfails
  unfold recordBatchUsage
  rw [if_neg (by simpa using hne), if_neg hopens, closing_returned, if_neg hcloses, closing_table]
  exact ⟨rfl, rfl⟩

/-- The batch goes through, or it fails before any record was added. -/
def ThroughOrNotBegun (fails : Point → Bool) (events : List (Event α)) : Prop :=
  ¬ Fails fails events ∨
    (fails .rollingBack = false ∧ (recorded 0 events).head?.all (breaks fails) = true)

/-- **When the number is right.** -/
theorem record_batch_usage_truthful_iff (values : Values α) (fails : Point → Bool) (events : List (Event α))
    (table : List (UsageRecord α)) (db : Option (List (UsageRecord α))) :
    Truthful values fails events table db ↔
      events = [] ∨ (SessionWorks fails db ∧ ThroughOrNotBegun fails events) := by
  by_cases hne : events = []
  · subst hne
    refine iff_of_true ⟨?_, persisted_of_fails⟩ (Or.inl rfl)
    have hstored : persisted table db (recordBatchUsage values fails [] table db) = [] := persisted_of_table_eq rfl
    rw [hstored]
    rfl
  rw [or_iff_right hne]
  by_cases hworks : SessionWorks fails db
  · obtain ⟨hreturned, htable⟩ := recordBatchUsage_of_sessionWorks values table db hne hworks
    rw [and_iff_right hworks, Truthful, and_iff_left persisted_of_fails, hreturned]
    by_cases hfails : Fails fails events
    · -- nothing is stored, so the counter must not have moved
      obtain ⟨added, hfirst, -, hcount⟩ := body_of_fails values table db hfails
      rw [persisted_of_fails hfails, hcount, ThroughOrNotBegun, or_iff_right (not_not_intro hfails), ← hfirst]
      cases hrolls : fails .rollingBack with
      | true => simp
      | false => simp
    · obtain ⟨added, hbody⟩ := body_of_not_fails values table db hfails
      rw [hbody] at htable
      rw [persisted_of_table htable, hbody]
      exact iff_of_true rfl (Or.inl hfails)
  · refine iff_of_false (fun h => ?_) fun h => hworks h.1
    rw [Truthful, returned_of_not_sessionWorks hne hworks] at h
    cases h.1

/-- An event of one tenant, and values that are texts. -/
def sampleEvent : Event String := Dict.empty.set "tenant_id" (some "1")

def sampleValues : Values String := ⟨fun text => decide (text ≠ ""), id, toString, id⟩

/-- **One event, and the commit fails**: it is counted, and it is not stored. -/
theorem record_batch_usage_miscounts :
    (recordBatchUsage sampleValues (fun point => decide (point = .committing)) [sampleEvent] [] (some [])).returned =
        some 1 ∧
      persisted [] (some [])
        (recordBatchUsage sampleValues (fun point => decide (point = .committing)) [sampleEvent] [] (some [])) = [] ∧
      ¬ Truthful sampleValues (fun point => decide (point = .committing)) [sampleEvent] [] (some []) := by
  have hreturned : (recordBatchUsage sampleValues (fun point => decide (point = .committing)) [sampleEvent] []
      (some [])).returned = some 1 := by decide
  have hstored : persisted [] (some []) (recordBatchUsage sampleValues (fun point => decide (point = .committing))
      [sampleEvent] [] (some [])) = [] := by decide
  refine ⟨hreturned, hstored, ?_⟩
  rintro ⟨hcount, -⟩
  rw [hreturned, hstored] at hcount
  cases hcount

end Outcomes

end FinancialRag.Services.Usage
