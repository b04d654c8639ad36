/-
  What a schedule of a plan does, whatever the order.

  1. `Attempt` — what becomes of ONE execution of a step, and `executeStep_eq`: the frame it leaves is
     the old frame with the attempt written into it.
  2. `Ran h s t` — the entries `h` (a step and its attempt each) lead from frame `s` to frame `t`: the
     completed map and the evidence in the order of `h`, the board in any order.  Passes over a list
     (`ran_foldl`) and batches of the pool (`ran_batch`) are both of this kind, and `Ran` composes.
  3. `Scheduled` — the shape of a whole run of the loop of `execute_parallel_retrievals`: waves, then
     the blocked rest.  Every result about that loop is an induction over it.
  4. `Settled` — what is known of the end of a schedule of the whole plan, be it the sequential one
     (`settled_sequential`) or the parallel one (`settled_parallel`).
-/
import FinancialRag.Agent.PlanExecution

set_option linter.unusedVariables false

namespace FinancialRag.Agent

open FinancialRag.Storage FinancialRag.Retrieval

/-! ## One execution of a step -/

/-- What becomes of one execution of a step. -/
inductive Attempt (Out F : Type) where
  | unmet
  | unregistered (stepType : StepType)
  | ran (run : HandlerRun Out F)

namespace Attempt

variable {Out F : Type}

def status : Attempt Out F → StepStatus
  | .unmet => .skipped
  | .unregistered _ => .failed
  | .ran run =>
    match run.outcome with
    | .ok _ => .completed
    | .error _ => .failed

def result [Inhabited Out] (id : Int) : Attempt Out F → ExecutionResult Out
  | .unmet => ⟨id, false, default, some "Dependencies not met"⟩
  | .unregistered t => ⟨id, false, default, some ("No handler registered for " ++ t.value)⟩
  | .ran run =>
    match run.outcome with
    | .ok output => ⟨id, true, output, none⟩
    | .error e => ⟨id, false, default, some e⟩

/-- The output of a success. -/
def output : Attempt Out F → Option Out
  | .ran run => run.outcome.toOption
  | _ => none

/-- The evidence the handler appended. -/
def appended : Attempt Out F → List (Evidence F)
  | .ran run => run.evidence
  | _ => []

/-- The evidence that is merged: a failed step's is dropped. -/
def kept (a : Attempt Out F) : List (Evidence F) := if a.output.isSome then a.appended else []

/-- The handler call, if there was one. -/
def calls (id : Int) : Attempt Out F → List (Call Out F)
  | .ran run => [⟨id, run⟩]
  | _ => []

/-- The completed map after the attempt. -/
def complete (a : Attempt Out F) (id : Int) (completed : Dict Int Out) : Dict Int Out :=
  match a.output with
  | some output => completed.set id output
  | none => completed

theorem get_complete (a : Attempt Out F) (id id' : Int) (completed : Dict Int Out) :
    (a.complete id completed).get id' =
      if id' = id then a.output.or (completed.get id') else completed.get id' := by
  unfold complete
  cases a.output with
  | none => simp
  | some output => simp

@[simp] theorem success_result [Inhabited Out] (a : Attempt Out F) (id : Int) :
    (a.result id).success = a.output.isSome := by
  cases a with
  | unmet => rfl
  | unregistered t => rfl
  | ran run =>
    obtain ⟨evidence, outcome⟩ := run
    cases outcome with
    | ok output => rfl
    | error e => rfl

theorem output_result [Inhabited Out] {a : Attempt Out F} {output : Out} (h : a.output = some output)
    (id : Int) : (a.result id).output = output := by
  cases a with
  | unmet => cases h
  | unregistered t => cases h
  | ran run =>
    obtain ⟨evidence, outcome⟩ := run
    cases outcome with
    | ok output' => exact Option.some.inj h
    | error e => cases h

@[simp] theorem stepId_result [Inhabited Out] (a : Attempt Out F) (id : Int) :
    (a.result id).stepId = id := by
  cases a with
  | unmet => rfl
  | unregistered t => rfl
  | ran run =>
    obtain ⟨evidence, outcome⟩ := run
    cases outcome with
    | ok output => rfl
    | error e => rfl

theorem status_of_ne_unmet {a : Attempt Out F} (hne : a ≠ .unmet) :
    a.status = .completed ∨ a.status = .failed := by
  cases a with
  | unmet => exact absurd rfl hne
  | unregistered stepType => exact Or.inr rfl
  | ran run =>
    obtain ⟨evidence, outcome⟩ := run
    cases outcome with
    | ok output => exact Or.inl rfl
    | error e => exact Or.inr rfl

end Attempt

section Attempts

variable {A Ctx Out F W : Type}

/-- The attempt that an execution of `step` on the frame `fr` makes, and the world it leaves. -/
def attempt (handlers : StepType → Option (Handler A Ctx Out F W)) (step : PlanStep A)
    (fr : Frame Ctx Out F W) : Attempt Out F × W :=
  if dependenciesMet step fr.completed then
    match handlers step.stepType with
    | none => (.unregistered step.stepType, fr.board.world)
    | some handler =>
      let ran := handler step { fr.shared with stepResults := fr.completed } fr.board.world
      (.ran ran.1, ran.2)
  else (.unmet, fr.board.world)

theorem attempt_eq_unmet_iff {handlers : StepType → Option (Handler A Ctx Out F W)}
    {step : PlanStep A} {fr : Frame Ctx Out F W} :
    (attempt handlers step fr).1 = .unmet ↔ dependenciesMet step fr.completed = false := by
  unfold attempt
  by_cases hmet : dependenciesMet step fr.completed = true
  · rw [if_pos hmet]
    cases handlers step.stepType with
    | none => simp [hmet]
    | some handler => simp [hmet]
  · rw [if_neg hmet]
    simpa using hmet

variable [Inhabited Out]

/-- The board with an attempt written into it. -/
def Board.after (b : Board Out F W) (step : PlanStep A) (a : Attempt Out F) (world : W) :
    Board Out F W where
  status := Function.update b.status step.stepId a.status
  result := Function.update b.result step.stepId (some (a.result step.stepId))
  calls := b.calls ++ a.calls step.stepId
  world := world

/-- **One execution of a step** writes its attempt into the frame, and returns the attempt's result. -/
theorem executeStep_eq (handlers : StepType → Option (Handler A Ctx Out F W)) (step : PlanStep A)
    (fr : Frame Ctx Out F W) :
    executeStep handlers step fr =
      ((attempt handlers step fr).1.result step.stepId,
        ⟨⟨fr.shared.base, fr.shared.allEvidence ++ (attempt handlers step fr).1.appended,
            (attempt handlers step fr).1.complete step.stepId fr.completed⟩,
          (attempt handlers step fr).1.complete step.stepId fr.completed,
          fr.board.after step (attempt handlers step fr).1 (attempt handlers step fr).2⟩) := by
  unfold executeStep attempt
  by_cases hmet : dependenciesMet step fr.completed = true
  · simp only [hmet, if_true]
    cases handlers step.stepType with
    | none =>
      simp [Attempt.appended, Attempt.complete, Attempt.output, Attempt.result, Attempt.status,
        Attempt.calls, Board.after, Board.mark, Board.settle, failure]
    | some handler =>
      -- the handler has run: its outcome decides
      simp only []
      cases hout : (handler step { fr.shared with stepResults := fr.completed }
          fr.board.world).1.outcome with
      | ok output =>
        simp [Attempt.appended, Attempt.complete, Attempt.output, Attempt.result, Attempt.status,
          Attempt.calls, Board.after, Board.mark, Board.settle, Board.logged, hout, Except.toOption]
      | error e =>
        simp [Attempt.appended, Attempt.complete, Attempt.output, Attempt.result, Attempt.status,
          Attempt.calls, Board.after, Board.mark, Board.settle, Board.logged, failure, hout,
          Except.toOption]
  · simp [hmet, Attempt.appended, Attempt.complete, Attempt.output, Attempt.result, Attempt.status,
      Attempt.calls, Board.after, Board.settle, failure]

/-- The frame an isolated execution works on: private copies. -/
def isolated (ctx : ExecutionHandlerContext A Ctx Out F W) (completed : Dict Int Out)
    (board : Board Out F W) : Frame Ctx Out F W :=
  ⟨⟨ctx.sharedContext, [], .empty⟩, completed, board⟩

theorem executeIsolatedStep_eq (ctx : ExecutionHandlerContext A Ctx Out F W) (step : PlanStep A)
    (completed : Dict Int Out) (board : Board Out F W) :
    executeIsolatedStep ctx step completed board =
      (⟨(attempt ctx.handlers step (isolated ctx completed board)).1.result step.stepId,
          (attempt ctx.handlers step (isolated ctx completed board)).1.appended⟩,
        board.after step (attempt ctx.handlers step (isolated ctx completed board)).1
          (attempt ctx.handlers step (isolated ctx completed board)).2) := by
  unfold executeIsolatedStep
  rw [executeStep_eq]
  rfl

/-- A merge keeps what the attempt keeps. -/
theorem absorb_result (fr : Frame Ctx Out F W) (step : PlanStep A) (a : Attempt Out F) :
    absorb fr step ⟨a.result step.stepId, a.appended⟩ =
      { fr with
        completed := a.complete step.stepId fr.completed
        shared := { fr.shared with allEvidence := fr.shared.allEvidence ++ a.kept } } := by
  unfold absorb Attempt.complete Attempt.kept
  cases hout : a.output with
  | none => simp [hout]
  | some output => simp [hout, a.output_result hout]

end Attempts

/-! ## Entries written into a frame -/

/-- A step with the attempt made at it. -/
structure Entry (A Out F : Type) where
  step : PlanStep A
  attempt : Attempt Out F

section Histories

variable {A Ctx Out F W : Type}

def Entry.stepId (e : Entry A Out F) : Int := e.step.stepId

/-- Every value of `c` is still there in `d`. -/
def Extends (c d : Dict Int Out) : Prop := ∀ id output, c.get id = some output → d.get id = some output

theorem Extends.refl (c : Dict Int Out) : Extends c c := fun _ _ h => h

theorem Extends.trans {c d e : Dict Int Out} (h : Extends c d) (h' : Extends d e) : Extends c e :=
  fun id output hc => h' id output (h id output hc)

/-- More completed steps meet more dependencies. -/
theorem dependenciesMet_mono {step : PlanStep A} {c d : Dict Int Out} (hcd : Extends c d)
    (hmet : dependenciesMet step c = true) : dependenciesMet step d = true := by
  unfold dependenciesMet at hmet ⊢
  rw [List.all_eq_true] at hmet ⊢
  intro dep hdep
  obtain ⟨output, hc⟩ := Option.isSome_iff_exists.mp (hmet dep hdep)
  rw [hcd dep output hc]
  rfl

theorem dependenciesMet_iff {step : PlanStep A} {c : Dict Int Out} :
    dependenciesMet step c = true ↔ ∀ dep ∈ step.dependsOn, ∃ output, c.get dep = some output := by
  unfold dependenciesMet
  simp only [List.all_eq_true, Option.isSome_iff_exists]

/-- The completed map after the entries `h`, in order. -/
def completeAll (h : List (Entry A Out F)) (c : Dict Int Out) : Dict Int Out :=
  h.foldl (fun c e => e.attempt.complete e.stepId c) c

theorem completeAll_append (h h' : List (Entry A Out F)) (c : Dict Int Out) :
    completeAll (h ++ h') c = completeAll h' (completeAll h c) := by
  unfold completeAll
  rw [List.foldl_append]

/-- Entries leave the keys they are not about. -/
theorem get_completeAll_of_not_mem {h : List (Entry A Out F)} {id : Int}
    (hid : id ∉ h.map Entry.stepId) (c : Dict Int Out) : (completeAll h c).get id = c.get id := by
  induction h generalizing c with
  | nil => rfl
  | cons e h ih =>
    have hne : id ≠ e.stepId := fun heq => hid (heq ▸ List.mem_cons_self)
    have hrest : id ∉ h.map Entry.stepId := fun hmem => hid (List.mem_cons_of_mem _ hmem)
    show (completeAll h (e.attempt.complete e.stepId c)).get id = c.get id
    rw [ih hrest, Attempt.get_complete, if_neg hne]

/-- An entry about a new key decides it. -/
theorem get_completeAll_of_mem {h : List (Entry A Out F)} (hnodup : (h.map Entry.stepId).Nodup)
    {e : Entry A Out F} (he : e ∈ h) {c : Dict Int Out} (hnew : c.get e.stepId = none) :
    (completeAll h c).get e.stepId = e.attempt.output := by
  induction h generalizing c with
  | nil => exact absurd he List.not_mem_nil
  | cons e' h ih =>
    rw [List.map_cons, List.nodup_cons] at hnodup
    show (completeAll h (e'.attempt.complete e'.stepId c)).get e.stepId = e.attempt.output
    rcases List.mem_cons.mp he with rfl | hrest
    · rw [get_completeAll_of_not_mem hnodup.1, Attempt.get_complete, if_pos rfl, hnew]
      exact Option.or_none
    · have hne : e.stepId ≠ e'.stepId :=
        fun heq => hnodup.1 (heq ▸ List.mem_map_of_mem hrest)
      apply ih hnodup.2 hrest
      rw [Attempt.get_complete, if_neg hne]
      exact hnew

/-- Setting a key that is not there loses nothing. -/
theorem extends_complete {c : Dict Int Out} {id : Int} (hnew : c.get id = none) (a : Attempt Out F) :
    Extends c (a.complete id c) := by
  intro id' output hc
  rw [Attempt.get_complete]
  by_cases heq : id' = id
  · rw [heq, hnew] at hc
    cases hc
  · rw [if_neg heq]
    exact hc

/-- Entries about new keys lose nothing. -/
theorem extends_completeAll {h : List (Entry A Out F)} {c : Dict Int Out}
    (hnew : ∀ e ∈ h, c.get e.stepId = none) : Extends c (completeAll h c) := by
  intro id output hc
  have hid : id ∉ h.map Entry.stepId := by
    intro hmem
    obtain ⟨e, he, rfl⟩ := List.mem_map.mp hmem
    rw [hnew e he] at hc
    cases hc
  rw [get_completeAll_of_not_mem hid]
  exact hc

/-- The steps of `l` have pairwise different ids, none of them completed. -/
def Fresh (l : List (PlanStep A)) (c : Dict Int Out) : Prop :=
  (l.map PlanStep.stepId).Nodup ∧ ∀ step ∈ l, c.get step.stepId = none

theorem Fresh.sublist {l l' : List (PlanStep A)} {c : Dict Int Out} (hfresh : Fresh l c)
    (hsub : l'.Sublist l) : Fresh l' c :=
  ⟨hfresh.1.sublist (hsub.map _), fun step hstep => hfresh.2 step (hsub.subset hstep)⟩

theorem map_stepId (h : List (Entry A Out F)) :
    h.map Entry.stepId = (h.map Entry.step).map PlanStep.stepId := by
  rw [List.map_map]
  rfl

/-- Entries about other steps leave a list fresh. -/
theorem Fresh.completeAll {l : List (PlanStep A)} {c : Dict Int Out} (hfresh : Fresh l c)
    {h : List (Entry A Out F)} (hapart : ∀ step ∈ l, step.stepId ∉ h.map Entry.stepId) :
    Fresh l (completeAll h c) := by
  refine ⟨hfresh.1, ?_⟩
  intro step hstep
  rw [get_completeAll_of_not_mem (hapart step hstep)]
  exact hfresh.2 step hstep

/-- Removing the processed steps leaves those that were not ready. -/
theorem filter_processed (pending : List (PlanStep A)) (c : Dict Int Out)
    (hnodup : (pending.map PlanStep.stepId).Nodup) :
    (pending.filter fun step =>
      !((pending.filter fun step => dependenciesMet step c).map PlanStep.stepId).contains step.stepId) =
    pending.filter fun step => !dependenciesMet step c := by
  apply List.filter_congr
  intro step hstep
  congr 1
  rw [Bool.eq_iff_iff, List.contains_iff_mem, List.mem_map]
  constructor
  · rintro ⟨step', hstep', hid⟩
    obtain ⟨hmem, hmet⟩ := List.mem_filter.mp hstep'
    obtain rfl : step' = step := List.inj_on_of_nodup_map hnodup hmem hstep hid
    exact hmet
  · intro hmet
    exact ⟨step, List.mem_filter.mpr ⟨hstep, hmet⟩, rfl⟩

/-- The order in which a wave is merged: its retrievals, then the other steps. -/
def waveOrder (ready : List (PlanStep A)) : List (PlanStep A) :=
  ready.filter isRetrieval ++ ready.filter fun step => !isRetrieval step

theorem waveOrder_perm (ready : List (PlanStep A)) : (waveOrder ready).Perm ready :=
  List.filter_append_perm isRetrieval ready

/-- After a wave, the steps that were not ready are still fresh. -/
theorem Fresh.rest {pending : List (PlanStep A)} {c : Dict Int Out} (hfresh : Fresh pending c)
    {h : List (Entry A Out F)}
    (hsteps : h.map Entry.step = waveOrder (pending.filter fun step => dependenciesMet step c)) :
    Fresh (pending.filter fun step => !dependenciesMet step c) (Agent.completeAll h c) := by
  apply (hfresh.sublist List.filter_sublist).completeAll
  intro step hstep hmem
  rw [map_stepId, hsteps, ((waveOrder_perm _).map _).mem_iff] at hmem
  obtain ⟨step', hstep', hid⟩ := List.mem_map.mp hmem
  obtain ⟨hmem, hmet⟩ := List.mem_filter.mp hstep
  obtain ⟨hmem', hmet'⟩ := List.mem_filter.mp hstep'
  obtain rfl : step' = step := List.inj_on_of_nodup_map hfresh.1 hmem' hmem hid
  rw [hmet'] at hmet
  cases hmet

theorem completeAll_unmet (pending : List (PlanStep A)) (c : Dict Int Out) :
    completeAll (F := F) (pending.map fun step => ⟨step, .unmet⟩) c = c := by
  induction pending with
  | nil => rfl
  | cons step pending ih => exact ih

theorem fresh_baseFrame (ctx : ExecutionHandlerContext A Ctx Out F W) (b : Board Out F W) :
    Fresh ctx.plan.tasks (baseFrame ctx b).completed :=
  ⟨ctx.plan.stepIdsNodup, fun _ _ => rfl⟩

/-- No step of the list waits for itself or for a later one. -/
def NoForward (l : List (PlanStep A)) : Prop :=
  ∀ pre step suf, l = pre ++ step :: suf →
    ∀ dep ∈ step.dependsOn, dep ∉ (step :: suf).map PlanStep.stepId

theorem NoForward.tail {step : PlanStep A} {l : List (PlanStep A)} (h : NoForward (step :: l)) :
    NoForward l := by
  intro pre step' suf hl
  exact h (step :: pre) step' suf (by rw [hl]; rfl)

variable [Inhabited Out]

/-- The board has the entries `h` on it, in whatever order they were written. -/
structure Recorded (h : List (Entry A Out F)) (b b' : Board Out F W) : Prop where
  status : ∀ e ∈ h, b'.status e.stepId = e.attempt.status
  result : ∀ e ∈ h, b'.result e.stepId = some (e.attempt.result e.stepId)
  others : ∀ id, id ∉ h.map Entry.stepId → b'.status id = b.status id ∧ b'.result id = b.result id
  calls : b'.calls.Perm (b.calls ++ h.flatMap fun e => e.attempt.calls e.stepId)

theorem Recorded.nil (b : Board Out F W) : Recorded (A := A) [] b b where
  status := fun e he => absurd he List.not_mem_nil
  result := fun e he => absurd he List.not_mem_nil
  others := fun _ _ => ⟨rfl, rfl⟩
  calls := by simp

theorem Recorded.single (b : Board Out F W) (step : PlanStep A) (a : Attempt Out F) (world : W) :
    Recorded [⟨step, a⟩] b (b.after step a world) where
  status := by
    intro e he
    obtain rfl := List.mem_singleton.mp he
    exact Function.update_self ..
  result := by
    intro e he
    obtain rfl := List.mem_singleton.mp he
    exact Function.update_self ..
  others := by
    intro id hid
    have hne : id ≠ step.stepId := fun heq => hid (List.mem_singleton.mpr heq)
    exact ⟨Function.update_of_ne hne .., Function.update_of_ne hne ..⟩
  calls := by simp [Board.after, Entry.stepId]

/-- Boards compose, when no step is recorded twice. -/
theorem Recorded.append {h h' : List (Entry A Out F)} {b b' b'' : Board Out F W}
    (hb : Recorded h b b') (hb' : Recorded h' b' b'')
    (hnodup : ((h ++ h').map Entry.stepId).Nodup) : Recorded (h ++ h') b b'' := by
  rw [List.map_append, List.nodup_append] at hnodup
  have hapart : ∀ e ∈ h, e.stepId ∉ h'.map Entry.stepId :=
    fun e he hmem => hnodup.2.2 _ (List.mem_map_of_mem he) _ hmem rfl
  refine ⟨?_, ?_, ?_, ?_⟩
  · intro e he
    rcases List.mem_append.mp he with he | he
    · rw [(hb'.others _ (hapart e he)).1, hb.status e he]
    · exact hb'.status e he
  · intro e he
    rcases List.mem_append.mp he with he | he
    · rw [(hb'.others _ (hapart e he)).2, hb.result e he]
    · exact hb'.result e he
  · intro id hid
    rw [List.map_append, List.mem_append, not_or] at hid
    obtain ⟨hstatus, hresult⟩ := hb.others id hid.1
    obtain ⟨hstatus', hresult'⟩ := hb'.others id hid.2
    exact ⟨hstatus'.trans hstatus, hresult'.trans hresult⟩
  · rw [List.flatMap_append, ← List.append_assoc]
    exact hb'.calls.trans (hb.calls.append_right _)

/-- The order in which the entries are listed does not matter. -/
theorem Recorded.perm {h h' : List (Entry A Out F)} {b b' : Board Out F W} (hb : Recorded h b b')
    (hperm : h'.Perm h) : Recorded h' b b' where
  status := fun e he => hb.status e (hperm.mem_iff.mp he)
  result := fun e he => hb.result e (hperm.mem_iff.mp he)
  others := fun id hid => hb.others id fun hmem => hid ((hperm.map Entry.stepId).mem_iff.mpr hmem)
  calls := hb.calls.trans ((List.Perm.refl _).append (hperm.flatMap_right _).symm)

/-- The entries `h` lead from the frame `s` to the frame `t`; every attempt was made on a frame
    between the two. -/
structure Ran (ctx : ExecutionHandlerContext A Ctx Out F W) (h : List (Entry A Out F))
    (s t : Frame Ctx Out F W) : Prop where
  completed : t.completed = completeAll h s.completed
  evidence : t.shared.allEvidence = s.shared.allEvidence ++ h.flatMap fun e => e.attempt.kept
  board : Recorded h s.board t.board
  grows : Extends s.completed t.completed
  tried : ∀ e ∈ h, ∃ fr : Frame Ctx Out F W, fr.shared.base = ctx.sharedContext ∧
    Extends s.completed fr.completed ∧ Extends fr.completed t.completed ∧
    (attempt ctx.handlers e.step fr).1 = e.attempt

variable {ctx : ExecutionHandlerContext A Ctx Out F W}

theorem Ran.nil (s : Frame Ctx Out F W) : Ran ctx [] s s where
  completed := rfl
  evidence := by simp
  board := .nil _
  grows := .refl _
  tried := fun e he => absurd he List.not_mem_nil

theorem Ran.append {h h' : List (Entry A Out F)} {s t u : Frame Ctx Out F W} (hst : Ran ctx h s t)
    (htu : Ran ctx h' t u) (hnodup : ((h ++ h').map Entry.stepId).Nodup) :
    Ran ctx (h ++ h') s u where
  completed := by rw [completeAll_append, ← hst.completed, htu.completed]
  evidence := by rw [htu.evidence, hst.evidence, List.flatMap_append, List.append_assoc]
  board := hst.board.append htu.board hnodup
  grows := hst.grows.trans htu.grows
  tried := by
    intro e he
    rcases List.mem_append.mp he with he | he
    · obtain ⟨fr, hbase, hbefore, hafter, hattempt⟩ := hst.tried e he
      exact ⟨fr, hbase, hbefore, hafter.trans htu.grows, hattempt⟩
    · obtain ⟨fr, hbase, hbefore, hafter, hattempt⟩ := htu.tried e he
      exact ⟨fr, hbase, hst.grows.trans hbefore, hafter, hattempt⟩

/-- A step whose dependencies were met at the start is not skipped. -/
theorem Ran.ne_unmet {h : List (Entry A Out F)} {s t : Frame Ctx Out F W} (hran : Ran ctx h s t)
    {e : Entry A Out F} (he : e ∈ h) (hmet : dependenciesMet e.step s.completed = true) :
    e.attempt ≠ .unmet := by
  obtain ⟨fr, _, hbefore, _, hattempt⟩ := hran.tried e he
  intro hunmet
  rw [hunmet, attempt_eq_unmet_iff, dependenciesMet_mono hbefore hmet] at hattempt
  cases hattempt

theorem runIsolated_eq (fr : Frame Ctx Out F W) (step : PlanStep A) :
    runIsolated ctx fr step =
      let a := attempt ctx.handlers step (isolated ctx fr.completed fr.board)
      ⟨⟨fr.shared.base, fr.shared.allEvidence ++ a.1.kept, a.1.complete step.stepId fr.completed⟩,
        a.1.complete step.stepId fr.completed, fr.board.after step a.1 a.2⟩ := by
  unfold runIsolated
  rw [executeIsolatedStep_eq]
  simp only [absorb_result]
  rfl

/-- One isolated step is a `Ran` of one entry. -/
theorem ran_runIsolated (ctx : ExecutionHandlerContext A Ctx Out F W)
    (fr : Frame Ctx Out F W) (step : PlanStep A) (hnew : fr.completed.get step.stepId = none) :
    Ran ctx [⟨step, (attempt ctx.handlers step (isolated ctx fr.completed fr.board)).1⟩] fr
      (runIsolated ctx fr step) := by
  rw [runIsolated_eq]
  refine ⟨rfl, ?_, .single .., extends_complete hnew _, ?_⟩
  · simp
  · intro e he
    obtain rfl := List.mem_singleton.mp he
    exact ⟨isolated ctx fr.completed fr.board, rfl, .refl _, extends_complete hnew _, rfl⟩

/-- **A pass over a list**, one isolated step after the other.  It skips only what stays blocked, if
    no step waits for itself or for a later one. -/
theorem ran_foldl (ctx : ExecutionHandlerContext A Ctx Out F W) (l : List (PlanStep A))
    (s : Frame Ctx Out F W) (hfresh : Fresh l s.completed) :
    ∃ h : List (Entry A Out F), h.map Entry.step = l ∧ Ran ctx h s (l.foldl (runIsolated ctx) s) ∧
      (NoForward l → ∀ e ∈ h, e.attempt = .unmet →
        dependenciesMet e.step (l.foldl (runIsolated ctx) s).completed = false) := by
  induction l generalizing s with
  | nil => exact ⟨[], rfl, .nil s, fun _ e he => absurd he List.not_mem_nil⟩
  | cons step l ih =>
    obtain ⟨hnodup, hnone⟩ := hfresh
    rw [List.map_cons, List.nodup_cons] at hnodup
    have hone := ran_runIsolated ctx s step (hnone step List.mem_cons_self)
    have htail : Fresh l (runIsolated ctx s step).completed := by
      rw [hone.completed]
      apply Fresh.completeAll ⟨hnodup.2, fun step' h' => hnone step' (List.mem_cons_of_mem _ h')⟩
      intro step' hstep' hmem
      have heq : step'.stepId = step.stepId := List.mem_singleton.mp hmem
      exact hnodup.1 (heq ▸ List.mem_map_of_mem hstep')
    obtain ⟨h, hsteps, hran, hunmet⟩ := ih (runIsolated ctx s step) htail
    have hids : (step.stepId :: h.map Entry.stepId).Nodup := by
      rw [map_stepId, hsteps]
      exact List.nodup_cons.mpr hnodup
    have hwhole := hone.append hran hids
    refine ⟨_ :: h, by rw [List.map_cons, hsteps], hwhole, ?_⟩
    intro hforward e he hskip
    rcases List.mem_cons.mp he with rfl | he
    · -- the missing dependency is no later step, so it is missing at the end as well
      have hnow : dependenciesMet step (isolated ctx s.completed s.board).completed = false :=
        attempt_eq_unmet_iff.mp hskip
      by_contra hmet
      rw [Bool.not_eq_false, dependenciesMet_iff] at hmet
      have hthen : dependenciesMet step (isolated ctx s.completed s.board).completed = true := by
        rw [dependenciesMet_iff]
        intro dep hdep
        obtain ⟨output, hget⟩ := hmet dep hdep
        have hlater : dep ∉ step.stepId :: h.map Entry.stepId := by
          rw [map_stepId, hsteps]
          exact hforward [] step l rfl dep hdep
        rw [List.foldl_cons, hwhole.completed, get_completeAll_of_not_mem hlater] at hget
        exact ⟨output, hget⟩
      rw [hthen] at hnow
      cases hnow
    · exact hunmet hforward.tail e he hskip

/-! ### A batch of the pool -/

/-- The workers of a batch record their entries and return their outcomes; every attempt was made
    against the snapshot. -/
theorem runWorkers_spec (ctx : ExecutionHandlerContext A Ctx Out F W)
    (c : Dict Int Out) (l : List (PlanStep A)) (b : Board Out F W)
    (hnodup : (l.map PlanStep.stepId).Nodup) : ∃ h : List (Entry A Out F), h.map Entry.step = l ∧
      (runWorkers ctx c l b).1 =
        h.map (fun e => (e.stepId, ⟨e.attempt.result e.stepId, e.attempt.appended⟩)) ∧
      Recorded h b (runWorkers ctx c l b).2 ∧
      ∀ e ∈ h, ∃ board, (attempt ctx.handlers e.step (isolated ctx c board)).1 = e.attempt := by
  induction l generalizing b with
  | nil => exact ⟨[], rfl, rfl, .nil b, fun e he => absurd he List.not_mem_nil⟩
  | cons step l ih =>
    rw [List.map_cons, List.nodup_cons] at hnodup
    simp only [runWorkers, executeIsolatedStep_eq]
    obtain ⟨h, hsteps, houtcomes, hboard, htried⟩ := ih
      (b.after step (attempt ctx.handlers step (isolated ctx c b)).1
        (attempt ctx.handlers step (isolated ctx c b)).2) hnodup.2
    refine ⟨⟨step, (attempt ctx.handlers step (isolated ctx c b)).1⟩ :: h, ?_, ?_, ?_, ?_⟩
    · rw [List.map_cons, hsteps]
    · rw [List.map_cons, houtcomes]
      rfl
    · refine Recorded.append (.single b step _ _) hboard ?_
      show (step.stepId :: h.map Entry.stepId).Nodup
      rw [map_stepId, hsteps]
      exact List.nodup_cons.mpr hnodup
    · intro e he
      rcases List.mem_cons.mp he with rfl | he
      · exact ⟨b, rfl⟩
      · exact htried e he

/-- The merge of a batch: each step finds its own outcome. -/
theorem foldl_mergeBatch {outcomes : Dict Int (StepOutcome Out F)} (h : List (Entry A Out F))
    (hget : ∀ e ∈ h, outcomes.get e.stepId = some ⟨e.attempt.result e.stepId, e.attempt.appended⟩)
    (s : Frame Ctx Out F W) :
    (h.map Entry.step).foldl (mergeBatch outcomes) s =
      { s with
        completed := completeAll h s.completed
        shared := { s.shared with
          allEvidence := s.shared.allEvidence ++ h.flatMap fun e => e.attempt.kept } } := by
  induction h generalizing s with
  | nil => simp [completeAll]
  | cons e h ih =>
    have hhead : mergeBatch outcomes s e.step =
        absorb s e.step ⟨e.attempt.result e.step.stepId, e.attempt.appended⟩ := by
      have := hget e List.mem_cons_self
      unfold mergeBatch
      rw [show outcomes.get e.step.stepId = _ from this]
      rfl
    rw [List.map_cons, List.foldl_cons, hhead, absorb_result,
      ih fun e' he' => hget e' (List.mem_cons_of_mem _ he')]
    simp [completeAll, Entry.stepId, List.append_assoc]

/-- **A batch of the pool**, in whatever order it completes, is merged in the order of its steps. -/
theorem ran_batch (ctx : ExecutionHandlerContext A Ctx Out F W)
    (pool : Pool A) (steps : List (PlanStep A)) (s : Frame Ctx Out F W)
    (hfresh : Fresh steps s.completed) :
    ∃ h : List (Entry A Out F), h.map Entry.step = steps ∧ Ran ctx h s
      (publish (steps.foldl
        (mergeBatch (executeRetrievalBatch ctx pool steps s.completed s.board).1)
        { s with board := (executeRetrievalBatch ctx pool steps s.completed s.board).2 })) := by
  have horder : ((pool.order steps).map PlanStep.stepId).Nodup :=
    ((pool.perm steps).map _).nodup_iff.mpr hfresh.1
  obtain ⟨h₀, hsteps₀, houtcomes, hboard, htried⟩ :=
    runWorkers_spec ctx s.completed (pool.order steps) s.board horder
  obtain ⟨h, hperm, hsteps⟩ := PyList.exists_perm_map_eq Entry.step (hsteps₀ ▸ pool.perm steps)
  have hids : (h.map Entry.stepId).Nodup := by
    rw [map_stepId, hsteps]
    exact hfresh.1
  have hnew : ∀ e ∈ h, s.completed.get e.stepId = none := by
    intro e he
    exact hfresh.2 e.step (hsteps ▸ List.mem_map_of_mem he)
  have hget : ∀ e ∈ h, (executeRetrievalBatch ctx pool steps s.completed s.board).1.get e.stepId =
      some ⟨e.attempt.result e.stepId, e.attempt.appended⟩ := by
    intro e he
    unfold executeRetrievalBatch
    simp only [houtcomes]
    apply Dict.get_update_of_mem
    · rw [List.map_map]
      exact (hperm.map Entry.stepId).nodup_iff.mp hids
    · exact List.mem_map_of_mem (hperm.mem_iff.mp he)
  refine ⟨h, hsteps, ?_⟩
  have hfold := foldl_mergeBatch h hget
    { s with board := (executeRetrievalBatch ctx pool steps s.completed s.board).2 }
  rw [hsteps] at hfold
  rw [hfold]
  refine ⟨rfl, rfl, hboard.perm hperm, extends_completeAll hnew, ?_⟩
  intro e he
  obtain ⟨board, hattempt⟩ := htried e (hperm.mem_iff.mp he)
  exact ⟨isolated ctx s.completed board, rfl, .refl _, extends_completeAll hnew, hattempt⟩

/-- **One wave.** -/
theorem ran_wave (ctx : ExecutionHandlerContext A Ctx Out F W)
    (pool : Pool A) (ready : List (PlanStep A)) (s : Frame Ctx Out F W)
    (hfresh : Fresh ready s.completed) :
    ∃ h : List (Entry A Out F), h.map Entry.step = waveOrder ready ∧
      Ran ctx h s (wave ctx pool ready s) := by
  have hretrievals : Fresh (ready.filter isRetrieval) s.completed :=
    hfresh.sublist List.filter_sublist
  have hall : ((waveOrder ready).map PlanStep.stepId).Nodup :=
    ((waveOrder_perm ready).map _).nodup_iff.mpr hfresh.1
  -- the retrievals, on the pool or on the caller's thread
  have hfirst : ∃ h : List (Entry A Out F), h.map Entry.step = ready.filter isRetrieval ∧ Ran ctx h s
      (if 1 < (ready.filter isRetrieval).length ∧ 1 < maxWorkers ctx then
        publish ((ready.filter isRetrieval).foldl
          (mergeBatch (executeRetrievalBatch ctx pool (ready.filter isRetrieval) s.completed s.board).1)
          { s with board :=
            (executeRetrievalBatch ctx pool (ready.filter isRetrieval) s.completed s.board).2 })
      else (ready.filter isRetrieval).foldl (runIsolated ctx) s) := by
    split
    · exact ran_batch ctx pool _ s hretrievals
    · obtain ⟨h, hsteps, hran, _⟩ := ran_foldl ctx _ s hretrievals
      exact ⟨h, hsteps, hran⟩
  obtain ⟨h₁, hsteps₁, hran₁⟩ := hfirst
  have hothers : Fresh (ready.filter fun step => !isRetrieval step) (completeAll h₁ s.completed) := by
    apply (hfresh.sublist List.filter_sublist).completeAll
    intro step hstep hmem
    rw [map_stepId, hsteps₁] at hmem
    rw [waveOrder, List.map_append, List.nodup_append] at hall
    exact hall.2.2 _ hmem _ (List.mem_map_of_mem hstep) rfl
  rw [← hran₁.completed] at hothers
  obtain ⟨h₂, hsteps₂, hran₂, _⟩ := ran_foldl ctx _ _ hothers
  have hsteps : (h₁ ++ h₂).map Entry.step = waveOrder ready := by
    rw [List.map_append, hsteps₁, hsteps₂]
    rfl
  refine ⟨h₁ ++ h₂, hsteps, hran₁.append hran₂ ?_⟩
  rw [map_stepId, hsteps]
  exact hall

/-! ### The loop -/

/-- **A whole run of the loop**: the entries `h` settle the steps `pending`, from `s` to `t`, in waves;
    when no step is ready the rest is skipped. -/
inductive Scheduled (ctx : ExecutionHandlerContext A Ctx Out F W) :
    List (PlanStep A) → List (Entry A Out F) → Frame Ctx Out F W → Frame Ctx Out F W → Prop
  | done (s : Frame Ctx Out F W) : Scheduled ctx [] [] s s
  | blocked {pending : List (PlanStep A)} {s t : Frame Ctx Out F W} :
      (∀ step ∈ pending, dependenciesMet step s.completed = false) →
      Ran ctx (pending.map fun step => ⟨step, .unmet⟩) s t →
      Scheduled ctx pending (pending.map fun step => ⟨step, .unmet⟩) s t
  | wave {pending : List (PlanStep A)} {h h' : List (Entry A Out F)} {s t u : Frame Ctx Out F W} :
      h.map Entry.step =
        waveOrder (pending.filter fun step => dependenciesMet step s.completed) →
      Ran ctx h s t →
      Scheduled ctx (pending.filter fun step => !dependenciesMet step s.completed) h' t u →
      Scheduled ctx pending (h ++ h') s u

/-- The blocked steps: the completed map does not change, so each is skipped in its turn. -/
theorem ran_blocked (pending : List (PlanStep A)) (s : Frame Ctx Out F W)
    (hbase : s.shared.base = ctx.sharedContext)
    (hnodup : (pending.map PlanStep.stepId).Nodup)
    (hblocked : ∀ step ∈ pending, dependenciesMet step s.completed = false) :
    Ran ctx (pending.map fun step => ⟨step, .unmet⟩) s
      (pending.foldl (fun fr step => (executeStep ctx.handlers step fr).2) s) := by
  induction pending generalizing s with
  | nil => exact .nil s
  | cons step pending ih =>
    rw [List.map_cons, List.nodup_cons] at hnodup
    have hunmet : (attempt ctx.handlers step s).1 = .unmet :=
      attempt_eq_unmet_iff.mpr (hblocked step List.mem_cons_self)
    have hone : Ran ctx [⟨step, .unmet⟩] s (executeStep ctx.handlers step s).2 := by
      rw [executeStep_eq, hunmet]
      refine ⟨rfl, rfl, .single .., .refl _, ?_⟩
      intro e he
      obtain rfl := List.mem_singleton.mp he
      exact ⟨s, hbase, .refl _, .refl _, hunmet⟩
    have hsame : (executeStep ctx.handlers step s).2.completed = s.completed := hone.completed
    have hrest := ih (executeStep ctx.handlers step s).2 (by rw [executeStep_eq]; exact hbase)
      hnodup.2 (by
        intro step' hstep'
        rw [hsame]
        exact hblocked step' (List.mem_cons_of_mem _ hstep'))
    refine hone.append hrest ?_
    show (step.stepId :: (pending.map _).map Entry.stepId).Nodup
    rw [List.map_map]
    exact List.nodup_cons.mpr hnodup

theorem wave_base (pool : Pool A) (ready : List (PlanStep A)) (s : Frame Ctx Out F W) :
    (wave ctx pool ready s).shared.base = s.shared.base := by
  have hpass : ∀ (l : List (PlanStep A)) (s : Frame Ctx Out F W),
      (l.foldl (runIsolated ctx) s).shared.base = s.shared.base := by
    intro l
    induction l with
    | nil => exact fun _ => rfl
    | cons step l ih =>
      intro s
      rw [List.foldl_cons, ih, runIsolated_eq]
  have hmerge : ∀ (outcomes : Dict Int (StepOutcome Out F)) (l : List (PlanStep A))
      (s : Frame Ctx Out F W), (l.foldl (mergeBatch outcomes) s).shared.base = s.shared.base := by
    intro outcomes l
    induction l with
    | nil => exact fun _ => rfl
    | cons step l ih =>
      intro s
      rw [List.foldl_cons, ih]
      unfold mergeBatch absorb
      split
      · split <;> rfl
      · rfl
  unfold wave
  simp only []
  rw [hpass]
  split
  · exact hmerge _ _ _
  · exact hpass _ _

/-- **The loop ends**: as many turns as there are steps, and one, are enough. -/
theorem scheduleLoop_scheduled (pool : Pool A) (fuel : Nat) (pending : List (PlanStep A))
    (s : Frame Ctx Out F W) (hfuel : pending.length < fuel)
    (hbase : s.shared.base = ctx.sharedContext) (hfresh : Fresh pending s.completed) :
    ∃ t h, scheduleLoop ctx pool fuel pending s = some t ∧ Scheduled ctx pending h s t := by
  induction fuel generalizing pending s with
  | zero => exact absurd hfuel (Nat.not_lt_zero _)
  | succ fuel ih =>
    unfold scheduleLoop
    by_cases hempty : pending.isEmpty = true
    · obtain rfl := List.isEmpty_iff.mp hempty
      exact ⟨s, [], rfl, .done s⟩
    rw [if_neg hempty]
    simp only []
    by_cases hready : (pending.filter fun step => dependenciesMet step s.completed).isEmpty = true
    · have hblocked : ∀ step ∈ pending, dependenciesMet step s.completed = false := by
        intro step hstep
        have hnil := List.filter_eq_nil_iff.mp (List.isEmpty_iff.mp hready) step hstep
        simpa using hnil
      rw [if_pos hready]
      exact ⟨_, _, rfl, .blocked hblocked (ran_blocked pending s hbase hfresh.1 hblocked)⟩
    · rw [if_neg hready, filter_processed pending s.completed hfresh.1]
      obtain ⟨h, hsteps, hran⟩ := ran_wave ctx pool
        (pending.filter fun step => dependenciesMet step s.completed) s
        (hfresh.sublist List.filter_sublist)
      -- the wave takes at least one step out of `pending`
      have hlt : (pending.filter fun step => !dependenciesMet step s.completed).length < fuel := by
        have hsplit := (List.filter_append_perm
          (fun step => dependenciesMet step s.completed) pending).length_eq
        have hpos : 0 < (pending.filter fun step => dependenciesMet step s.completed).length := by
          rw [List.length_pos_iff]
          exact fun hnil => hready (List.isEmpty_iff.mpr hnil)
        rw [List.length_append] at hsplit
        omega
      have hrest : Fresh (pending.filter fun step => !dependenciesMet step s.completed)
          (wave ctx pool (pending.filter fun step => dependenciesMet step s.completed) s).completed := by
        rw [hran.completed]
        exact hfresh.rest hsteps
      obtain ⟨t, h', hloop, hsched⟩ := ih _ _ hlt ((wave_base pool _ s).trans hbase) hrest
      exact ⟨t, h ++ h', hloop, .wave hsteps hran hsched⟩

/-- A run of the loop settles every pending step, once. -/
theorem Scheduled.ran {pending : List (PlanStep A)} {h : List (Entry A Out F)}
    {s t : Frame Ctx Out F W} (hsched : Scheduled ctx pending h s t)
    (hfresh : Fresh pending s.completed) : (h.map Entry.step).Perm pending ∧ Ran ctx h s t := by
  induction hsched with
  | done s => exact ⟨.refl _, .nil s⟩
  | @blocked pending s t hblocked hran =>
    rw [List.map_map]
    exact ⟨by simp [Function.comp_def], hran⟩
  | @wave pending h h' s t u hsteps hran hrest ih =>
    have hfresh' := hfresh.rest hsteps
    rw [← hran.completed] at hfresh'
    obtain ⟨hperm', hran'⟩ := ih hfresh'
    have hperm : ((h ++ h').map Entry.step).Perm pending := by
      rw [List.map_append, hsteps]
      exact ((waveOrder_perm _).append hperm').trans (List.filter_append_perm _ pending)
    refine ⟨hperm, hran.append hran' ?_⟩
    rw [map_stepId]
    exact (hperm.map _).nodup_iff.mpr hfresh.1

/-- What the loop skips is still blocked at the end: nothing wakes a blocked step. -/
theorem Scheduled.unmet {pending : List (PlanStep A)} {h : List (Entry A Out F)}
    {s t : Frame Ctx Out F W} (hsched : Scheduled ctx pending h s t) :
    ∀ e ∈ h, e.attempt = .unmet → dependenciesMet e.step t.completed = false := by
  induction hsched with
  | done s => exact fun e he => absurd he List.not_mem_nil
  | @blocked pending s t hblocked hran =>
    intro e he _
    obtain ⟨step, hstep, rfl⟩ := List.mem_map.mp he
    rw [hran.completed, completeAll_unmet]
    exact hblocked step hstep
  | @wave pending h h' s t u hsteps hran hrest ih =>
    intro e he hunmet
    rcases List.mem_append.mp he with he | he
    · have hready : e.step ∈ waveOrder (pending.filter fun step => dependenciesMet step s.completed) :=
        hsteps ▸ List.mem_map_of_mem he
      have hmet := (List.mem_filter.mp ((waveOrder_perm _).mem_iff.mp hready)).2
      exact absurd hunmet (hran.ne_unmet he hmet)
    · exact ih e he hunmet

/-! ### The end of a schedule -/

/-- What is known when a schedule of the whole plan has ended. -/
structure Settled (ctx : ExecutionHandlerContext A Ctx Out F W) (world : W)
    (h : List (Entry A Out F)) (t : Frame Ctx Out F W) : Prop where
  steps : (h.map Entry.step).Perm ctx.plan.tasks
  ran : Ran ctx h (baseFrame ctx (.fresh world)) t
  unmet : ∀ e ∈ h, e.attempt = .unmet → dependenciesMet e.step t.completed = false

/-- **The parallel schedule ends, settled.** -/
theorem settled_parallel (ctx : ExecutionHandlerContext A Ctx Out F W) (pool : Pool A) (world : W)
    (fuel : Nat) (hfuel : ctx.plan.tasks.length < fuel) :
    ∃ t h, scheduleLoop ctx pool fuel ctx.plan.tasks (baseFrame ctx (.fresh world)) = some t ∧
      Scheduled ctx ctx.plan.tasks h (baseFrame ctx (.fresh world)) t ∧ Settled ctx world h t := by
  obtain ⟨t, h, hloop, hsched⟩ := scheduleLoop_scheduled pool fuel ctx.plan.tasks
    (baseFrame ctx (.fresh world)) hfuel rfl (fresh_baseFrame ctx _)
  obtain ⟨hsteps, hran⟩ := hsched.ran (fresh_baseFrame ctx _)
  exact ⟨t, h, hloop, hsched, hsteps, hran, hsched.unmet⟩

/-- Every dependency of a step is an earlier step of the plan, or no step of it. -/
def ExecutionPlan.EarlierOrUnknown (plan : ExecutionPlan A) : Prop :=
  ∀ i : Fin plan.tasks.length, ∀ dep ∈ (plan.tasks.get i).dependsOn,
    dep ∈ (plan.tasks.take i).map PlanStep.stepId ∨ dep ∉ plan.tasks.map PlanStep.stepId

instance (plan : ExecutionPlan A) : Decidable plan.EarlierOrUnknown :=
  inferInstanceAs (Decidable (∀ _ : Fin _, _))

/-- The same, where the plan is cut at a step. -/
theorem ExecutionPlan.EarlierOrUnknown.cut {plan : ExecutionPlan A} (h : plan.EarlierOrUnknown)
    {pre suf : List (PlanStep A)} {step : PlanStep A} (htasks : plan.tasks = pre ++ step :: suf)
    {dep : Int} (hdep : dep ∈ step.dependsOn) :
    dep ∈ pre.map PlanStep.stepId ∨ dep ∉ plan.tasks.map PlanStep.stepId := by
  have hcut := PyList.of_forall_get (P := fun (pre : List (PlanStep A)) (step : PlanStep A) =>
    ∀ dep ∈ step.dependsOn,
      dep ∈ pre.map PlanStep.stepId ∨ dep ∉ plan.tasks.map PlanStep.stepId) h htasks
  exact hcut dep hdep

theorem ExecutionPlan.EarlierOrUnknown.noForward {plan : ExecutionPlan A}
    (h : plan.EarlierOrUnknown) : NoForward plan.tasks := by
  intro pre step suf htasks dep hdep hmem
  have hnodup := plan.stepIdsNodup
  rw [htasks, List.map_append, List.nodup_append] at hnodup
  rcases h.cut htasks hdep with hpre | hunknown
  · exact hnodup.2.2 dep hpre dep hmem rfl
  · rw [htasks, List.map_append] at hunknown
    exact hunknown (List.mem_append_right _ hmem)

/-- **The sequential schedule ends, settled**, for a plan whose dependencies point backwards. -/
theorem settled_sequential (ctx : ExecutionHandlerContext A Ctx Out F W)
    (hplan : ctx.plan.EarlierOrUnknown) (world : W) :
    ∃ h : List (Entry A Out F), h.map Entry.step = ctx.plan.tasks ∧ Settled ctx world h
      (ctx.plan.tasks.foldl (runIsolated ctx) (baseFrame ctx (.fresh world))) := by
  obtain ⟨h, hsteps, hran, hunmet⟩ := ran_foldl ctx ctx.plan.tasks (baseFrame ctx (.fresh world))
    (fresh_baseFrame ctx _)
  exact ⟨h, hsteps, hsteps ▸ .refl _, hran, hunmet hplan.noForward⟩

namespace Settled

variable {world : W} {h : List (Entry A Out F)} {t : Frame Ctx Out F W}

theorem nodup (hset : Settled ctx world h t) : (h.map Entry.stepId).Nodup := by
  rw [map_stepId]
  exact (hset.steps.map _).nodup_iff.mpr ctx.plan.stepIdsNodup

/-- Every step of the plan has its entry. -/
theorem exists_entry (hset : Settled ctx world h t) {step : PlanStep A}
    (hstep : step ∈ ctx.plan.tasks) : ∃ e ∈ h, e.step = step :=
  List.mem_map.mp (hset.steps.mem_iff.mpr hstep)

theorem step_mem (hset : Settled ctx world h t) {e : Entry A Out F} (he : e ∈ h) :
    e.step ∈ ctx.plan.tasks :=
  hset.steps.mem_iff.mp (List.mem_map_of_mem he)

/-- The completed map at the end holds the output of each success. -/
theorem get_completed (hset : Settled ctx world h t) {e : Entry A Out F} (he : e ∈ h) :
    t.completed.get e.stepId = e.attempt.output := by
  rw [hset.ran.completed]
  exact get_completeAll_of_mem hset.nodup he rfl

/-- It holds nothing else. -/
theorem get_completed_of_unknown (hset : Settled ctx world h t) {id : Int}
    (hid : id ∉ ctx.plan.tasks.map PlanStep.stepId) : t.completed.get id = none := by
  rw [hset.ran.completed]
  apply get_completeAll_of_not_mem
  rw [map_stepId]
  exact fun hmem => hid ((hset.steps.map _).mem_iff.mp hmem)

theorem exists_of_get_completed (hset : Settled ctx world h t) {id : Int} {output : Out}
    (hget : t.completed.get id = some output) :
    ∃ e ∈ h, e.stepId = id ∧ e.attempt.output = some output := by
  by_cases hid : id ∈ ctx.plan.tasks.map PlanStep.stepId
  · obtain ⟨step, hstep, rfl⟩ := List.mem_map.mp hid
    obtain ⟨e, he, rfl⟩ := hset.exists_entry hstep
    exact ⟨e, he, rfl, (hset.get_completed he).symm.trans hget⟩
  · rw [hset.get_completed_of_unknown hid] at hget
    cases hget

end Settled

end Histories

end FinancialRag.Agent
