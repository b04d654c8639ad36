/-
  In which order the parallel schedule collects evidence.

  The LEVEL of a step is the length of the longest chain of dependencies below it.  A wave of the loop
  runs steps of one level, the retrievals first; so the evidence comes in the order of the rank
  `2 · level + (0 for a retrieval, 1 otherwise)`, and that is the order of the plan for every choice of
  handlers if and only if the plan itself is in rank order (`evidence_in_plan_order_iff`).
-/
import FinancialRag.Agent.Agreement

set_option linter.unusedVariables false

namespace FinancialRag.Agent

open FinancialRag.Storage FinancialRag.Retrieval

section Levels

variable {A : Type}

/-- Every dependency of a step is an earlier step of the plan. -/
def ExecutionPlan.Earlier (plan : ExecutionPlan A) : Prop :=
  ∀ i : Fin plan.tasks.length, ∀ dep ∈ (plan.tasks.get i).dependsOn,
    dep ∈ (plan.tasks.take i).map PlanStep.stepId

instance (plan : ExecutionPlan A) : Decidable plan.Earlier :=
  inferInstanceAs (Decidable (∀ _ : Fin _, _))

/-- The level of a step above the levels of its dependencies. -/
def levelAbove (levels : Dict Int Nat) (step : PlanStep A) : Nat :=
  (step.dependsOn.map fun dep => (levels.get dep).getD 0 + 1).foldr max 0

/-- The levels of the steps, computed in the order of the list. -/
def levels (tasks : List (PlanStep A)) : Dict Int Nat :=
  tasks.foldl (fun levels step => levels.set step.stepId (levelAbove levels step)) .empty

def ExecutionPlan.level (plan : ExecutionPlan A) (id : Int) : Nat :=
  ((levels plan.tasks).get id).getD 0

/-- The place of a step in the order of the waves. -/
def ExecutionPlan.rank (plan : ExecutionPlan A) (step : PlanStep A) : Nat :=
  2 * plan.level step.stepId + if isRetrieval step then 0 else 1

/-- No step of the plan precedes one of a lower level, nor a retrieval of its own level, unless it is
    one itself. -/
def ExecutionPlan.InRankOrder (plan : ExecutionPlan A) : Prop :=
  plan.tasks.Pairwise fun a b => plan.rank a ≤ plan.rank b

instance (plan : ExecutionPlan A) : Decidable plan.InRankOrder :=
  inferInstanceAs (Decidable (List.Pairwise _ _))

theorem ExecutionPlan.Earlier.earlierOrUnknown {plan : ExecutionPlan A} (h : plan.Earlier) :
    plan.EarlierOrUnknown :=
  fun i dep hdep => Or.inl (h i dep hdep)

/-- The same, where the plan is cut at a step. -/
theorem ExecutionPlan.Earlier.cut {plan : ExecutionPlan A} (h : plan.Earlier)
    {pre suf : List (PlanStep A)} {step : PlanStep A} (htasks : plan.tasks = pre ++ step :: suf)
    {dep : Int} (hdep : dep ∈ step.dependsOn) : dep ∈ pre.map PlanStep.stepId := by
  have hcut := PyList.of_forall_get (P := fun (pre : List (PlanStep A)) (step : PlanStep A) =>
    ∀ dep ∈ step.dependsOn, dep ∈ pre.map PlanStep.stepId) h htasks
  exact hcut dep hdep

/-- A level is one above the highest level of a dependency. -/
theorem levelAbove_spec (d : Dict Int Nat) (step : PlanStep A) :
    (∀ dep ∈ step.dependsOn, (d.get dep).getD 0 < levelAbove d step) ∧
    (levelAbove d step = 0 ∨ ∃ dep ∈ step.dependsOn, (d.get dep).getD 0 + 1 = levelAbove d step) := by
  unfold levelAbove
  induction step.dependsOn with
  | nil => exact ⟨fun dep hdep => absurd hdep List.not_mem_nil, Or.inl rfl⟩
  | cons dep deps ih =>
    obtain ⟨hbelow, htop⟩ := ih
    rw [List.map_cons, List.foldr_cons]
    constructor
    · intro dep' hdep'
      rcases List.mem_cons.mp hdep' with rfl | hdep'
      · omega
      · have := hbelow dep' hdep'
        omega
    · right
      rcases Nat.le_total ((deps.map fun dep => (d.get dep).getD 0 + 1).foldr max 0)
        ((d.get dep).getD 0 + 1) with hle | hle
      · exact ⟨dep, List.mem_cons_self, (Nat.max_eq_left hle).symm⟩
      · rw [Nat.max_eq_right hle]
        rcases htop with hzero | ⟨dep', hdep', heq⟩
        · omega
        · exact ⟨dep', List.mem_cons_of_mem _ hdep', heq⟩

/-- Later steps do not change the levels of others. -/
theorem get_foldl_levels (l : List (PlanStep A)) (d : Dict Int Nat) {id : Int}
    (hid : id ∉ l.map PlanStep.stepId) :
    (l.foldl (fun d step => d.set step.stepId (levelAbove d step)) d).get id = d.get id := by
  induction l generalizing d with
  | nil => rfl
  | cons step l ih =>
    rw [List.map_cons, List.mem_cons, not_or] at hid
    rw [List.foldl_cons, ih _ hid.2, Dict.get_set, if_neg hid.1]

/-- **Levels of a plan whose dependencies point backwards**: above every dependency, and by one above
    some dependency unless there is none below. -/
theorem ExecutionPlan.Earlier.level_spec {plan : ExecutionPlan A} (h : plan.Earlier)
    {step : PlanStep A} (hstep : step ∈ plan.tasks) :
    (∀ dep ∈ step.dependsOn, plan.level dep < plan.level step.stepId) ∧
    (plan.level step.stepId = 0 ∨
      ∃ dep ∈ step.dependsOn, plan.level dep + 1 = plan.level step.stepId) := by
  obtain ⟨pre, suf, htasks⟩ := List.append_of_mem hstep
  have hnodup := plan.stepIdsNodup
  rw [htasks, List.map_append, List.map_cons, List.nodup_append, List.nodup_cons] at hnodup
  -- the level of the step is computed from the levels of the steps before it
  have hself : plan.level step.stepId = levelAbove (levels pre) step := by
    unfold ExecutionPlan.level levels
    rw [htasks, List.foldl_append, List.foldl_cons, get_foldl_levels suf _ hnodup.2.1.1,
      Dict.get_set, if_pos rfl]
    rfl
  have hdep : ∀ dep ∈ step.dependsOn, plan.level dep = ((levels pre).get dep).getD 0 := by
    intro dep hdep
    have hpre := h.cut htasks hdep
    have hlater : dep ∉ (step :: suf).map PlanStep.stepId :=
      fun hmem => hnodup.2.2 dep hpre dep hmem rfl
    unfold ExecutionPlan.level levels
    rw [htasks, List.foldl_append, get_foldl_levels (step :: suf) _ hlater]
  obtain ⟨hbelow, htop⟩ := levelAbove_spec (levels pre) step
  rw [hself]
  refine ⟨?_, htop.imp id ?_⟩
  · intro dep hmem
    rw [hdep dep hmem]
    exact hbelow dep hmem
  · rintro ⟨dep, hmem, heq⟩
    exact ⟨dep, hmem, by rw [hdep dep hmem, heq]⟩

end Levels

section Order

variable {A Ctx Out F W : Type}

/-- The entries whose steps were run, in the order of their merge. -/
def executed (h : List (Entry A Out F)) : List (Entry A Out F) :=
  h.filter fun e => match e.attempt with
    | .unmet => false
    | _ => true

theorem mem_executed {h : List (Entry A Out F)} {e : Entry A Out F} :
    e ∈ executed h ↔ e ∈ h ∧ e.attempt ≠ .unmet := by
  unfold executed
  rw [List.mem_filter]
  cases e.attempt with
  | unmet => simp
  | unregistered stepType => simp
  | ran run => simp

theorem executed_append (h h' : List (Entry A Out F)) :
    executed (h ++ h') = executed h ++ executed h' :=
  List.filter_append ..

theorem executed_eq_self {h : List (Entry A Out F)} (hall : ∀ e ∈ h, e.attempt ≠ .unmet) :
    executed h = h := by
  have hsub : (executed h).Sublist h := List.filter_sublist
  refine List.filter_eq_self.mpr ?_
  intro e he
  have := (mem_executed.mpr ⟨he, hall e he⟩)
  exact (List.mem_filter.mp this).2

/-- At the start of the wave of level `k`: what is completed is of a lower level, and what is pending
    of a lower level is blocked. -/
structure AtLevel (plan : ExecutionPlan A) (k : Nat) (pending : List (PlanStep A))
    (c : Dict Int Out) : Prop where
  below : ∀ id, Done c id → plan.level id < k
  blocked : ∀ step ∈ pending, plan.level step.stepId < k → dependenciesMet step c = false

/-- A step that is ready at the start of a wave is of the level of the wave. -/
theorem AtLevel.level_eq {plan : ExecutionPlan A} (hplan : plan.Earlier) {k : Nat}
    {pending : List (PlanStep A)} {c : Dict Int Out} (hat : AtLevel plan k pending c)
    {step : PlanStep A} (hmem : step ∈ pending) (hstep : step ∈ plan.tasks)
    (hmet : dependenciesMet step c = true) : plan.level step.stepId = k := by
  obtain ⟨_, htop⟩ := hplan.level_spec hstep
  have hge : ¬ plan.level step.stepId < k := by
    intro hlt
    rw [hat.blocked step hmem hlt] at hmet
    cases hmet
  rcases htop with hzero | ⟨dep, hdep, heq⟩
  · omega
  · have := hat.below dep (dependenciesMet_iff.mp hmet dep hdep)
    omega

/-- The next wave is of the next level: this wave completes only steps of its own level. -/
theorem AtLevel.next {plan : ExecutionPlan A} (hplan : plan.Earlier) {k : Nat}
    {pending : List (PlanStep A)} (hpending : ∀ step ∈ pending, step ∈ plan.tasks)
    {c c' : Dict Int Out} (hat : AtLevel plan k pending c) {h : List (Entry A Out F)}
    (hlevel : ∀ e ∈ h, plan.level e.stepId = k) (hc' : c' = completeAll h c) :
    AtLevel plan (k + 1) (pending.filter fun step => !dependenciesMet step c) c' := by
  have hdone : ∀ id, Done c' id → Done c id ∨ plan.level id = k := by
    rintro id ⟨output, hget⟩
    by_cases hid : id ∈ h.map Entry.stepId
    · obtain ⟨e, he, rfl⟩ := List.mem_map.mp hid
      exact Or.inr (hlevel e he)
    · rw [hc', get_completeAll_of_not_mem hid] at hget
      exact Or.inl ⟨output, hget⟩
  constructor
  · intro id hid
    rcases hdone id hid with hbefore | heq
    · have := hat.below id hbefore
      omega
    · omega
  · intro step hstep hlt
    obtain ⟨hmem, hnot⟩ := List.mem_filter.mp hstep
    by_contra hmet
    rw [Bool.not_eq_false, dependenciesMet_iff] at hmet
    -- a dependency is of a lower level still, so this wave did not complete it
    have hmet' : dependenciesMet step c = true := by
      rw [dependenciesMet_iff]
      intro dep hdep
      rcases hdone dep (hmet dep hdep) with hbefore | heq
      · exact hbefore
      · have := (hplan.level_spec (hpending step hmem)).1 dep hdep
        omega
    rw [hmet'] at hnot
    cases hnot

/-- Inside a wave the retrievals come first. -/
theorem pairwise_rank_waveOrder {plan : ExecutionPlan A} {k : Nat} (ready : List (PlanStep A))
    (hlevel : ∀ step ∈ waveOrder ready, plan.level step.stepId = k) :
    (waveOrder ready).Pairwise fun a b => plan.rank a ≤ plan.rank b := by
  have hleft : ∀ step ∈ ready.filter isRetrieval, plan.rank step = 2 * k := by
    intro step hstep
    have hk := hlevel step (List.mem_append_left _ hstep)
    unfold ExecutionPlan.rank
    rw [hk, if_pos (List.mem_filter.mp hstep).2]
    omega
  have hright : ∀ step ∈ ready.filter fun step => !isRetrieval step, plan.rank step = 2 * k + 1 := by
    intro step hstep
    have hk := hlevel step (List.mem_append_right _ hstep)
    have hnot : isRetrieval step = false := by simpa using (List.mem_filter.mp hstep).2
    unfold ExecutionPlan.rank
    rw [hk, hnot]
    rfl
  refine List.pairwise_append.mpr ⟨?_, ?_, ?_⟩
  · refine List.pairwise_of_forall_mem_list ?_
    intro a ha b hb
    rw [hleft a ha, hleft b hb]
  · refine List.pairwise_of_forall_mem_list ?_
    intro a ha b hb
    rw [hright a ha, hright b hb]
  · intro a ha b hb
    rw [hleft a ha, hright b hb]
    omega

theorem atLevel_start (plan : ExecutionPlan A) :
    AtLevel plan 0 plan.tasks (.empty : Dict Int Out) where
  below := by
    rintro id ⟨output, hget⟩
    cases hget
  blocked := fun step _ hlt => absurd hlt (Nat.not_lt_zero _)

variable [Inhabited Out] {ctx : ExecutionHandlerContext A Ctx Out F W}

/-- The wave a run of the loop begins with. -/
theorem wave_level (hplan : ctx.plan.Earlier) {k : Nat} {pending : List (PlanStep A)}
    (hpending : ∀ step ∈ pending, step ∈ ctx.plan.tasks) {s t : Frame Ctx Out F W}
    (hat : AtLevel ctx.plan k pending s.completed) {h : List (Entry A Out F)}
    (hsteps : h.map Entry.step =
      waveOrder (pending.filter fun step => dependenciesMet step s.completed))
    (hran : Ran ctx h s t) {e : Entry A Out F} (he : e ∈ h) :
    ctx.plan.level e.stepId = k ∧ e.attempt ≠ .unmet := by
  have hmem : e.step ∈ waveOrder (pending.filter fun step => dependenciesMet step s.completed) :=
    hsteps ▸ List.mem_map_of_mem he
  obtain ⟨hin, hmet⟩ := List.mem_filter.mp ((waveOrder_perm _).mem_iff.mp hmem)
  exact ⟨hat.level_eq hplan hin (hpending _ hin) hmet, hran.ne_unmet he hmet⟩

/-- **The loop runs steps in rank order.** -/
theorem Scheduled.rankOrder (hplan : ctx.plan.Earlier) {pending : List (PlanStep A)}
    {h : List (Entry A Out F)} {s t : Frame Ctx Out F W} (hsched : Scheduled ctx pending h s t)
    (hpending : ∀ step ∈ pending, step ∈ ctx.plan.tasks) (k : Nat)
    (hat : AtLevel ctx.plan k pending s.completed) :
    (∀ e ∈ executed h, k ≤ ctx.plan.level e.stepId) ∧
    ((executed h).map Entry.step).Pairwise fun a b => ctx.plan.rank a ≤ ctx.plan.rank b := by
  induction hsched generalizing k with
  | done s => exact ⟨fun e he => absurd he List.not_mem_nil, List.Pairwise.nil⟩
  | @blocked pending s t hblocked hran =>
    have hnone : executed (pending.map fun step => (⟨step, .unmet⟩ : Entry A Out F)) = [] := by
      refine List.filter_eq_nil_iff.mpr ?_
      intro e he
      obtain ⟨step, _, rfl⟩ := List.mem_map.mp he
      exact Bool.false_ne_true
    rw [hnone]
    exact ⟨fun e he => absurd he List.not_mem_nil, List.Pairwise.nil⟩
  | @wave pending h h' s t u hsteps hran hrest ih =>
    have hwave : ∀ e ∈ h, ctx.plan.level e.stepId = k ∧ e.attempt ≠ .unmet :=
      fun e he => wave_level hplan hpending hat hsteps hran he
    obtain ⟨hlater, hsorted⟩ := ih (fun step hstep => hpending step (List.mem_filter.mp hstep).1)
      (k + 1) (hat.next hplan hpending (fun e he => (hwave e he).1) hran.completed)
    rw [executed_append, executed_eq_self fun e he => (hwave e he).2, List.map_append]
    constructor
    · intro e he
      rcases List.mem_append.mp he with he | he
      · exact (hwave e he).1.ge
      · have := hlater e he
        omega
    · have hlevel : ∀ step ∈ h.map Entry.step, ctx.plan.level step.stepId = k := by
        intro step hstep
        obtain ⟨e, he, rfl⟩ := List.mem_map.mp hstep
        exact (hwave e he).1
      refine List.pairwise_append.mpr ⟨?_, hsorted, ?_⟩
      · rw [hsteps] at hlevel ⊢
        exact pairwise_rank_waveOrder _ hlevel
      · intro a ha b hb
        obtain ⟨e, he, rfl⟩ := List.mem_map.mp hb
        have hbelow := hlevel a ha
        have habove : k + 1 ≤ ctx.plan.level e.step.stepId := hlater e he
        unfold ExecutionPlan.rank
        split <;> split <;> omega

/-- **A plan in rank order is run in its own order.** -/
theorem Scheduled.sublist (hplan : ctx.plan.Earlier) {pending : List (PlanStep A)}
    {h : List (Entry A Out F)} {s t : Frame Ctx Out F W} (hsched : Scheduled ctx pending h s t)
    (hpending : ∀ step ∈ pending, step ∈ ctx.plan.tasks)
    (hranked : pending.Pairwise fun a b => ctx.plan.rank a ≤ ctx.plan.rank b) (k : Nat)
    (hat : AtLevel ctx.plan k pending s.completed) :
    ((executed h).map Entry.step).Sublist pending := by
  induction hsched generalizing k with
  | done s => exact List.Sublist.refl _
  | @blocked pending s t hblocked hran =>
    refine List.Sublist.trans (List.filter_sublist.map _) ?_
    rw [List.map_map]
    exact (List.map_id' pending).symm ▸ List.Sublist.refl _
  | @wave pending h h' s t u hsteps hran hrest ih =>
    have hwave : ∀ e ∈ h, ctx.plan.level e.stepId = k ∧ e.attempt ≠ .unmet :=
      fun e he => wave_level hplan hpending hat hsteps hran he
    have hrest' : ∀ step ∈ pending.filter fun step => !dependenciesMet step s.completed,
        step ∈ ctx.plan.tasks := fun step hstep => hpending step (List.mem_filter.mp hstep).1
    have hat' := hat.next hplan hpending (fun e he => (hwave e he).1) hran.completed
    have hlater := (hrest.rankOrder hplan hrest' (k + 1) hat').1
    have hsub := ih hrest' (hranked.sublist List.filter_sublist) (k + 1) hat'
    rw [executed_append, executed_eq_self fun e he => (hwave e he).2, List.map_append, hsteps]
    -- the ready steps are of one level, and in rank order already
    have hready : ∀ step ∈ pending.filter fun step => dependenciesMet step s.completed,
        ctx.plan.level step.stepId = k := by
      intro step hstep
      obtain ⟨hin, hmet⟩ := List.mem_filter.mp hstep
      exact hat.level_eq hplan hin (hpending step hin) hmet
    have hwaveOrder : waveOrder (pending.filter fun step => dependenciesMet step s.completed) =
        pending.filter fun step => dependenciesMet step s.completed := by
      refine PyList.filter_append_filter_not ?_
      refine (hranked.sublist List.filter_sublist).imp_of_mem ?_
      intro a b ha hb hab hretrieval
      unfold ExecutionPlan.rank at hab
      rw [hready a ha, hready b hb, hretrieval] at hab
      by_contra hnot
      rw [if_neg hnot] at hab
      simp at hab
    rw [hwaveOrder]
    -- the pending steps fall into those of this level, or lower, and the later ones
    have hsplit : pending.filter (fun step => decide (ctx.plan.level step.stepId ≤ k)) ++
        pending.filter (fun step => !decide (ctx.plan.level step.stepId ≤ k)) = pending := by
      refine PyList.filter_append_filter_not (hranked.imp ?_)
      intro a b hab hb
      have hb' := of_decide_eq_true hb
      refine decide_eq_true ?_
      unfold ExecutionPlan.rank at hab
      split at hab <;> split at hab <;> omega
    rw [← hsplit]
    refine List.Sublist.append ?_ ?_
    · rw [hsplit]
      have hself : (pending.filter fun step => dependenciesMet step s.completed) =
          (pending.filter fun step => dependenciesMet step s.completed).filter
            fun step => decide (ctx.plan.level step.stepId ≤ k) := by
        refine (List.filter_eq_self.mpr ?_).symm
        intro step hstep
        exact decide_eq_true (hready step hstep).le
      rw [hself]
      exact List.filter_sublist.filter _
    · have hself : ((executed h').map Entry.step).filter
          (fun step => !decide (ctx.plan.level step.stepId ≤ k)) = (executed h').map Entry.step := by
        refine List.filter_eq_self.mpr ?_
        intro step hstep
        obtain ⟨e, he, rfl⟩ := List.mem_map.mp hstep
        have hge : k + 1 ≤ ctx.plan.level e.step.stepId := hlater e he
        simp only [Bool.not_eq_true', decide_eq_false_iff_not]
        omega
      rw [← hself]
      exact (hsub.trans List.filter_sublist).filter _

/-! ## Evidence in plan order -/

/-- The evidence of a step: what its handler appended, if the call returned. -/
def Board.evidenceOf (b : Board Out F W) (id : Int) : List (Evidence F) :=
  match b.calls.find? fun call => call.stepId == id with
  | some call =>
    match call.run.outcome with
    | .ok _ => call.run.evidence
    | .error _ => []
  | none => []

/-- The evidence of the successful steps, in the order of the plan. -/
def Board.planEvidence (b : Board Out F W) (plan : ExecutionPlan A) : List (Evidence F) :=
  plan.tasks.flatMap fun step => b.evidenceOf step.stepId

/-- The board of a settled schedule names what each entry kept. -/
theorem Settled.evidenceOf {w : W} {h : List (Entry A Out F)} {t : Frame Ctx Out F W}
    (hset : Settled ctx w h t) {e : Entry A Out F} (he : e ∈ h) :
    t.board.evidenceOf e.stepId = e.attempt.kept := by
  have hcall : ∀ call, call ∈ t.board.calls ↔ ∃ e ∈ h, call ∈ e.attempt.calls e.stepId := by
    intro call
    rw [hset.ran.board.calls.mem_iff]
    exact List.mem_flatMap
  unfold Board.evidenceOf
  cases hfind : t.board.calls.find? fun call => call.stepId == e.stepId with
  | none =>
    -- no call: the step kept nothing
    have hnone := List.find?_eq_none.mp hfind
    cases hattempt : e.attempt with
    | unmet => rfl
    | unregistered stepType => rfl
    | ran run =>
      have hmem : (⟨e.stepId, run⟩ : Call Out F) ∈ t.board.calls :=
        (hcall _).mpr ⟨e, he, by rw [hattempt]; exact List.mem_singleton.mpr rfl⟩
      exact absurd (beq_iff_eq.mpr rfl) (hnone _ hmem)
  | some call =>
    have hid : call.stepId = e.stepId := by simpa using List.find?_some hfind
    obtain ⟨e', he', hmem⟩ := (hcall call).mp (List.mem_of_find?_eq_some hfind)
    cases hattempt : e'.attempt with
    | unmet => rw [hattempt] at hmem; exact absurd hmem List.not_mem_nil
    | unregistered stepType => rw [hattempt] at hmem; exact absurd hmem List.not_mem_nil
    | ran run =>
      rw [hattempt] at hmem
      obtain rfl := List.mem_singleton.mp hmem
      obtain rfl : e' = e := List.inj_on_of_nodup_map hset.nodup he' he hid
      rw [hattempt]
      obtain ⟨evidence, outcome⟩ := run
      cases outcome with
      | ok output => rfl
      | error error => rfl

/-- The evidence of a settled schedule, along the steps it executed. -/
theorem Settled.evidence_eq {w : W} {h : List (Entry A Out F)} {t : Frame Ctx Out F W}
    (hset : Settled ctx w h t) :
    t.shared.allEvidence =
      ((executed h).map Entry.step).flatMap fun step => t.board.evidenceOf step.stepId := by
  rw [hset.ran.evidence]
  show [] ++ (h.flatMap fun e => e.attempt.kept) = _
  rw [List.nil_append, List.flatMap_map]
  have hall : ∀ h' : List (Entry A Out F), (∀ e ∈ h', e ∈ h) →
      (h'.flatMap fun e => e.attempt.kept) =
        (executed h').flatMap fun e => t.board.evidenceOf e.step.stepId := by
    intro h' hsub
    induction h' with
    | nil => rfl
    | cons e h' ih =>
      have hrest := ih fun e' he' => hsub e' (List.mem_cons_of_mem _ he')
      have hhead : t.board.evidenceOf e.step.stepId = e.attempt.kept :=
        hset.evidenceOf (hsub e List.mem_cons_self)
      unfold executed at hrest ⊢
      rw [List.filter_cons, List.flatMap_cons, hrest]
      cases hattempt : e.attempt with
      | unmet => rfl
      | unregistered stepType => simp [← hattempt, hhead]
      | ran run => simp [← hattempt, hhead]
  exact hall h fun e he => he

/-- A plan in rank order is collected in its own order, whatever the handlers do. -/
theorem Settled.evidence_of_inRankOrder (hplan : ctx.plan.Earlier) (hranked : ctx.plan.InRankOrder)
    {w : W} {h : List (Entry A Out F)} {t : Frame Ctx Out F W}
    (hset : Settled ctx w h t)
    (hsched : Scheduled ctx ctx.plan.tasks h (baseFrame ctx (.fresh w)) t) :
    t.shared.allEvidence = t.board.planEvidence ctx.plan := by
  rw [hset.evidence_eq]
  refine PyList.flatMap_eq_of_sublist
    (hsched.sublist hplan (fun step hstep => hstep) hranked 0 (atLevel_start _))
    ctx.plan.stepIdsNodup.of_map ?_
  intro step hstep hnot
  obtain ⟨e, he, rfl⟩ := hset.exists_entry hstep
  have hunmet : e.attempt = .unmet := by
    by_contra hne
    exact hnot (List.mem_map_of_mem (mem_executed.mpr ⟨he, hne⟩))
  have hkept := hset.evidenceOf he
  rw [hunmet] at hkept
  exact hkept

/-- A handler that never fails and appends evidence for two steps only. -/
def pairHandler (a b : Int) (first second : Evidence F) : Handler A Ctx Out F W :=
  fun step _ world =>
    (⟨if step.stepId = a then [first] else if step.stepId = b then [second] else [], .ok default⟩,
      world)

/-- With it every step of a plan whose dependencies point backwards is run, by induction on the
    plan. -/
theorem ran_of_pairHandler (hplan : ctx.plan.Earlier) {a b : Int} {first second : Evidence F}
    (hhandlers : ctx.handlers = fun _ => some (pairHandler a b first second)) {w : W}
    {h : List (Entry A Out F)} {t : Frame Ctx Out F W} (hset : Settled ctx w h t)
    (pre suf : List (PlanStep A)) (htasks : ctx.plan.tasks = pre ++ suf) :
    ∀ e ∈ h, e.step ∈ pre → e.attempt = .ran
      ⟨if e.stepId = a then [first] else if e.stepId = b then [second] else [], .ok default⟩ := by
  induction pre using List.reverseRecOn generalizing suf with
  | nil => exact fun e _ hpre => absurd hpre List.not_mem_nil
  | append_singleton pre step ih =>
    rw [List.append_assoc] at htasks
    have hearlier := ih ([step] ++ suf) htasks
    intro e he hpre
    rcases List.mem_append.mp hpre with hpre | hlast
    · exact hearlier e he hpre
    have hstep : e.step = step := List.mem_singleton.mp hlast
    have hmet : dependenciesMet e.step t.completed = true := by
      rw [dependenciesMet_iff]
      intro dep hdep
      obtain ⟨step₀, hstep₀, rfl⟩ := List.mem_map.mp (hplan.cut htasks (hstep ▸ hdep))
      obtain ⟨d, hd, rfl⟩ := hset.exists_entry (htasks ▸ List.mem_append_left _ hstep₀)
      have hget := hset.get_completed hd
      rw [hearlier d hd hstep₀] at hget
      exact ⟨default, hget⟩
    have hne : e.attempt ≠ .unmet := by
      intro hunmet
      rw [hset.unmet e he hunmet] at hmet
      cases hmet
    obtain ⟨fr, _, _, _, hattempt⟩ := hset.ran.tried e he
    rw [← hattempt] at hne ⊢
    unfold attempt at hne ⊢
    split at hne
    · rename_i hthen
      rw [if_pos hthen, hhandlers]
      rfl
    · exact absurd rfl hne

variable [PyFloat F]

/-- The output is what `output_from_evidence` makes of the evidence in plan order. -/
def InPlanOrder (ctx : ExecutionHandlerContext A Ctx Out F W) (par : Execution Out F W) : Prop :=
  par.output =
    outputFromEvidence ctx.plan.tasks (par.board.planEvidence ctx.plan) par.board

/-- **When evidence comes in plan order.**  Of a plan whose dependencies point backwards, every parallel
    execution (whatever the handlers, the worlds, the parallelism and the completion orders) collects
    the evidence of its successful steps in plan order, IF AND ONLY IF the plan is in rank order. -/
theorem evidence_in_plan_order_iff [Inhabited Ctx] [Inhabited W] (plan : ExecutionPlan A)
    (hplan : plan.Earlier) :
    (∀ ctx : ExecutionHandlerContext A Ctx Out F W, ctx.plan = plan →
      ∀ (pool : Pool A) (w : W) (fuel : Nat), plan.tasks.length < fuel →
        ∃ par, executeParallelRetrievals ctx pool w fuel = some par ∧ InPlanOrder ctx par) ↔
      plan.InRankOrder := by
  constructor
  · intro hall
    refine List.pairwise_iff_forall_sublist.mpr ?_
    intro a b hab
    by_contra hrank
    have hne : a ≠ b := by
      rintro rfl
      exact hrank (Nat.le_refl _)
    have hnodup := plan.stepIdsNodup
    have hids : b.stepId ≠ a.stepId := by
      have hpair := (hab.map PlanStep.stepId).nodup hnodup
      intro heq
      simp [heq] at hpair
    -- two steps in the wrong order, with one evidence each
    let first : Evidence F := ⟨"first", .none, .none, ((0 : Int) : F), .empty⟩
    let second : Evidence F := ⟨"second", .none, .none, ((0 : Int) : F), .empty⟩
    let ctx : ExecutionHandlerContext A Ctx Out F W :=
      ⟨plan, default, 1, fun _ => some (pairHandler a.stepId b.stepId first second)⟩
    obtain ⟨par, hpar, horder⟩ := hall ctx rfl .inOrder default _ (Nat.lt_succ_self _)
    obtain ⟨t, h, hloop, hsched, hset⟩ :=
      settled_parallel ctx .inOrder default _ (Nat.lt_succ_self plan.tasks.length)
    rw [executeParallelRetrievals, hloop] at hpar
    obtain rfl : t.finish ctx = par := Option.some.inj hpar
    have hevidence : t.shared.allEvidence = t.board.planEvidence plan :=
      congrArg ExecutionOutput.evidences horder
    have hran := ran_of_pairHandler hplan rfl hset plan.tasks [] (List.append_nil _).symm
    have hall' : ∀ e ∈ h, e.attempt ≠ .unmet := by
      intro e he hunmet
      rw [hran e he (hset.step_mem he)] at hunmet
      cases hunmet
    have hof : ∀ step ∈ plan.tasks, t.board.evidenceOf step.stepId =
        if step.stepId = a.stepId then [first] else if step.stepId = b.stepId then [second] else [] := by
      intro step hstep
      obtain ⟨e, he, rfl⟩ := hset.exists_entry hstep
      have hkept := hset.evidenceOf he
      rw [hran e he hstep] at hkept
      exact hkept
    -- the loop ran `b` first, as its rank is the lower
    have hsorted := (hsched.rankOrder hplan (fun step hstep => hstep) 0 (atLevel_start plan)).2
    rw [executed_eq_self hall'] at hsorted
    have hba : [b, a].Sublist (h.map Entry.step) := by
      rcases PyList.sublist_pair (hset.steps.mem_iff.mpr (hab.subset List.mem_cons_self))
        (hset.steps.mem_iff.mpr (hab.subset (List.mem_cons_of_mem _ List.mem_cons_self))) hne
        with hab' | hba
      · exact absurd (List.pairwise_iff_forall_sublist.mp hsorted hab') hrank
      · exact hba
    have hnil : ∀ step ∈ plan.tasks, step ≠ a → step ≠ b → t.board.evidenceOf step.stepId = [] := by
      intro step hstep hnea hneb
      have hmem : ∀ c ∈ [a, b], step.stepId = c.stepId → step = c := fun c hc hid =>
        List.inj_on_of_nodup_map hnodup hstep (hab.subset hc) hid
      rw [hof step hstep, if_neg fun hid => hnea (hmem a List.mem_cons_self hid),
        if_neg fun hid => hneb (hmem b (List.mem_cons_of_mem _ List.mem_cons_self) hid)]
    have hfirst := hof a (hab.subset List.mem_cons_self)
    have hsecond := hof b (hab.subset (List.mem_cons_of_mem _ List.mem_cons_self))
    rw [if_pos rfl] at hfirst
    rw [if_neg hids, if_pos rfl] at hsecond
    rw [hset.evidence_eq, executed_eq_self hall',
      ← PyList.flatMap_eq_of_sublist hba (hset.steps.nodup_iff.mpr hnodup.of_map) fun step hstep hnot =>
        hnil step (hset.steps.mem_iff.mp hstep) (fun heq => hnot (by simp [heq]))
          fun heq => hnot (by simp [heq])] at hevidence
    unfold Board.planEvidence at hevidence
    rw [← PyList.flatMap_eq_of_sublist hab hnodup.of_map fun step hstep hnot =>
        hnil step hstep (fun heq => hnot (by simp [heq])) fun heq => hnot (by simp [heq])] at hevidence
    simp only [List.flatMap_cons, List.flatMap_nil, hfirst, hsecond, List.singleton_append,
      List.append_nil] at hevidence
    have hcontent : "second" = "first" := congrArg Evidence.content (List.cons.inj hevidence).1
    exact absurd hcontent (by decide)
  · rintro hranked ctx rfl pool w fuel hfuel
    obtain ⟨t, h, hloop, hsched, hset⟩ := settled_parallel ctx pool w fuel hfuel
    refine ⟨t.finish ctx, by rw [executeParallelRetrievals, hloop]; rfl, ?_⟩
    show outputFromEvidence ctx.plan.tasks t.shared.allEvidence t.board = _
    rw [hset.evidence_of_inRankOrder hplan hranked hsched]
    rfl

end Order

/-- Three retrievals, the second of which waits for the first. -/
def followUpPlan : ExecutionPlan Bool :=
  samplePlan [⟨1, .retrieve, [], false⟩, ⟨2, .retrieve, [1], false⟩, ⟨3, .retrieve, [], false⟩]

/-- **Evidence out of plan order**: the third retrieval runs in the first wave, so its evidence is
    numbered before the second's. -/
theorem evidence_out_of_plan_order : followUpPlan.Earlier ∧
    ∃ par, executeParallelRetrievals (sampleContext followUpPlan) .inOrder 0 4 = some par ∧
      par.output.evidences ≠ par.board.planEvidence followUpPlan ∧
      ¬ InPlanOrder (sampleContext followUpPlan) par := by
  refine ⟨by decide, _, rfl, ?_⟩
  have hne : ∀ par, executeParallelRetrievals (sampleContext followUpPlan) .inOrder 0 4 = some par →
      par.output.evidences ≠ par.board.planEvidence followUpPlan := by
    rintro par hpar heq
    have hsources : (executeParallelRetrievals (sampleContext followUpPlan) .inOrder 0 4).map
        (fun par => (par.output.evidences.map fun ev => ev.source.text,
          (par.board.planEvidence followUpPlan).map fun ev => ev.source.text)) =
        some (["1", "3", "2"], ["1", "2", "3"]) := by decide +kernel
    rw [hpar, Option.map_some, heq, Option.some.injEq, Prod.mk.injEq] at hsources
    have := hsources.1.symm.trans hsources.2
    exact absurd this (by decide)
  exact ⟨hne _ rfl, fun horder => hne _ rfl (congrArg ExecutionOutput.evidences horder)⟩

theorem followUpPlan_order_iff :
    (∀ ctx : ExecutionHandlerContext Bool Unit Int ℚ Nat, ctx.plan = followUpPlan →
      ∀ (pool : Pool Bool) (w : Nat) (fuel : Nat), followUpPlan.tasks.length < fuel →
        ∃ par, executeParallelRetrievals ctx pool w fuel = some par ∧ InPlanOrder ctx par) ↔
      followUpPlan.InRankOrder :=
  evidence_in_plan_order_iff followUpPlan (by decide)

end FinancialRag.Agent
