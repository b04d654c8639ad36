/-
  When is an agent task charged AT MOST ONCE?

  `agent_task_handler` commits SUCCESS, the usage record and the billing record one after the other,
  and nothing ties them to the task row: an attempt that fails after the first record is repeated from
  the start and charges again.  So the bound rests on what happens AFTER a record has been committed.

  `ChargeAt` reads the ledgers off the control point of the live handler (before `record_usage` both
  are empty, before billing only the usage record can be there), and `ChargeInv` adds that ledgers
  that are not empty come with a SEALED row, so no further attempt can begin.
-/
import FinancialRag.Tasks.Success

set_option linter.unusedVariables false
set_option linter.unusedSectionVars false

namespace FinancialRag.Tasks

open Machine

/-- Some record has been committed for the task. -/
def Ledgers.charged (x : Ledgers) : Prop := x.usage ≠ [] ∨ x.billing ≠ []

theorem Ledgers.empty_of_not_charged {x : Ledgers} (h : ¬ x.charged) : x.usage = [] ∧ x.billing = [] := by
  constructor
  · by_contra hu
    exact h (Or.inl hu)
  · by_contra hb
    exact h (Or.inr hb)

/-- What the ledgers hold while a handler stands at this control point. -/
def ChargeAt : AgentPc → Ledgers → Prop
  | .billing _, x => x.usage.length ≤ 1 ∧ x.billing = []
  | .closing, x => x.usage.length ≤ 1 ∧ x.billing.length ≤ 1
  | .completed, x => x.usage.length ≤ 1 ∧ x.billing.length ≤ 1
  | _, x => x.usage = [] ∧ x.billing = []

theorem ChargeAt.atMostOnce {l : AgentPc} {x : Ledgers} (h : ChargeAt l x) :
    x.usage.length ≤ 1 ∧ x.billing.length ≤ 1 := by
  cases l <;> obtain ⟨hu, hb⟩ := h <;> simp_all

/-- One step of the handler follows the ledgers, as long as it raises with empty ledgers only. -/
theorem ChargeAt.move {task : Task} {x : Ledgers} {l : AgentPc} {a : AgentInput}
    {m : HandlerMove AgentPc Ledgers} (h : ChargeAt l x) (hm : AgentMove task x l a m)
    (hraise : a.isRaise = true → ¬ x.charged) : ChargeAt m.next m.stores := by
  cases hm with
  | load => show ChargeAt (if _ then _ else _) x; split <;> exact h
  | reject => exact h
  | begin => exact h
  | answer => exact h
  | succeed => exact h
  | charge =>
    obtain ⟨hu, hb⟩ := h
    refine ⟨?_, hb⟩
    show (_ :: x.usage).length ≤ 1
    rw [hu]
    exact Nat.le_refl 1
  | chargeLost =>
    obtain ⟨hu, hb⟩ := h
    exact ⟨by show x.usage.length ≤ 1; rw [hu]; decide, hb⟩
  | bill =>
    obtain ⟨hu, hb⟩ := h
    refine ⟨hu, ?_⟩
    show (_ :: x.billing).length ≤ 1
    rw [hb]
    exact Nat.le_refl 1
  | close => exact h
  | fail => exact h
  | escape => exact h
  | raise hin => exact Ledgers.empty_of_not_charged (hraise rfl)

section Charging

variable {ι : Type} [DecidableEq ι] {cfg : WorkerConfig} {name : ι → String}

/-- Recovery finds the task at rest, and once a record is committed nothing disturbs the attempt that
    has committed it. -/
def UndisturbedOnceCharged (s : State ι AgentPc Ledgers) (e : Event ι AgentInput) : Prop :=
  RecoversAtRest s e ∧ (s.stores.charged → Undisturbed agentSuccessPoints s e)

structure ChargeInv (s : State ι AgentPc Ledgers) : Prop where
  excl : Excl s
  committed : CommittedSuccess agentSuccessPoints s
  sealedOnceCharged : s.stores.charged → Sealed agentSuccessPoints s
  position : ∀ n l, s.procs n = .alive l → ChargeAt l s.stores
  atMostOnce : s.stores.usage.length ≤ 1 ∧ s.stores.billing.length ≤ 1

theorem chargeInv_init (row : Task) :
    ChargeInv (State.init row noLedgers : State ι AgentPc Ledgers) := by
  refine ⟨excl_init row _, committedSuccess_init row _, ?_, ?_, ?_⟩
  · intro h
    rcases h with h | h <;> exact absurd rfl h
  · intro n l hp
    exact absurd hp (by simp [State.init])
  · exact ⟨Nat.zero_le 1, Nat.zero_le 1⟩

/-- The live handler's control point keeps describing the ledgers. -/
theorem ChargeInv.position_step {s t : State ι AgentPc Ledgers} {e : Event ι AgentInput}
    (h : ChargeInv s) (hP : UndisturbedOnceCharged s e)
    (ht : step cfg name agentTaskHandler s e = some t) (n : Nat) (l : AgentPc)
    (hp : t.procs n = .alive l) : ChargeAt l t.stores := by
  rcases live_step h.excl hP.1 ht hp with ⟨hp', _, hst, _⟩ | ⟨a, l₀, m, rfl, hp', _, hm, rfl, _, hst, _⟩ |
    ⟨_, rfl, _, hst, w, hw⟩
  · rw [hst]
    exact h.position n l hp'
  · rw [hst]
    refine (h.position n l₀ hp').move (agentStep_move hm) ?_
    intro ha hch
    -- with a record committed the row is SUCCESS, and then nothing raises
    have hcalm : a.isRaise = false := hP.2 hch (h.sealedOnceCharged hch).success
    rw [ha] at hcalm
    exact absurd hcalm (by simp)
  · -- a handler starts only while nothing has been charged: a sealed row has no undispatched claim
    rw [hst]
    refine Ledgers.empty_of_not_charged ?_
    intro hch
    exact (h.sealedOnceCharged hch).not_at hw rfl (by simp) (by simp)

/-- Charging seals the row, and a sealed row stays sealed. -/
theorem ChargeInv.sealed_after {s t : State ι AgentPc Ledgers} {e : Event ι AgentInput}
    (h : ChargeInv s) (hP : UndisturbedOnceCharged s e)
    (ht : step cfg name agentTaskHandler s e = some t) (hch : t.stores.charged) :
    Sealed agentSuccessPoints t := by
  have hx : Excl t := excl_step h.excl hP.1 ht
  have hcs := committedSuccess_step h.excl h.committed hP.1 ht
  by_cases hs : s.stores.charged
  · exact (sealed_step h.excl (h.sealedOnceCharged hs) (hP.2 hs) ht).1
  · -- the first record is committed by a live handler that is past its SUCCESS commit
    obtain ⟨hu, hb⟩ := Ledgers.empty_of_not_charged hs
    rcases stores_step ht with hst | ⟨n, a, l, m, rfl, hp, hm, hp', hst⟩
    · rw [hst] at hch
      exact absurd hch hs
    · have hl : m.next.committed = true := by
        rw [hst] at hch
        cases agentStep_move hm with
        | charge => rfl
        | bill => rfl
        | _ => exact absurd hch hs
      exact sealed_of_live hx (hcs n m.next hp' hl) hp' hl

/-- **One step keeps the charging invariant.** -/
theorem chargeInv_step {s t : State ι AgentPc Ledgers} {e : Event ι AgentInput} (h : ChargeInv s)
    (hP : UndisturbedOnceCharged s e) (ht : step cfg name agentTaskHandler s e = some t) :
    ChargeInv t := by
  have hpos := h.position_step hP ht
  refine ⟨excl_step h.excl hP.1 ht, committedSuccess_step h.excl h.committed hP.1 ht,
    h.sealed_after hP ht, hpos, ?_⟩
  rcases stores_step ht with hst | ⟨n, a, l, m, _, _, _, hp', _⟩
  · rw [hst]
    exact h.atMostOnce
  · exact (hpos n m.next hp').atMostOnce

/-- **No double charge.**  In every run in which recovery finds the task at rest, and in which the
    attempt that has committed a usage or billing record is not disturbed any more, at most one
    CHAT_REQUEST usage record and at most one billing record are committed for the task. -/
theorem charged_at_most_once {row : Task} {es : List (Event ι AgentInput)}
    {s : State ι AgentPc Ledgers}
    (hrun : Run (step cfg name agentTaskHandler) UndisturbedOnceCharged (State.init row noLedgers) es s) :
    s.stores.usage.countP (fun r => r.eventType == .chatRequest) ≤ 1 ∧ s.stores.billing.length ≤ 1 := by
  have hinv : ChargeInv s :=
    hrun.invariant (I := ChargeInv) (fun _ _ _ h hP ht => chargeInv_step h hP ht) (chargeInv_init row)
  obtain ⟨hu, hb⟩ := hinv.atMostOnce
  have hcount := List.countP_le_length (l := s.stores.usage)
    (p := fun r => r.eventType == UsageEvent.chatRequest)
  exact ⟨by omega, hb⟩

end Charging

/-- The whole first attempt of `upToSuccess` and `quietEnding` charges once. -/
theorem quiet_attempt_charges_once :
    ∃ s : State Nat AgentPc Ledgers,
      exec (step .default toString agentTaskHandler) (State.init sampleAgentTask noLedgers)
        (upToSuccess ++ quietEnding) = some s ∧
      s.stores.usage.length = 1 ∧ s.stores.billing.length = 1 ∧
      s.stores.usage.countP (fun r => r.eventType == .chatRequest) ≤ 1 := by
  have hexec : ∃ s : State Nat AgentPc Ledgers,
      exec (step .default toString agentTaskHandler) (State.init sampleAgentTask noLedgers)
        (upToSuccess ++ quietEnding) = some s ∧
      s.stores.usage.length = 1 ∧ s.stores.billing.length = 1 := ⟨_, rfl, rfl, rfl⟩
  obtain ⟨s, hs, hu, hb⟩ := hexec
  have hcalm : ∀ e ∈ upToSuccess ++ quietEnding, ∀ u : State Nat AgentPc Ledgers,
      UndisturbedOnceCharged u e := by
    intro e he u
    simp only [upToSuccess, quietEnding, List.cons_append, List.nil_append, List.mem_cons,
      List.not_mem_nil, or_false] at he
    rcases he with rfl | rfl | rfl | rfl | rfl | rfl | rfl | rfl | rfl | rfl | rfl | rfl | rfl | rfl |
      rfl | rfl <;> refine ⟨trivial, fun _ => ?_⟩ <;> first | trivial | exact fun _ => rfl
  exact ⟨s, hs, hu, hb, (charged_at_most_once (run_of_exec hs hcalm)).1⟩

/-- The worker stops between the billing commit and the end of the handler; the retry runs to its
    end. -/
def stopAfterBilling : List (Event Nat AgentInput) :=
  [.handle 0 (.go 8), .handle 0 (.go 9), .work 0 .stop, .work 0 (.go 10), .work 0 (.go 11),
    .work 0 (.go 12), .work 0 (.go 13),
    .poll 0 20, .work 0 (.go 21), .work 0 (.go 22), .work 0 (.go 23),
    .handle 1 (.go 24), .handle 1 (.go 25), .handle 1 (.answers {} 1), .handle 1 (.go 26),
    .handle 1 (.go 27), .handle 1 (.go 28)]

theorem charged_twice :
    ∃ s : State Nat AgentPc Ledgers,
      exec (step .default toString agentTaskHandler) (State.init sampleAgentTask noLedgers)
        (upToSuccess ++ stopAfterBilling) = some s ∧
      s.stores.usage.countP (fun r => r.eventType == .chatRequest) = 2 ∧ s.stores.billing.length = 2 :=
  ⟨_, rfl, rfl, rfl⟩

end FinancialRag.Tasks
