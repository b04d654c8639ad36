/-
  **Processes** — what a thread does, one atomic action at a time, over arbitrary shared states, answers
  and marks.

  A `Proc` changes the shared state, leaves a mark, CALLS out (and goes on with the answer), or submits a
  job and AWAITS it.  Two facts about a process are stated here, by recursion on it, for an executor to
  carry to its runs: its `weight`, the most calls it can make, and that it is `Honest`, that it ends well
  only if it has earned it.
-/
import Mathlib.Data.ENat.Lattice
import Mathlib.Order.CompletePartialOrder
import Mathlib.Tactic.Ring

set_option linter.unusedVariables false

/-! ## Processes and their weight -/

/-- A process over a shared state `σ`, with answers `α` and marks `ε`. -/
inductive Proc (σ α ε : Type) where
  | ret (r : α)
  | act (update : σ → σ) (next : σ → Proc σ α ε)
  | emit (e : ε) (next : Proc σ α ε)
  | call (next : α → Proc σ α ε)
  | await (job : Proc σ α ε) (next : Option α → Proc σ α ε)

namespace Proc

variable {σ α ε : Type}

/-- `p`, and then `k` with its result. -/
def bind (p : Proc σ α ε) (k : α → Proc σ α ε) : Proc σ α ε :=
  match p with
  | .ret r => k r
  | .act update next => .act update fun s => (next s).bind k
  | .emit e next => .emit e (next.bind k)
  | .call next => .call fun r => (next r).bind k
  | .await job next => .await job fun r => (next r).bind k

/-- The most calls a process can make, those of its jobs included. -/
noncomputable def weight : Proc σ α ε → ℕ∞
  | .ret _ => 0
  | .act _ next => ⨆ s, (next s).weight
  | .emit _ next => next.weight
  | .call next => 1 + ⨆ r, (next r).weight
  | .await job next => job.weight + ⨆ r, (next r).weight

theorem weight_act_le {update : σ → σ} {next : σ → Proc σ α ε} {n : ℕ∞}
    (h : ∀ s, (next s).weight ≤ n) : (act update next).weight ≤ n := by
  rw [weight]
  exact iSup_le h

theorem weight_bind_le (p : Proc σ α ε) (k : α → Proc σ α ε) {n : ℕ∞}
    (hk : ∀ r, (k r).weight ≤ n) : (p.bind k).weight ≤ p.weight + n := by
  induction p with
  | ret r =>
    rw [bind, weight, zero_add]
    exact hk r
  | act update next ih =>
    rw [bind, weight, weight]
    refine iSup_le fun s => (ih s).trans ?_
    gcongr
    exact le_iSup (fun s => (next s).weight) s
  | emit e next ih => exact ih
  | call next ih =>
    rw [bind, weight, weight, add_assoc]
    gcongr
    refine iSup_le fun r => (ih r).trans ?_
    gcongr
    exact le_iSup (fun r => (next r).weight) r
  | await job next _ ih =>
    rw [bind, weight, weight, add_assoc]
    gcongr
    refine iSup_le fun r => (ih r).trans ?_
    gcongr
    exact le_iSup (fun r => (next r).weight) r

end Proc

/-- A process that leaves all its calls to `inner`: it never calls and never submits, and if it goes
    on as `inner`, it does so once and for all. -/
inductive Proc.Defers {σ α ε : Type} (inner : Proc σ α ε) : Proc σ α ε → Prop
  | here : Defers inner inner
  | ret (r : α) : Defers inner (.ret r)
  | act (update : σ → σ) {next : σ → Proc σ α ε} : (∀ s, Defers inner (next s)) →
      Defers inner (.act update next)

theorem Proc.Defers.weight_le {σ α ε : Type} {inner p : Proc σ α ε} (h : Defers inner p) :
    p.weight ≤ inner.weight := by
  induction h with
  | here => exact le_rfl
  | ret r => exact zero_le
  | act update _ ih => exact weight_act_le ih

/-! ## Honest processes -/

/-- What the log of a caller records. -/
inductive Obs (α ε : Type) where
  | called
  | returned (r : α)
  | emitted (e : ε)
  | fired
  deriving DecidableEq

/-- Whether it is the start of a call. -/
def Obs.isCalled {α ε : Type} : Obs α ε → Bool
  | .called => true
  | _ => false

namespace Proc

variable {σ α ε : Type}

/-- A process that ends well only if it has earned it: `earned` says what was seen so far, `ok` which
    results are good and `credit` what earns them. -/
def Honest (ok : α → Prop) (credit : Obs α ε → Prop) (earned : Prop) : Proc σ α ε → Prop
  | .ret r => ok r → earned
  | .act _ next => ∀ s, (next s).Honest ok credit earned
  | .emit e next => next.Honest ok credit (earned ∨ credit (.emitted e))
  | .call next => ∀ r, (next r).Honest ok credit (earned ∨ credit (.returned r))
  | .await job next =>
    job.Honest ok credit earned ∧ ∀ r, (next r).Honest ok credit (earned ∨ ∃ a, r = some a ∧ ok a)

variable {ok : α → Prop} {credit : Obs α ε → Prop}

theorem Honest.mono {p : Proc σ α ε} {earned earned' : Prop} (himp : earned → earned')
    (h : p.Honest ok credit earned) : p.Honest ok credit earned' := by
  induction p generalizing earned earned' with
  | ret r => exact fun hr => himp (h hr)
  | act update next ih => exact fun s => ih s himp (h s)
  | emit e next ih => exact ih (Or.imp_left himp) h
  | call next ih => exact fun r => ih r (Or.imp_left himp) (h r)
  | await job next ihjob ih => exact ⟨ihjob himp h.1, fun r => ih r (Or.imp_left himp) (h.2 r)⟩

/-- The rule of composition: what follows may rely on what a good result has earned. -/
theorem Honest.bind {p : Proc σ α ε} {k : α → Proc σ α ε} {earned : Prop}
    (h : p.Honest ok credit earned)
    (hk : ∀ r (earned' : Prop), (earned → earned') → (ok r → earned') →
      (k r).Honest ok credit earned') : (p.bind k).Honest ok credit earned := by
  induction p generalizing earned with
  | ret r => exact hk r earned id h
  | act update next ih => exact fun s => ih s (h s) hk
  | emit e next ih =>
    exact ih h fun r earned' himp => hk r earned' fun he => himp (Or.inl he)
  | call next ih =>
    exact fun r => ih r (h r) fun r' earned' himp => hk r' earned' fun he => himp (Or.inl he)
  | await job next _ ih =>
    exact ⟨h.1, fun r => ih r (h.2 r) fun r' earned' himp => hk r' earned' fun he => himp (Or.inl he)⟩

end Proc
