/-
  **Runs of a labelled machine** — a small library of its own, over arbitrary states and events.

  A machine is a PARTIAL step function `step : σ → α → Option σ` (`none` = the event is not enabled
  in that state).  Interleavings of any number of parties are just lists of events, so one machine
  serves for a sequential program and for a protocol alike.

  `Run step P s as t` is the fact every safety result quantifies over: the schedule `as` takes `s`
  to `t`, every event of it is enabled, and every event meets the side condition `P` IN THE STATE
  IT IS TAKEN FROM.  `P := Always` gives all runs; a narrower `P` gives the runs in which a given
  misfortune never happens.

  The proof rules are `Run.invariant` (what each step preserves, every run preserves), `Run.history`
  (the same, of an invariant that speaks of the events taken so far), `Run.strengthen` (an invariant
  turns one side condition into another), `Run.simulate`
  (a machine whose steps are steps of another machine, or none, runs as the other does;
  `Run.simulateUnder` where an invariant is needed for that), `Run.erase` (a run without some of its
  events) and `good_prefixes_iff_run` (when a side condition is EXACTLY what keeps the states of a schedule good).
  `exec` is the executable counterpart used to evaluate a schedule, tied to `Run` by `run_iff_exec`.

  A LOOP is a machine without events; `Ends` is that it comes to its end, `exists_ends` the variant rule.
  `Passes` is that it comes through a state, and `passes_iff` says when it comes through good states only.
-/
import Mathlib.Logic.Function.Basic

namespace Machine

variable {σ α : Type} {step : σ → α → Option σ} {P : σ → α → Prop}

/-- Reading back one component after a party has moved: it is the party's own new value, or the old
    value of another one. -/
theorem update_cases {κ β : Type} [DecidableEq κ] {f : κ → β} {i j : κ} {x y : β}
    (h : Function.update f i x j = y) : (j = i ∧ x = y) ∨ (j ≠ i ∧ f j = y) := by
  by_cases hji : j = i
  · subst hji
    rw [Function.update_self] at h
    exact Or.inl ⟨rfl, h⟩
  · rw [Function.update_of_ne hji] at h
    exact Or.inr ⟨hji, h⟩

/-- What holds of a component after a party has moved held of it before, if the party's new value does
    not bring it about. -/
theorem of_update {κ β : Type} [DecidableEq κ] {f : κ → β} {i j : κ} {x : β} {p : β → Prop}
    (hx : p x → p (f i)) (h : p (Function.update f i x j)) : p (f j) := by
  by_cases hji : j = i
  · subst hji
    rw [Function.update_self] at h
    exact hx h
  · rwa [Function.update_of_ne hji] at h

/-- What held of a component still holds after a party has moved, if its new value keeps it. -/
theorem update_of {κ β : Type} [DecidableEq κ] {f : κ → β} {i j : κ} {x : β} {p : β → Prop}
    (hx : p (f i) → p x) (h : p (f j)) : p (Function.update f i x j) := by
  by_cases hji : j = i
  · subst hji
    rw [Function.update_self]
    exact hx h
  · rwa [Function.update_of_ne hji]

/-- The side condition that excludes nothing. -/
def Always : σ → α → Prop := fun _ _ => True

/-- `Run step P s as t`: the schedule `as` leads from `s` to `t` through enabled events, each of
    which meets `P` in the state it is taken from. -/
inductive Run (step : σ → α → Option σ) (P : σ → α → Prop) : σ → List α → σ → Prop
  | nil (s : σ) : Run step P s [] s
  | cons {s t u : σ} {a : α} {as : List α} :
      P s a → step s a = some t → Run step P t as u → Run step P s (a :: as) u

/-- Execute a schedule; `none` as soon as an event is not enabled. -/
def exec (step : σ → α → Option σ) : σ → List α → Option σ
  | s, [] => some s
  | s, a :: as =>
    match step s a with
    | none => none
    | some t => exec step t as

namespace Run

/-- Runs compose. -/
theorem append {s t u : σ} {as bs : List α} (h : Run step P s as t) (h' : Run step P t bs u) :
    Run step P s (as ++ bs) u := by
  induction h with
  | nil _ => exact h'
  | cons hp hs _ ih => exact .cons hp hs (ih h')

/-- **The invariant rule.**  What every single step preserves, every run preserves. -/
theorem invariant {I : σ → Prop}
    (hstep : ∀ s a t, I s → P s a → step s a = some t → I t)
    {s t : σ} {as : List α} (h : Run step P s as t) (hs : I s) : I t := by
  induction h with
  | nil _ => exact hs
  | cons hp hstp _ ih => exact ih (hstep _ _ _ hs hp hstp)

/-- **The history rule.**  The invariant may speak of the events taken so far. -/
theorem history {I : List α → σ → Prop}
    (hstep : ∀ as s a t, I as s → P s a → step s a = some t → I (as ++ [a]) t)
    {s t : σ} {as : List α} (h : Run step P s as t) (hs : I [] s) : I as t := by
  have hfrom : ∀ {s t as}, Run step P s as t → ∀ past, I past s → I (past ++ as) t := by
    intro s t as h
    induction h with
    | nil _ =>
      intro past hpast
      rwa [List.append_nil]
    | cons hp hstp _ ih =>
      intro past hpast
      have hrest := ih _ (hstep past _ _ _ hpast hp hstp)
      rwa [List.append_assoc] at hrest
  exact hfrom h [] hs

/-- **The strengthening rule.**  Under an invariant of its own runs, a side condition may imply
    another. -/
theorem strengthen {I : σ → Prop} {Q : σ → α → Prop}
    (hstep : ∀ s a t, I s → P s a → step s a = some t → I t)
    (hside : ∀ s a, I s → P s a → Q s a) {s t : σ} {as : List α} (h : Run step P s as t) (hs : I s) :
    Run step Q s as t := by
  induction h with
  | nil _ => exact .nil _
  | cons hp hstp _ ih => exact .cons (hside _ _ hs hp) hstp (ih (hstep _ _ _ hs hp hstp))

/-- **The simulation rule.**  If every step is, through `f`, a step of the machine `step'` or leaves
    `f` alone, then every run is a run of `step'`. -/
theorem simulate {τ β : Type} {step' : τ → β → Option τ} {f : σ → τ}
    (hsim : ∀ s a t, step s a = some t → f t = f s ∨ ∃ b, step' (f s) b = some (f t))
    {s t : σ} {as : List α} (h : Run step P s as t) : ∃ bs, Run step' Always (f s) bs (f t) := by
  induction h with
  | nil s => exact ⟨[], .nil _⟩
  | cons _ hs _ ih =>
    obtain ⟨bs, hbs⟩ := ih
    rcases hsim _ _ _ hs with heq | ⟨b, hb⟩
    · exact ⟨bs, heq ▸ hbs⟩
    · exact ⟨b :: bs, .cons trivial hb hbs⟩

/-- **The simulation rule, under an invariant.**  The steps of the simulating machine may be needed to
    be steps of the other one only where an invariant of its runs holds, and the side condition is
    carried over too. -/
theorem simulateUnder {τ β : Type} {step' : τ → β → Option τ} {f : σ → τ} {I : σ → Prop}
    {Q : τ → β → Prop}
    (hstep : ∀ s a t, I s → P s a → step s a = some t → I t)
    (hsim : ∀ s a t, I s → P s a → step s a = some t →
      f t = f s ∨ ∃ b, Q (f s) b ∧ step' (f s) b = some (f t))
    {s t : σ} {as : List α} (h : Run step P s as t) (hs : I s) : ∃ bs, Run step' Q (f s) bs (f t) := by
  induction h with
  | nil s => exact ⟨[], .nil _⟩
  | cons hp hstp _ ih =>
    obtain ⟨bs, hbs⟩ := ih (hstep _ _ _ hs hp hstp)
    rcases hsim _ _ _ hs hp hstp with heq | ⟨b, hq, hb⟩
    · exact ⟨bs, heq ▸ hbs⟩
    · exact ⟨b :: bs, .cons hq hb hbs⟩

/-- **The erasure rule.**  Two machines take the same events.  If an event that is kept takes related
    states to related states, and an event that is not leaves the other machine's state related, then a run
    of the one, without the events that are not kept, is a run of the other. -/
theorem erase {τ : Type} {step' : τ → α → Option τ} {R : σ → τ → Prop} {Q : τ → α → Prop} (keep : α → Bool)
    (hkeep : ∀ s t a s', R s t → P s a → keep a = true → step s a = some s' →
      ∃ t', Q t a ∧ step' t a = some t' ∧ R s' t')
    (hdrop : ∀ s t a s', R s t → P s a → keep a = false → step s a = some s' → R s' t)
    {s s' : σ} {as : List α} (h : Run step P s as s') {t : τ} (hR : R s t) :
    ∃ t', Run step' Q t (as.filter keep) t' ∧ R s' t' := by
  induction h generalizing t with
  | nil s => exact ⟨t, .nil _, hR⟩
  | @cons s u v a as hp hs _ ih =>
    cases hkept : keep a with
    | true =>
      obtain ⟨t₁, hq, hstep, hR₁⟩ := hkeep s t a u hR hp hkept hs
      obtain ⟨t', hrun, hR'⟩ := ih hR₁
      rw [List.filter_cons_of_pos hkept]
      exact ⟨t', .cons hq hstep hrun, hR'⟩
    | false =>
      rw [List.filter_cons_of_neg (by rw [hkept]; exact Bool.false_ne_true)]
      exact ih (hdrop s t a u hR hp hkept hs)

end Run

/-- A schedule that executes is a run under every condition that all its events meet. -/
theorem run_of_exec {s t : σ} {as : List α} (h : exec step s as = some t)
    (hP : ∀ a ∈ as, ∀ u, P u a) : Run step P s as t := by
  induction as generalizing s with
  | nil =>
    obtain rfl : s = t := Option.some.inj h
    exact .nil _
  | cons a as ih =>
    simp only [exec] at h
    split at h
    · exact absurd h (by simp)
    · rename_i t' hs
      exact .cons (hP a List.mem_cons_self s) hs (ih h fun b hb => hP b (List.mem_cons_of_mem _ hb))

/-- A schedule that executes is a run, and a run executes. -/
theorem run_iff_exec {s t : σ} {as : List α} :
    Run step Always s as t ↔ exec step s as = some t := by
  constructor
  · intro h
    induction h with
    | nil s => rfl
    | cons _ hs _ ih => simp only [exec, hs]; exact ih
  · intro h
    exact run_of_exec h fun _ _ _ => trivial

/-- Execute a schedule as long as every event passes a test in the state it is taken from. -/
def execIf (test : σ → α → Bool) (step : σ → α → Option σ) : σ → List α → Option σ
  | s, [] => some s
  | s, a :: as =>
    if test s a then
      match step s a with
      | none => none
      | some t => execIf test step t as
    else none

/-- A schedule that executes under a test is a run under every condition the test guarantees. -/
theorem run_of_execIf {test : σ → α → Bool} (htest : ∀ s a, test s a = true → P s a) {s t : σ}
    {as : List α} (h : execIf test step s as = some t) : Run step P s as t := by
  induction as generalizing s with
  | nil =>
    obtain rfl : s = t := Option.some.inj h
    exact .nil _
  | cons a as ih =>
    simp only [execIf] at h
    split at h
    · rename_i ha
      split at h
      · exact absurd h (by simp)
      · rename_i u hu
        exact .cons (htest s a ha) hu (ih h)
    · exact absurd h (by simp)

/-- **Exact side conditions.**  Let `I` be an invariant of the steps that meet `P`, stronger than the
    goodness `C`, such that a step from `I` that does NOT meet `P` lands in a bad state.  Then an
    executing schedule passes through good states only if and only if all its events meet `P`. -/
theorem good_prefixes_iff_run {I C : σ → Prop} (hgood : ∀ s, I s → C s)
    (hkeep : ∀ s a t, I s → P s a → step s a = some t → I t)
    (hbreak : ∀ s a t, I s → ¬ P s a → step s a = some t → ¬ C t)
    {s t : σ} {as : List α} (hs : I s) (h : exec step s as = some t) :
    (∀ pre suf u, as = pre ++ suf → exec step s pre = some u → C u) ↔ Run step P s as t := by
  induction as generalizing s with
  | nil =>
    obtain rfl : s = t := Option.some.inj h
    refine ⟨fun _ => .nil _, ?_⟩
    intro _ pre suf u hpre hu
    obtain rfl : pre = [] := (List.append_eq_nil_iff.mp hpre.symm).1
    obtain rfl : s = u := Option.some.inj hu
    exact hgood _ hs
  | cons a as ih =>
    simp only [exec] at h
    split at h
    · exact absurd h (by simp)
    rename_i s' hstep
    constructor
    · intro hall
      -- the state after the first event is good, so that event met `P`
      have hP : P s a := by
        by_contra hne
        exact hbreak s a s' hs hne hstep (hall [a] as s' rfl (by simp [exec, hstep]))
      refine .cons hP hstep ((ih (hkeep s a s' hs hP hstep) h).mp ?_)
      intro pre suf u hpre hu
      refine hall (a :: pre) suf u (by rw [hpre]; rfl) ?_
      simp only [exec, hstep]
      exact hu
    · intro hrun
      cases hrun with
      | cons hP hstep' hrest =>
        obtain rfl : s' = _ := Option.some.inj (hstep.symm.trans hstep')
        have hall := (ih (hkeep s a s' hs hP hstep) h).mpr hrest
        intro pre suf u hpre hu
        cases pre with
        | nil =>
          obtain rfl : s = u := Option.some.inj hu
          exact hgood _ hs
        | cons b pre =>
          obtain ⟨rfl, htail⟩ := List.cons.inj hpre
          simp only [exec, hstep] at hu
          exact hall pre suf u htail hu

/-! ## Loops -/

/-- The loop with this body (`none`: its condition fails), entered in the first state, ends in the
    second. -/
inductive Ends (body : σ → Option σ) : σ → σ → Prop
  | done {s : σ} : body s = none → Ends body s s
  | next {s t u : σ} : body s = some t → Ends body t u → Ends body s u

/-- A loop ends if each of its rounds makes something smaller, whatever state it comes to. -/
theorem exists_ends {body : σ → Option σ} {P : σ → Prop} {size : σ → Nat}
    (hround : ∀ s t, P s → body s = some t → P t ∧ size t < size s) {s : σ} (hs : P s) :
    ∃ t, Ends body s t ∧ body t = none := by
  induction hn : size s using Nat.strongRecOn generalizing s with
  | _ n ih =>
    cases hbody : body s with
    | none => exact ⟨s, .done hbody, hbody⟩
    | some t =>
      obtain ⟨ht, hless⟩ := hround s t hs hbody
      obtain ⟨u, hends, hstop⟩ := ih (size t) (hn ▸ hless) ht rfl
      exact ⟨u, .next hbody hends, hstop⟩

/-- The loop, entered in the first state, comes through the second. -/
inductive Passes (body : σ → Option σ) : σ → σ → Prop
  | here (s : σ) : Passes body s s
  | next {s t u : σ} : body s = some t → Passes body t u → Passes body s u

theorem Ends.passes {body : σ → Option σ} {s t : σ} (h : Ends body s t) : Passes body s t := by
  induction h with
  | done _ => exact .here _
  | next hround _ ih => exact .next hround ih

theorem Passes.concat {body : σ → Option σ} {s t u : σ} (h : Passes body s t) (hround : body t = some u) :
    Passes body s u := by
  induction h with
  | here s => exact .next hround (.here u)
  | next hfirst _ ih => exact .next hfirst (ih hround)

/-- What every round keeps is true wherever the loop comes through. -/
theorem Passes.invariant {body : σ → Option σ} {I : σ → Prop} (hround : ∀ s t, I s → body s = some t → I t)
    {s t : σ} (h : Passes body s t) (hs : I s) : I t := by
  induction h with
  | here _ => exact hs
  | next hfirst _ ih => exact ih (hround _ _ hs hfirst)

/-- **Exact conditions on the rounds.**  If a round from a good state that meets `Q` keeps it good, and one
    from a good state that does not meet `Q` ends in a bad state, then a loop comes through good states only
    if and only if all states it comes through meet `Q`. -/
theorem passes_iff {body : σ → Option σ} (Good Q : σ → Prop)
    (hkeep : ∀ s t, Good s → Q s → body s = some t → Good t)
    (hbreak : ∀ s, Good s → ¬ Q s → ∃ t, body s = some t ∧ ¬ Good t) {s : σ} (hs : Good s) :
    (∀ t, Passes body s t → Good t) ↔ ∀ t, Passes body s t → Q t := by
  constructor
  · intro hgood t ht
    by_contra hQ
    obtain ⟨u, hround, hbad⟩ := hbreak t (hgood t ht) hQ
    exact hbad (hgood u (ht.concat hround))
  · intro hQ t ht
    induction ht with
    | here s => exact hs
    | @next s t u hround _ ih =>
      exact ih (hkeep s t hs (hQ s (.here s)) hround) fun u hu => hQ u (.next hround hu)

end Machine
