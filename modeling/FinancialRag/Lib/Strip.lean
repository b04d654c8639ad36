/-
  **Stripping a list at both ends** — a small library of its own, over any elements and any test.

  `strip p` is what `str.strip` and `trim` are for their own idea of white space, and `ink p` what is to
  be seen of a list: stripping takes elements at the ends away and never ink.
-/
import Mathlib.Data.List.DropRight

namespace Strip

variable {α : Type} {p : α → Bool} {l left right : List α}

/-- Without the elements at both ends that pass the test. -/
def strip (p : α → Bool) (l : List α) : List α := (l.dropWhile p).rdropWhile p

/-- The elements that do not pass it. -/
def ink (p : α → Bool) (l : List α) : List α := l.filter fun c => !p c

@[simp] theorem ink_nil : ink p [] = [] := rfl

@[simp] theorem ink_append (l l' : List α) : ink p (l ++ l') = ink p l ++ ink p l' :=
  List.filter_append l l'

theorem ink_eq_nil_iff : ink p l = [] ↔ ∀ c ∈ l, p c = true := by
  unfold ink
  rw [List.filter_eq_nil_iff]
  simp

/-- A list is what stripping leaves, between two ends that pass the test. -/
theorem exists_strip (p : α → Bool) (l : List α) :
    ∃ left right, l = left ++ strip p l ++ right ∧ (∀ c ∈ left, p c = true) ∧ ∀ c ∈ right, p c = true := by
  refine ⟨l.takeWhile p, (l.dropWhile p).rtakeWhile p, ?_, ?_, ?_⟩
  · unfold strip
    rw [List.append_assoc, List.rdropWhile_append_rtakeWhile, List.takeWhile_append_dropWhile]
  · exact fun c hc => List.mem_takeWhile_imp hc
  · exact fun c hc => List.mem_rtakeWhile_imp hc

theorem ink_strip (p : α → Bool) (l : List α) : ink p (strip p l) = ink p l := by
  obtain ⟨left, right, hl, hleft, hright⟩ := exists_strip p l
  calc ink p (strip p l)
      = ink p (left ++ strip p l ++ right) := by
        rw [ink_append, ink_append, ink_eq_nil_iff.mpr hleft, ink_eq_nil_iff.mpr hright, List.nil_append,
          List.append_nil]
    _ = ink p l := by rw [← hl]

/-- What passes the test around a list is stripped. -/
theorem strip_around (hleft : ∀ c ∈ left, p c = true) (hright : ∀ c ∈ right, p c = true) (l : List α) :
    strip p (left ++ l ++ right) = strip p l := by
  unfold strip
  rw [List.append_assoc, List.dropWhile_append_of_pos hleft, List.dropWhile_append]
  split
  · rename_i hnil
    rw [List.isEmpty_iff.mp hnil, List.dropWhile_eq_nil_iff.mpr hright]
  · have hreverse : ∀ c ∈ right.reverse, p c = true := fun c hc => hright c (List.mem_reverse.mp hc)
    rw [List.rdropWhile, List.reverse_append, List.dropWhile_append_of_pos hreverse, ← List.rdropWhile]

theorem strip_append (hright : ∀ c ∈ right, p c = true) (l : List α) :
    strip p (l ++ right) = strip p l := by
  have hnil : ∀ c ∈ ([] : List α), p c = true := fun _ hc => absurd hc List.not_mem_nil
  have h := strip_around hnil hright l
  rwa [List.nil_append] at h

/-- Nothing is left exactly if there is nothing to see. -/
theorem strip_eq_nil_iff : strip p l = [] ↔ ink p l = [] := by
  constructor
  · intro h
    rw [← ink_strip, h, ink_nil]
  · intro h
    have hall := ink_eq_nil_iff.mp h
    have hnone := strip_append hall []
    rw [List.nil_append] at hnone
    exact hnone

theorem strip_strip (p : α → Bool) (l : List α) : strip p (strip p l) = strip p l := by
  obtain ⟨left, right, hl, hleft, hright⟩ := exists_strip p l
  have h := strip_around hleft hright (strip p l)
  rw [← hl] at h
  exact h.symm

/-- What stands before the first ink, and what stands behind the last. -/
theorem mem_strip {before after init rest : List α} {c d u : α} (hfirst : l = before ++ c :: rest)
    (hlast : l = init ++ d :: after) (hc : p c = false) (hd : p d = false) (hu : u ∈ l)
    (hbefore : u ∉ before) (hafter : u ∉ after) : u ∈ strip p l := by
  obtain ⟨left, right, hl, hleft, hright⟩ := exists_strip p l
  have hinLeft : u ∈ left → u ∈ before := by
    intro hmem
    rw [hl, List.append_assoc, List.append_eq_append_iff] at hfirst
    rcases hfirst with ⟨more, rfl, -⟩ | ⟨more, rfl, hmore⟩
    · exact List.mem_append_left _ hmem
    · cases more with
      | nil => rwa [List.append_nil] at hmem
      | cons e more =>
        obtain ⟨rfl, -⟩ := List.cons.inj hmore
        rw [hleft c (List.mem_append_right _ List.mem_cons_self)] at hc
        cases hc
  have hinRight : u ∈ right → u ∈ after := by
    intro hmem
    rw [hl, List.append_eq_append_iff] at hlast
    have hnot : d ∉ right := fun hmem => by
      rw [hright d hmem] at hd
      cases hd
    rcases hlast with ⟨more, -, rfl⟩ | ⟨more, -, hmore⟩
    · exact absurd (List.mem_append_right _ List.mem_cons_self) hnot
    · cases more with
      | nil =>
        rw [List.nil_append] at hmore
        exact absurd (hmore ▸ List.mem_cons_self) hnot
      | cons e more =>
        obtain ⟨-, rfl⟩ := List.cons.inj hmore
        exact List.mem_append_right _ hmem
  rw [hl, List.mem_append, List.mem_append] at hu
  rcases hu with (hu | hu) | hu
  · exact absurd (hinLeft hu) hbefore
  · exact hu
  · exact absurd (hinRight hu) hafter

/-- What is left starts with ink. -/
theorem head_strip {c : α} (h : c ∈ (strip p l).head?) : p c = false := by
  obtain ⟨after, hafter⟩ := List.rdropWhile_prefix p (l.dropWhile p)
  have hnot := List.head?_dropWhile_not p l
  have hstrip : c ∈ ((l.dropWhile p).rdropWhile p).head? := h
  rw [← hafter, List.mem_head?_append_of_mem_head? hstrip] at hnot
  simpa using hnot

end Strip
