/-
  **Codes that can be read off the front** — a small library of its own, over arbitrary values and symbols.

  `PrefixCode enc`: wherever two texts start with the codes of two values, the values are the same and so
  is what stands behind them.  Codes compose: one after the other, between fixed words, as the items of a
  list up to a closing symbol.
-/
import Mathlib.Data.List.Basic

set_option linter.unusedVariables false

variable {α β γ : Type}

/-- No code is the beginning of another one. -/
def PrefixCode (enc : α → List β) : Prop :=
  ∀ a b rest rest', enc a ++ rest = enc b ++ rest' → a = b ∧ rest = rest'

namespace PrefixCode

variable {enc : α → List β} {enc' : γ → List β}

theorem injective (h : PrefixCode enc) : Function.Injective enc := fun a b heq =>
  (h a b [] [] (by rw [heq])).1

/-- A code that can be decoded. -/
theorem of_decoder (decode : List β → Option (α × List β))
    (hdecode : ∀ a rest, decode (enc a ++ rest) = some (a, rest)) : PrefixCode enc := by
  intro a b rest rest' heq
  have h := hdecode a rest
  rw [heq, hdecode b rest'] at h
  obtain ⟨ha, hrest⟩ := Prod.mk.inj (Option.some.inj h)
  exact ⟨ha.symm, hrest.symm⟩

/-- Behind a fixed word. -/
theorem word_append (word : List β) (h : PrefixCode enc) : PrefixCode fun a => word ++ enc a := by
  intro a b rest rest' heq
  simp only [List.append_assoc] at heq
  exact h a b rest rest' (List.append_cancel_left heq)

/-- Before a fixed word. -/
theorem append_word (word : List β) (h : PrefixCode enc) : PrefixCode fun a => enc a ++ word := by
  intro a b rest rest' heq
  simp only [List.append_assoc] at heq
  obtain ⟨hab, hrest⟩ := h a b _ _ heq
  exact ⟨hab, List.append_cancel_left hrest⟩

/-- **One after the other.** -/
theorem pair (h : PrefixCode enc) (h' : PrefixCode enc') :
    PrefixCode fun p : α × γ => enc p.1 ++ enc' p.2 := by
  rintro ⟨a, c⟩ ⟨b, d⟩ rest rest' heq
  simp only [List.append_assoc] at heq
  obtain ⟨rfl, hmore⟩ := h a b _ _ heq
  obtain ⟨rfl, hrest⟩ := h' c d _ _ hmore
  exact ⟨rfl, hrest⟩

/-- A text that does not use a symbol, up to that symbol. -/
theorem terminated {stop : β} (hinj : Function.Injective enc) (hstop : ∀ a, stop ∉ enc a) :
    PrefixCode fun a => enc a ++ [stop] := by
  have hlists : ∀ {xs ys rest rest' : List β}, stop ∉ xs → stop ∉ ys →
      xs ++ stop :: rest = ys ++ stop :: rest' → xs = ys ∧ rest = rest' := by
    intro xs ys rest rest' hxs hys heq
    induction xs generalizing ys with
    | nil =>
      cases ys with
      | nil => exact ⟨rfl, (List.cons.inj heq).2⟩
      | cons y ys => exact absurd ((List.cons.inj heq).1 ▸ List.mem_cons_self) hys
    | cons x xs ih =>
      cases ys with
      | nil => exact absurd ((List.cons.inj heq).1 ▸ List.mem_cons_self) hxs
      | cons y ys =>
        obtain ⟨rfl, htail⟩ := List.cons.inj heq
        obtain ⟨rfl, hrest⟩ := ih (fun h => hxs (List.mem_cons_of_mem _ h))
          (fun h => hys (List.mem_cons_of_mem _ h)) htail
        exact ⟨rfl, hrest⟩
  intro a b rest rest' heq
  simp only [List.append_assoc, List.singleton_append] at heq
  obtain ⟨hab, hrest⟩ := hlists (hstop a) (hstop b) heq
  exact ⟨hinj hab, hrest⟩

/-- **The symbols of a word**, up to a closing symbol with which no code starts. -/
theorem flatMap {stop : β} (h : PrefixCode enc) (hstop : ∀ a rest, (enc a ++ rest).head? ≠ some stop) :
    PrefixCode fun as : List α => as.flatMap enc ++ [stop] := by
  intro as bs rest rest' heq
  simp only [List.append_assoc, List.singleton_append] at heq
  induction as generalizing bs with
  | nil =>
    cases bs with
    | nil => exact ⟨rfl, (List.cons.inj heq).2⟩
    | cons b bs =>
      rw [List.flatMap_cons, List.append_assoc] at heq
      exact absurd (congrArg List.head? heq).symm (hstop b _)
  | cons a as ih =>
    cases bs with
    | nil =>
      rw [List.flatMap_cons, List.append_assoc] at heq
      exact absurd (congrArg List.head? heq) (hstop a _)
    | cons b bs =>
      rw [List.flatMap_cons, List.flatMap_cons, List.append_assoc, List.append_assoc] at heq
      obtain ⟨rfl, hmore⟩ := h a b _ _ heq
      obtain ⟨rfl, hrest⟩ := ih bs hmore
      exact ⟨rfl, hrest⟩

theorem intercalate_cons (separator : β) (l : List β) (ls : List (List β)) :
    [separator].intercalate (l :: ls) = l ++ ls.flatMap fun l' => separator :: l' := by
  induction ls generalizing l with
  | nil => simp
  | cons l' ls ih => rw [List.intercalate_cons_cons, ih, List.flatMap_cons, List.append_assoc]; rfl

/-- **The items of a list**, with a separator between them, up to a closing symbol. -/
theorem items {separator stop : β} (h : PrefixCode enc) (hne : separator ≠ stop)
    (hstop : ∀ a rest, (enc a ++ rest).head? ≠ some stop) :
    PrefixCode fun as : List α => [separator].intercalate (as.map enc) ++ [stop] := by
  have htail : PrefixCode fun as : List α => (as.flatMap fun a => separator :: enc a) ++ [stop] := by
    have hitem : PrefixCode fun a => separator :: enc a := word_append [separator] h
    exact hitem.flatMap fun a rest heq => hne (Option.some.inj heq)
  have hcons : ∀ (a : α) (as : List α) (rest : List β),
      [separator].intercalate ((a :: as).map enc) ++ [stop] ++ rest =
        enc a ++ (((as.flatMap fun a => separator :: enc a) ++ [stop]) ++ rest) := by
    intro a as rest
    rw [List.map_cons, intercalate_cons, List.flatMap_map]
    simp only [List.append_assoc]
  intro as bs rest rest' heq
  cases as with
  | nil =>
    cases bs with
    | nil => exact ⟨rfl, (List.cons.inj heq).2⟩
    | cons b bs =>
      rw [hcons] at heq
      exact absurd (congrArg List.head? heq).symm (hstop b _)
  | cons a as =>
    cases bs with
    | nil =>
      rw [hcons] at heq
      exact absurd (congrArg List.head? heq) (hstop a _)
    | cons b bs =>
      rw [hcons, hcons] at heq
      obtain ⟨rfl, hmore⟩ := h a b _ _ heq
      obtain ⟨rfl, hrest⟩ := htail as bs _ _ hmore
      exact ⟨rfl, hrest⟩

end PrefixCode
