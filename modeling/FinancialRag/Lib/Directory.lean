/-
  **A directory whose entries are renamed, and renamed back** — a small library of its own, over
  arbitrary entries.

  A `Directory` is a list of entries under pairwise different names; `rename` is defined where the
  operation succeeds: the old name is there, the new one is free.  A log of renames (`Moves`), undone
  from its end, leads back to EXACTLY the directory it started from (`Moves.undo_eq`): this is the rule
  by which "stage, and put back if anything goes wrong" is safe, however far the staging got.

  `renameOver` is the rename of a system that lets some entries take the place of others: onto a free name it is
  the same (`renameOver_of_free`).
-/
import Mathlib.Data.String.Basic
import FinancialRag.Lib.Dict

structure Directory (α : Type) where
  entries : List (String × α)
  namesNodup : (entries.map Prod.fst).Nodup

namespace Directory

variable {α : Type}

def names (d : Directory α) : List String := d.entries.map Prod.fst

def get (d : Directory α) (name : String) : Option α := d.entries.lookup name

/-- The names after a rename. -/
def moveName (old new name : String) : String := if name = old then new else name

theorem nodup_map_moveName (old : String) {new : String} {names : List String} (h : names.Nodup)
    (hnew : new ∉ names) : (names.map (moveName old new)).Nodup := by
  refine h.map_on ?_
  intro a ha b hb heq
  unfold moveName at heq
  split at heq <;> rename_i ha'
  · split at heq <;> rename_i hb'
    · exact ha'.trans hb'.symm
    · exact absurd (heq ▸ hb) hnew
  · split at heq <;> rename_i hb'
    · exact absurd (heq ▸ ha) hnew
    · exact heq

/-- The directory with one entry under a new name. -/
def moved (d : Directory α) (old new : String) (hnew : new ∉ d.names) : Directory α where
  entries := d.entries.map fun e => (moveName old new e.1, e.2)
  namesNodup := by
    have hnames := nodup_map_moveName old d.namesNodup hnew
    rw [List.map_map] at hnames ⊢
    exact hnames

/-- Rename an entry; `none` is an `OSError`. -/
def rename (d : Directory α) (old new : String) : Option (Directory α) :=
  if h : old ∈ d.names ∧ new ∉ d.names then some (d.moved old new h.2) else none

def remove (d : Directory α) (name : String) : Directory α :=
  ⟨d.entries.filter (·.1 != name), d.namesNodup.sublist (List.filter_sublist.map Prod.fst)⟩

theorem ext_entries {d d' : Directory α} (h : d.entries = d'.entries) : d = d' := by
  cases d
  cases d'
  obtain rfl := h
  rfl

theorem rename_eq_some {d d' : Directory α} {old new : String} :
    d.rename old new = some d' ↔
      old ∈ d.names ∧ ∃ hnew : new ∉ d.names, d' = d.moved old new hnew := by
  unfold rename
  constructor
  · intro h
    split at h
    · rename_i hnames
      exact ⟨hnames.1, hnames.2, (Option.some.inj h).symm⟩
    · cases h
  · rintro ⟨hold, hnew, rfl⟩
    rw [dif_pos ⟨hold, hnew⟩]

theorem names_moved (d : Directory α) (old new : String) (hnew : new ∉ d.names) :
    (d.moved old new hnew).names = d.names.map (moveName old new) := by
  unfold names moved
  rw [List.map_map, List.map_map]
  rfl

/-- **A rename that succeeds can be taken back, and that restores the directory.** -/
theorem rename_back {d d' : Directory α} {old new : String} (h : d.rename old new = some d') :
    d'.rename new old = some d := by
  obtain ⟨hold, hnew, rfl⟩ := rename_eq_some.mp h
  refine rename_eq_some.mpr ⟨?_, ?_, ?_⟩
  · rw [names_moved]
    exact List.mem_map.mpr ⟨old, hold, if_pos rfl⟩
  · rw [names_moved]
    intro hmem
    obtain ⟨name, hname, heq⟩ := List.mem_map.mp hmem
    unfold moveName at heq
    split at heq
    · exact hnew (heq ▸ hold)
    · rename_i hother
      exact hother heq
  · refine ext_entries ?_
    show d.entries = (d.entries.map fun e => (moveName old new e.1, e.2)).map
      fun e => (moveName new old e.1, e.2)
    rw [List.map_map]
    refine ((List.map_congr_left fun e he => ?_).trans (List.map_id _)).symm
    have hfree : e.1 ≠ new := fun heq => hnew (heq ▸ List.mem_map_of_mem he)
    show (moveName new old (moveName old new e.1), e.2) = e
    unfold moveName
    by_cases hmoved : e.1 = old
    · rw [if_pos hmoved, if_pos rfl, ← hmoved]
    · rw [if_neg hmoved, if_neg hfree]

/-! ## Reading entries -/

theorem get_eq_some_iff {d : Directory α} {name : String} {a : α} :
    d.get name = some a ↔ (name, a) ∈ d.entries := by
  let asDict : Dict String α := ⟨d.entries, d.namesNodup⟩
  exact ⟨Dict.mem_entries_of_get (d := asDict), Dict.get_of_mem_entries (d := asDict)⟩

theorem mem_names_iff {d : Directory α} {name : String} : name ∈ d.names ↔ ∃ a, d.get name = some a :=
  Dict.mem_keys_iff (d := ⟨d.entries, d.namesNodup⟩)

theorem get_eq_none_iff {d : Directory α} {name : String} : d.get name = none ↔ name ∉ d.names := by
  rw [mem_names_iff, Option.eq_none_iff_forall_ne_some, not_exists]

/-- **What a rename does**: the entry stands under the new name, and every other name is as it was. -/
theorem get_rename {d d' : Directory α} {old new : String} (h : d.rename old new = some d') (name : String) :
    d'.get name = if name = new then d.get old else if name = old then none else d.get name := by
  obtain ⟨hold, hnew, rfl⟩ := rename_eq_some.mp h
  have hmoved : ∀ a, (d.moved old new hnew).get name = some a ↔
      ∃ e ∈ d.entries, moveName old new e.1 = name ∧ e.2 = a := by
    intro a
    rw [get_eq_some_iff]
    refine List.mem_map.trans (exists_congr fun e => and_congr_right fun _ => ?_)
    exact Prod.mk.injEq _ _ _ _ ▸ Iff.rfl
  refine Option.ext fun a => (hmoved a).trans ?_
  by_cases hname : name = new
  · subst hname
    rw [if_pos rfl, get_eq_some_iff]
    constructor
    · rintro ⟨⟨from_, b⟩, he, hmove, rfl⟩
      by_cases hfrom : from_ = old
      · exact hfrom ▸ he
      · -- nothing else was under the new name
        rw [moveName, if_neg hfrom] at hmove
        exact absurd (List.mem_map_of_mem he) (hmove ▸ hnew)
    · exact fun he => ⟨(old, a), he, if_pos rfl, rfl⟩
  rw [if_neg hname]
  by_cases hname' : name = old
  · subst hname'
    rw [if_pos rfl]
    refine iff_of_false ?_ (by simp)
    rintro ⟨e, he, hmove, rfl⟩
    unfold moveName at hmove
    split at hmove
    · exact hname hmove.symm
    · rename_i hother
      exact hother hmove
  · rw [if_neg hname', get_eq_some_iff]
    constructor
    · rintro ⟨⟨from_, b⟩, he, hmove, rfl⟩
      by_cases hfrom : from_ = old
      · rw [moveName, if_pos hfrom] at hmove
        exact absurd hmove.symm hname
      · rw [moveName, if_neg hfrom] at hmove
        exact hmove ▸ he
    · exact fun he => ⟨(name, a), he, if_neg hname', rfl⟩

/-- Rename an entry, which takes the place of another one where the system lets it. -/
def renameOver (replaces : α → α → Bool) (d : Directory α) (old new : String) : Option (Directory α) :=
  match d.get old, d.get new with
  | none, _ => none
  | some _, none => d.rename old new
  | some a, some b => if old = new then some d else if replaces a b then (d.remove new).rename old new else none

theorem renameOver_of_free {replaces : α → α → Bool} {d : Directory α} {old new : String} (h : new ∉ d.names) :
    d.renameOver replaces old new = d.rename old new := by
  unfold renameOver
  rw [get_eq_none_iff.mpr h]
  cases hold : d.get old with
  | some a => rfl
  | none =>
    symm
    exact dif_neg fun hboth => absurd hboth.1 (get_eq_none_iff.mp hold)

/-! ## Logs of renames -/

/-- Renames that have succeeded, first to last. -/
inductive Moves : Directory α → List (String × String) → Directory α → Prop
  | nil (d : Directory α) : Moves d [] d
  | snoc {d d' d'' : Directory α} {log : List (String × String)} {old new : String} :
      Moves d log d' → d'.rename old new = some d'' → Moves d (log ++ [(old, new)]) d''

/-- Undo a log, last rename first; a rename that is not possible any more is passed over. -/
def undo (log : List (String × String)) (d : Directory α) : Directory α :=
  log.foldr (fun move d => (d.rename move.2 move.1).getD d) d

/-- **A log that is undone leads back.** -/
theorem Moves.undo_eq {d d' : Directory α} {log : List (String × String)} (h : Moves d log d') :
    undo log d' = d := by
  induction h with
  | nil => rfl
  | @snoc d' d'' log old new _ hrename ih =>
    show undo (log ++ [(old, new)]) d'' = _
    have hlast : undo [(old, new)] d'' = d' := by
      show (d''.rename new old).getD d'' = d'
      rw [rename_back hrename]
      rfl
    unfold undo at ih hlast ⊢
    rw [List.foldr_append, hlast]
    exact ih

end Directory
