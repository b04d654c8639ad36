/-
  **Insertion-ordered dictionaries** — a small library of its own, over arbitrary keys and values.

  A `Dict` is a list of entries whose keys are pairwise different, and that is part of the type.
  `set` overwrites in place or appends, `setDefault` keeps what is there, `update` sets several keys
  in order; iteration order is the order of first insertion.  Everything below is stated through
  `get`, so that a proof about records never looks at the entries.
-/
import Mathlib.Data.List.Induction
import Mathlib.Data.List.Nodup

set_option linter.unusedVariables false

variable {K V : Type} [DecidableEq K]

/-- Overwrite the entry of `k` in place, or append one. -/
def setEntry (k : K) (v : V) : List (K × V) → List (K × V)
  | [] => [(k, v)]
  | (k', v') :: rest => if k' = k then (k, v) :: rest else (k', v') :: setEntry k v rest

theorem keys_setEntry (k : K) (v : V) (es : List (K × V)) :
    (setEntry k v es).map Prod.fst =
      if k ∈ es.map Prod.fst then es.map Prod.fst else es.map Prod.fst ++ [k] := by
  induction es with
  | nil => rfl
  | cons e es ih =>
    obtain ⟨k', v'⟩ := e
    by_cases hk : k' = k
    · subst hk
      simp [setEntry]
    · have hk' : k ≠ k' := fun h => hk h.symm
      simp only [setEntry, if_neg hk, List.map_cons, ih, List.mem_cons, hk', false_or]
      split <;> rfl

/-- A dictionary: entries in insertion order, keys pairwise different. -/
structure Dict (K V : Type) [DecidableEq K] where
  entries : List (K × V)
  keysNodup : (entries.map Prod.fst).Nodup

namespace Dict

def empty : Dict K V := ⟨[], List.nodup_nil⟩

def keys (d : Dict K V) : List K := d.entries.map Prod.fst

def values (d : Dict K V) : List V := d.entries.map Prod.snd

def get (d : Dict K V) (k : K) : Option V := d.entries.lookup k

def set (d : Dict K V) (k : K) (v : V) : Dict K V where
  entries := setEntry k v d.entries
  keysNodup := by
    rw [keys_setEntry]
    split
    · exact d.keysNodup
    · rename_i hk
      refine List.nodup_append.mpr ⟨d.keysNodup, List.nodup_singleton k, ?_⟩
      intro a ha b hb
      obtain rfl : b = k := List.mem_singleton.mp hb
      rintro rfl
      exact hk ha

/-- `d.setdefault(k, v)`. -/
def setDefault (d : Dict K V) (k : K) (v : V) : Dict K V :=
  match d.get k with
  | some _ => d
  | none => d.set k v

/-- `d.update(kvs)`. -/
def update (d : Dict K V) (kvs : List (K × V)) : Dict K V :=
  kvs.foldl (fun d kv => d.set kv.1 kv.2) d

/-- `d.pop(k, None)`. -/
def erase (d : Dict K V) (k : K) : Dict K V where
  entries := d.entries.filter fun entry => decide (entry.1 ≠ k)
  keysNodup := d.keysNodup.sublist (List.filter_sublist.map Prod.fst)

/-- A dictionary display: later entries of one key win. -/
def ofList (kvs : List (K × V)) : Dict K V := (empty : Dict K V).update kvs

/-! ## Reading back -/

theorem lookup_setEntry (k k' : K) (v : V) (es : List (K × V)) :
    (setEntry k v es).lookup k' = if k' = k then some v else es.lookup k' := by
  induction es with
  | nil =>
    by_cases h : k' = k
    · simp [setEntry, h]
    · have hb : (k' == k) = false := by simpa using h
      simp [setEntry, List.lookup_cons, h, hb]
  | cons e es ih =>
    obtain ⟨k₀, v₀⟩ := e
    by_cases hk : k₀ = k
    · subst hk
      simp only [setEntry, if_true, List.lookup_cons]
      by_cases h : k' = k₀
      · simp [h]
      · have hb : (k' == k₀) = false := by simpa using h
        simp [h, hb]
    · simp only [setEntry, if_neg hk, List.lookup_cons, ih]
      by_cases h : k' = k₀
      · subst h
        simp [hk]
      · have hb : (k' == k₀) = false := by simpa using h
        simp [hb]

/-- **Reading after a write.** -/
@[simp] theorem get_set (d : Dict K V) (k k' : K) (v : V) :
    (d.set k v).get k' = if k' = k then some v else d.get k' :=
  lookup_setEntry k k' v d.entries

theorem lookup_filter_ne (k k' : K) (es : List (K × V)) :
    (es.filter fun entry => decide (entry.1 ≠ k)).lookup k' = if k' = k then none else es.lookup k' := by
  induction es with
  | nil => split <;> rfl
  | cons e es ih =>
    obtain ⟨k₀, v₀⟩ := e
    by_cases hk : k₀ = k
    · subst hk
      rw [List.filter_cons_of_neg (by simp), ih]
      by_cases h : k' = k₀
      · rw [if_pos h, if_pos h]
      · have hb : (k' == k₀) = false := beq_eq_false_iff_ne.mpr h
        rw [if_neg h, if_neg h, List.lookup_cons, hb]
    · rw [List.filter_cons_of_pos (by simpa using hk), List.lookup_cons, List.lookup_cons, ih]
      by_cases h : k' = k₀
      · subst h
        simp [hk]
      · have hb : (k' == k₀) = false := beq_eq_false_iff_ne.mpr h
        rw [hb]

/-- **Reading after a removal.** -/
@[simp] theorem get_erase (d : Dict K V) (k k' : K) :
    (d.erase k).get k' = if k' = k then none else d.get k' :=
  lookup_filter_ne k k' d.entries

@[simp] theorem get_empty (k : K) : (empty : Dict K V).get k = none := rfl

/-- What can be read is an entry. -/
theorem mem_entries_of_get {d : Dict K V} {k : K} {v : V} (h : d.get k = some v) :
    (k, v) ∈ d.entries := by
  obtain ⟨pre, suf, hsplit, _⟩ := List.lookup_eq_some_iff.mp h
  rw [hsplit]
  exact List.mem_append_right _ List.mem_cons_self

/-- An entry is what can be read, for no other entry has its key. -/
theorem get_of_mem_entries {d : Dict K V} {k : K} {v : V} (h : (k, v) ∈ d.entries) : d.get k = some v := by
  obtain ⟨pre, suf, hsplit⟩ := List.append_of_mem h
  refine List.lookup_eq_some_iff.mpr ⟨pre, suf, hsplit, ?_⟩
  intro kv hkv
  have hnodup := d.keysNodup
  rw [hsplit, List.map_append, List.map_cons] at hnodup
  have hne := (List.nodup_append.mp hnodup).2.2 _ (List.mem_map_of_mem hkv) _ List.mem_cons_self
  exact bne_iff_ne.mpr hne.symm

/-- The order of the entries does not matter to a reader. -/
theorem get_of_perm {d e : Dict K V} (h : d.entries.Perm e.entries) (k : K) : d.get k = e.get k := by
  refine Option.ext fun v => ?_
  exact ⟨fun hget => get_of_mem_entries (h.subset (mem_entries_of_get hget)),
    fun hget => get_of_mem_entries (h.symm.subset (mem_entries_of_get hget))⟩

/-- The keys are what can be read. -/
theorem mem_keys_iff {d : Dict K V} {k : K} : k ∈ d.keys ↔ ∃ v, d.get k = some v := by
  constructor
  · intro hk
    cases hget : d.get k with
    | some v => exact ⟨v, rfl⟩
    | none =>
      obtain ⟨kv, hkv, rfl⟩ := List.mem_map.mp hk
      exact absurd rfl (bne_iff_ne.mp (List.lookup_eq_none_iff.mp hget kv hkv))
  · rintro ⟨v, hget⟩
    exact List.mem_map.mpr ⟨(k, v), mem_entries_of_get hget, rfl⟩

theorem get_setDefault (d : Dict K V) (k k' : K) (v : V) :
    (d.setDefault k v).get k' = if k' = k then some ((d.get k).getD v) else d.get k' := by
  unfold setDefault
  split
  · rename_i w hw
    by_cases h : k' = k
    · rw [if_pos h, h, hw]; rfl
    · rw [if_neg h]
  · rename_i hw
    rw [get_set, hw]
    rfl

/-- An update leaves the keys it does not name. -/
theorem get_update_of_not_mem (kvs : List (K × V)) (d : Dict K V) (k : K)
    (hk : k ∉ kvs.map Prod.fst) : (d.update kvs).get k = d.get k := by
  induction kvs generalizing d with
  | nil => rfl
  | cons kv kvs ih =>
    have hne : k ≠ kv.1 := fun h => hk (h ▸ List.mem_cons_self)
    have hrest : k ∉ kvs.map Prod.fst := fun h => hk (List.mem_cons_of_mem _ h)
    show ((d.set kv.1 kv.2).update kvs).get k = d.get k
    rw [ih (d.set kv.1 kv.2) hrest, get_set, if_neg hne]

/-- An update with pairwise different keys can be read back. -/
theorem get_update_of_mem {kvs : List (K × V)} (hkeys : (kvs.map Prod.fst).Nodup) {k : K} {v : V}
    (hkv : (k, v) ∈ kvs) (d : Dict K V) : (d.update kvs).get k = some v := by
  induction kvs generalizing d with
  | nil => exact absurd hkv List.not_mem_nil
  | cons kv kvs ih =>
    rw [List.map_cons, List.nodup_cons] at hkeys
    show ((d.set kv.1 kv.2).update kvs).get k = some v
    rcases List.mem_cons.mp hkv with rfl | hrest
    · rw [get_update_of_not_mem kvs _ _ hkeys.1, get_set, if_pos rfl]
    · exact ih hkeys.2 hrest (d.set kv.1 kv.2)

/-- **Reading after an update by another dictionary.** -/
theorem get_update (d e : Dict K V) (k : K) :
    (d.update e.entries).get k = (e.get k).or (d.get k) := by
  cases he : e.get k with
  | none =>
    refine get_update_of_not_mem e.entries d k ?_
    intro hk
    obtain ⟨kv, hkv, rfl⟩ := List.mem_map.mp hk
    exact bne_iff_ne.mp (List.lookup_eq_none_iff.mp he kv hkv) rfl
  | some v =>
    exact get_update_of_mem e.keysNodup (mem_entries_of_get he) d

theorem ofList_concat (kvs : List (K × V)) (kv : K × V) : ofList (kvs ++ [kv]) = (ofList kvs).set kv.1 kv.2 := by
  unfold ofList update
  rw [List.foldl_append]
  rfl

/-- **What is in a display**: the last value that is given for a key. -/
theorem get_ofList_iff {kvs : List (K × V)} {k : K} {v : V} :
    (ofList kvs).get k = some v ↔
      ∃ before after, kvs = before ++ (k, v) :: after ∧ k ∉ after.map Prod.fst := by
  induction kvs using List.reverseRecOn with
  | nil => simp [ofList, update]
  | append_singleton kvs kv ih =>
    obtain ⟨k', v'⟩ := kv
    rw [ofList_concat, get_set]
    constructor
    · intro h
      split at h
      · rename_i hk
        subst hk
        obtain rfl := Option.some.inj h
        exact ⟨kvs, [], rfl, List.not_mem_nil⟩
      · rename_i hk
        obtain ⟨before, after, rfl, hafter⟩ := ih.mp h
        refine ⟨before, after ++ [(k', v')], by simp, ?_⟩
        rw [List.map_append, List.mem_append]
        rintro (hmem | hmem)
        · exact hafter hmem
        · exact hk (List.mem_singleton.mp hmem)
    · rintro ⟨before, after, hsplit, hafter⟩
      -- the last entry is the one that is given last
      cases after using List.reverseRecOn with
      | nil =>
        obtain ⟨-, hlast⟩ := List.append_inj' hsplit rfl
        obtain ⟨rfl, rfl⟩ := Prod.mk.inj (List.cons.inj hlast).1
        exact if_pos rfl
      | append_singleton after last =>
        rw [← List.cons_append, ← List.append_assoc] at hsplit
        obtain ⟨rfl, hlast⟩ := List.append_inj' hsplit rfl
        obtain rfl := (List.cons.inj hlast).1
        rw [List.map_append, List.mem_append, not_or] at hafter
        rw [if_neg fun hk => hafter.2 (List.mem_singleton.mpr hk)]
        exact ih.mpr ⟨before, after, rfl, hafter.1⟩

theorem nodup_keys (d : Dict K V) : d.keys.Nodup := d.keysNodup

end Dict
