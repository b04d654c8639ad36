/-
  What `to_json_safe` calls and returns (`observability/serialization.py`).

  `Makes` says once what a call returns, and `Calls` which calls it makes inside; `Keeps` leaves out the calls whose
  results a later entry of the same key replaces.  A value is serialized to JSON exactly if none of the calls meets
  something that raises (`returns_iff`), and none does for want of ROOM if the interpreter lets enough calls nest
  (`room_of_reaches`).
-/
import Mathlib.Data.List.Forall2
import FinancialRag.Observability.Serialization

set_option linter.unusedVariables false

namespace FinancialRag.Observability

variable {py : Interpreter} {n : Nat} {g : Graph n}

/-! ## What a call returns -/

/-- The entries of a mapping or of a dataclass. -/
def Obj.keyed : Obj n → Option (List (Entry n))
  | .mapping entries => some entries
  | .dataclass fields => some (fields.map Field.entry)
  | _ => none

/-- What a call returns, by what the calls inside return. -/
inductive Makes (py : Interpreter) (g : Graph n) (room : Nat) (seen : Finset (Fin n)) : Value n → Json → Prop
  | scalar (s : Scalar) : Makes py g room seen (.scalar s) (scalarJson s)
  | enum {id : Fin n} {value : Value n} {json : Json} : g.obj id = .enum value →
      toJsonSafe py g room seen value = .ok json → Makes py g room seen (.ref id) json
  | cycle {id : Fin n} : id ∈ seen → (g.obj id).isEnum = false → Makes py g room seen (.ref id) cycle
  | entries {id : Fin n} {entries : List (Entry n)} {members : Members} : id ∉ seen →
      (g.obj id).keyed = some entries →
      List.Forall₂ (fun e m => serializeEntry py (toJsonSafe py g room (insert id seen)) e = .ok m) entries members →
      Makes py g room seen (.ref id) (.object (Dict.ofList members).entries)
  | sequence {id : Fin n} {items : List (Value n)} {jsons : List Json} : id ∉ seen → g.obj id = .sequence items →
      List.Forall₂ (fun x json => toJsonSafe py g room (insert id seen) x = .ok json) items jsons →
      Makes py g room seen (.ref id) (.array jsons)
  | set {id : Fin n} {items : List (Value n)} {jsons : List Json} : id ∉ seen → g.obj id = .set items →
      List.Forall₂ (fun x json => toJsonSafe py g room (insert id seen) x = .ok json) items jsons →
      (∀ json ∈ jsons, representable py json = true) →
      Makes py g room seen (.ref id) (.array (PyList.sorted (fun a b => decide (py.repr a < py.repr b)) jsons))
  | other {id : Fin n} {typeName : PyStr} : id ∉ seen → g.obj id = .other typeName →
      Makes py g room seen (.ref id) (unsupported typeName)

theorem map_eq_ok {ε α β : Type} {x : Except ε α} {f : α → β} {b : β} (h : x.map f = .ok b) :
    ∃ a, x = .ok a ∧ b = f a := by
  cases x with
  | error e => cases h
  | ok a => exact ⟨a, rfl, (Except.ok.inj h).symm⟩

theorem serializeEntries_ok {serialize : Value n → Except Raised Json} {entries : List (Entry n)} {json : Json}
    (h : serializeEntries py serialize entries = .ok json) :
    ∃ members, List.Forall₂ (fun e m => serializeEntry py serialize e = .ok m) entries members ∧
      json = .object (Dict.ofList members).entries := by
  obtain ⟨members, hmembers, rfl⟩ := map_eq_ok h
  exact ⟨members, PyList.forall₂_of_mapM_eq_ok hmembers, rfl⟩

theorem serializeEntries_of_forall₂ {serialize : Value n → Except Raised Json} {entries : List (Entry n)}
    {members : Members} (h : List.Forall₂ (fun e m => serializeEntry py serialize e = .ok m) entries members) :
    serializeEntries py serialize entries = .ok (.object (Dict.ofList members).entries) := by
  rw [serializeEntries, PyList.mapM_eq_ok_of_forall₂ h]
  rfl

theorem sortedByRepr_ok {jsons sorted : List Json} (h : sortedByRepr py jsons = .ok sorted) :
    (∀ json ∈ jsons, representable py json = true) ∧
      sorted = PyList.sorted (fun a b => decide (py.repr a < py.repr b)) jsons := by
  unfold sortedByRepr at h
  split at h
  · rename_i hall
    exact ⟨List.all_eq_true.mp hall, (Except.ok.inj h).symm⟩
  · cases h

theorem makes_of_ok {room : Nat} {seen : Finset (Fin n)} {value : Value n} {json : Json}
    (h : toJsonSafe py g (room + 1) seen value = .ok json) : Makes py g room seen value json := by
  cases value with
  | scalar s =>
    obtain rfl := Except.ok.inj h
    exact .scalar s
  | ref id =>
    rw [toJsonSafe] at h
    cases hobj : g.obj id with
    | enum value =>
      rw [hobj] at h
      exact .enum hobj h
    | mapping entries =>
      simp only [hobj] at h
      split at h
      · rename_i hseen
        obtain rfl := Except.ok.inj h
        exact .cycle hseen (by rw [hobj]; rfl)
      · rename_i hseen
        obtain ⟨members, hmembers, rfl⟩ := serializeEntries_ok h
        exact .entries hseen (by rw [hobj]; rfl) hmembers
    | sequence items =>
      simp only [hobj] at h
      split at h
      · rename_i hseen
        obtain rfl := Except.ok.inj h
        exact .cycle hseen (by rw [hobj]; rfl)
      · rename_i hseen
        obtain ⟨jsons, hjsons, rfl⟩ := map_eq_ok h
        exact .sequence hseen hobj (PyList.forall₂_of_mapM_eq_ok hjsons)
    | set items =>
      simp only [hobj] at h
      split at h
      · rename_i hseen
        obtain rfl := Except.ok.inj h
        exact .cycle hseen (by rw [hobj]; rfl)
      · rename_i hseen
        obtain ⟨jsons, hjsons, h⟩ := PyList.bind_eq_ok.mp h
        obtain ⟨sorted, hsorted, rfl⟩ := map_eq_ok h
        obtain ⟨hall, rfl⟩ := sortedByRepr_ok hsorted
        exact .set hseen hobj (PyList.forall₂_of_mapM_eq_ok hjsons) hall
    | dataclass fields =>
      simp only [hobj] at h
      split at h
      · rename_i hseen
        obtain rfl := Except.ok.inj h
        exact .cycle hseen (by rw [hobj]; rfl)
      · rename_i hseen
        obtain ⟨members, hmembers, rfl⟩ := serializeEntries_ok h
        exact .entries hseen (by rw [hobj]; rfl) hmembers
    | other typeName =>
      simp only [hobj] at h
      split at h
      · rename_i hseen
        obtain rfl := Except.ok.inj h
        exact .cycle hseen (by rw [hobj]; rfl)
      · rename_i hseen
        obtain rfl := Except.ok.inj h
        exact .other hseen hobj

theorem Makes.ok {room : Nat} {seen : Finset (Fin n)} {value : Value n} {json : Json}
    (h : Makes py g room seen value json) : toJsonSafe py g (room + 1) seen value = .ok json := by
  cases h with
  | scalar s => rfl
  | enum hobj hvalue =>
    rw [toJsonSafe, hobj]
    exact hvalue
  | @cycle id hseen hobj =>
    rw [toJsonSafe]
    cases hkind : g.obj id with
    | enum value =>
      rw [hkind] at hobj
      cases hobj
    | mapping entries => exact if_pos hseen
    | sequence items => exact if_pos hseen
    | set items => exact if_pos hseen
    | dataclass fields => exact if_pos hseen
    | other typeName => exact if_pos hseen
  | @entries id entries members hseen hobj hmembers =>
    rw [toJsonSafe]
    cases hkind : g.obj id with
    | mapping es =>
      rw [hkind] at hobj
      obtain rfl := Option.some.inj hobj
      exact (if_neg hseen).trans (serializeEntries_of_forall₂ hmembers)
    | dataclass fields =>
      rw [hkind] at hobj
      obtain rfl := Option.some.inj hobj
      exact (if_neg hseen).trans (serializeEntries_of_forall₂ hmembers)
    | enum value => rw [hkind] at hobj; cases hobj
    | sequence items => rw [hkind] at hobj; cases hobj
    | set items => rw [hkind] at hobj; cases hobj
    | other typeName => rw [hkind] at hobj; cases hobj
  | sequence hseen hobj hitems =>
    rw [toJsonSafe]
    simp only [hobj]
    rw [if_neg hseen, PyList.mapM_eq_ok_of_forall₂ hitems]
    rfl
  | set hseen hobj hitems hall =>
    rw [toJsonSafe]
    simp only [hobj]
    rw [if_neg hseen, PyList.mapM_eq_ok_of_forall₂ hitems]
    show (sortedByRepr py _).map Json.array = _
    rw [sortedByRepr, if_pos (List.all_eq_true.mpr hall)]
    rfl
  | other hseen hobj =>
    rw [toJsonSafe]
    simp only [hobj]
    exact if_neg hseen

/-- What an entry becomes. -/
theorem serializeEntry_ok {serialize : Value n → Except Raised Json} {e : Entry n} {m : PyStr × Json}
    (h : serializeEntry py serialize e = .ok m) :
    e.key.text = some m.1 ∧ ((e.sensitive py = true ∧ m.2 = redactedValue) ∨
      (e.sensitive py = false ∧ serialize e.value = .ok m.2)) := by
  unfold serializeEntry at h
  unfold Entry.sensitive
  cases htext : e.key.text with
  | none =>
    rw [htext] at h
    cases h
  | some text =>
    simp only [htext] at h
    split at h
    · rename_i hsensitive
      obtain rfl := Except.ok.inj h
      exact ⟨rfl, Or.inl ⟨hsensitive, rfl⟩⟩
    · rename_i hsensitive
      obtain ⟨json, hjson, rfl⟩ := map_eq_ok h
      exact ⟨rfl, Or.inr ⟨Bool.not_eq_true _ ▸ hsensitive, hjson⟩⟩

/-! ## Calls inside a call -/

/-- The arguments of a call. -/
structure Call (n : Nat) where
  room : Nat
  seen : Finset (Fin n)
  value : Value n

/-- The first call makes the second, of the entries of a mapping those that count. -/
inductive Steps (py : Interpreter) (g : Graph n) (counts : List (Entry n) → Entry n → Prop) : Call n → Call n → Prop
  | enum {room : Nat} {seen : Finset (Fin n)} {id : Fin n} {value : Value n} : g.obj id = .enum value →
      Steps py g counts ⟨room + 1, seen, .ref id⟩ ⟨room, seen, value⟩
  | item {room : Nat} {seen : Finset (Fin n)} {id : Fin n} {x : Value n} : id ∉ seen → x ∈ (g.obj id).items →
      Steps py g counts ⟨room + 1, seen, .ref id⟩ ⟨room, insert id seen, x⟩
  | entry {room : Nat} {seen : Finset (Fin n)} {id : Fin n} {entries : List (Entry n)} {e : Entry n} : id ∉ seen →
      (g.obj id).keyed = some entries → counts entries e → e.sensitive py = false →
      Steps py g counts ⟨room + 1, seen, .ref id⟩ ⟨room, insert id seen, e.value⟩

/-- No later entry has the key of this one. -/
def Last (entries : List (Entry n)) (e : Entry n) : Prop :=
  ∃ before after, entries = before ++ e :: after ∧ e.key.text ∉ after.map fun e => e.key.text

/-- The calls that are made. -/
abbrev Calls (py : Interpreter) (g : Graph n) : Call n → Call n → Prop := Steps py g fun entries e => e ∈ entries

/-- The calls whose results are kept. -/
abbrev Keeps (py : Interpreter) (g : Graph n) : Call n → Call n → Prop := Steps py g Last

section Results

variable {room : Nat} {seen : Finset (Fin n)}

theorem Makes.items {id : Fin n} {json : Json} (h : Makes py g room seen (.ref id) json) (hseen : id ∉ seen)
    {x : Value n} (hx : x ∈ (g.obj id).items) :
    ∃ (jsons : List Json) (j : Json), json = .array jsons ∧ j ∈ jsons ∧
      toJsonSafe py g room (insert id seen) x = .ok j := by
  cases h with
  | enum hobj _ => rw [hobj] at hx; cases hx
  | cycle hmem _ => exact absurd hmem hseen
  | entries _ hobj _ =>
    cases hkind : g.obj id with
    | sequence items => rw [hkind] at hobj; cases hobj
    | set items => rw [hkind] at hobj; cases hobj
    | enum value => rw [hkind] at hx; cases hx
    | mapping entries => rw [hkind] at hx; cases hx
    | dataclass fields => rw [hkind] at hx; cases hx
    | other typeName => rw [hkind] at hx; cases hx
  | sequence _ hobj hitems =>
    rw [hobj] at hx
    obtain ⟨j, hj, hok⟩ := PyList.exists_of_forall₂ hitems hx
    exact ⟨_, j, rfl, hj, hok⟩
  | set _ hobj hitems _ =>
    rw [hobj] at hx
    obtain ⟨j, hj, hok⟩ := PyList.exists_of_forall₂ hitems hx
    exact ⟨_, j, rfl, PyList.mem_sorted.mpr hj, hok⟩
  | other _ hobj => rw [hobj] at hx; cases hx

theorem Makes.keyed {id : Fin n} {json : Json} (h : Makes py g room seen (.ref id) json) (hseen : id ∉ seen)
    {entries : List (Entry n)} (hentries : (g.obj id).keyed = some entries) :
    ∃ members, List.Forall₂ (fun e m => serializeEntry py (toJsonSafe py g room (insert id seen)) e = .ok m)
      entries members ∧ json = .object (Dict.ofList members).entries := by
  cases h with
  | enum hobj _ => rw [hobj] at hentries; cases hentries
  | cycle hmem _ => exact absurd hmem hseen
  | entries _ hobj hmembers =>
    obtain rfl := Option.some.inj (hobj.symm.trans hentries)
    exact ⟨_, hmembers, rfl⟩
  | sequence _ hobj _ => rw [hobj] at hentries; cases hentries
  | set _ hobj _ _ => rw [hobj] at hentries; cases hentries
  | other _ hobj => rw [hobj] at hentries; cases hentries

end Results

/-- A call that returns gets results from the calls it makes. -/
theorem ok_of_calls {c c' : Call n} {json : Json} (h : toJsonSafe py g c.room c.seen c.value = .ok json)
    (hcalls : Calls py g c c') : ∃ json', toJsonSafe py g c'.room c'.seen c'.value = .ok json' := by
  cases hcalls with
  | enum hobj =>
    cases makes_of_ok h with
    | enum hobj' hvalue =>
      obtain rfl := Obj.enum.inj (hobj.symm.trans hobj')
      exact ⟨json, hvalue⟩
    | cycle _ hnot => rw [hobj] at hnot; cases hnot
    | entries _ hobj' _ => rw [hobj] at hobj'; cases hobj'
    | sequence _ hobj' _ => rw [hobj] at hobj'; cases hobj'
    | set _ hobj' _ _ => rw [hobj] at hobj'; cases hobj'
    | other _ hobj' => rw [hobj] at hobj'; cases hobj'
  | item hseen hx =>
    obtain ⟨_, j, -, -, hj⟩ := (makes_of_ok h).items hseen hx
    exact ⟨j, hj⟩
  | entry hseen hentries he hsensitive =>
    obtain ⟨members, hmembers, -⟩ := (makes_of_ok h).keyed hseen hentries
    obtain ⟨m, -, hm⟩ := PyList.exists_of_forall₂ hmembers he
    rcases (serializeEntry_ok hm).2 with ⟨habs, -⟩ | ⟨-, hj⟩
    · rw [hsensitive] at habs
      cases habs
    · exact ⟨m.2, hj⟩

theorem ok_of_reaches {c c' : Call n} {json : Json} (h : toJsonSafe py g c.room c.seen c.value = .ok json)
    (hreaches : Relation.ReflTransGen (Calls py g) c c') :
    ∃ json', toJsonSafe py g c'.room c'.seen c'.value = .ok json' := by
  induction hreaches with
  | refl => exact ⟨json, h⟩
  | tail _ hcalls ih =>
    obtain ⟨_, hjson⟩ := ih
    exact ok_of_calls hjson hcalls

/-! ## What of the results is kept -/

theorem forall₂_split {α β : Type} {R : α → β → Prop} {before after : List α} {x : α} {ys : List β}
    (h : List.Forall₂ R (before ++ x :: after) ys) :
    ∃ ysBefore y ysAfter, ys = ysBefore ++ y :: ysAfter ∧ R x y ∧ List.Forall₂ R after ysAfter := by
  induction before generalizing ys with
  | nil =>
    obtain ⟨y, ysAfter, hxy, hafter, rfl⟩ := List.forall₂_cons_left_iff.mp h
    exact ⟨[], y, ysAfter, rfl, hxy, hafter⟩
  | cons z before ih =>
    obtain ⟨w, rest, -, hrest, rfl⟩ := List.forall₂_cons_left_iff.mp h
    obtain ⟨ysBefore, y, ysAfter, rfl, hxy, hafter⟩ := ih hrest
    exact ⟨w :: ysBefore, y, ysAfter, rfl, hxy, hafter⟩

/-- Entries and the members they become have the same keys. -/
theorem map_text_eq {serialize : Value n → Except Raised Json} {entries : List (Entry n)} {members : Members}
    (h : List.Forall₂ (fun e m => serializeEntry py serialize e = .ok m) entries members) :
    entries.map (fun e => e.key.text) = members.map fun m => some m.1 := by
  induction h with
  | nil => rfl
  | cons hfirst _ ih => rw [List.map_cons, List.map_cons, ih, (serializeEntry_ok hfirst).1]

theorem mem_members_of_last {serialize : Value n → Except Raised Json} {entries : List (Entry n)} {members : Members}
    (h : List.Forall₂ (fun e m => serializeEntry py serialize e = .ok m) entries members) {e : Entry n}
    (hlast : Last entries e) :
    ∃ m ∈ (Dict.ofList members).entries, serializeEntry py serialize e = .ok m := by
  obtain ⟨before, after, rfl, hafter⟩ := hlast
  obtain ⟨membersBefore, m, membersAfter, rfl, hm, hrest⟩ := forall₂_split h
  rw [(serializeEntry_ok hm).1, map_text_eq hrest] at hafter
  refine ⟨m, Dict.mem_entries_of_get (Dict.get_ofList_iff.mpr ⟨membersBefore, membersAfter, rfl, ?_⟩), hm⟩
  intro hmem
  obtain ⟨m', hm', heq⟩ := List.mem_map.mp hmem
  exact hafter (List.mem_map.mpr ⟨m', hm', congrArg some heq⟩)

theorem last_of_mem_members {serialize : Value n → Except Raised Json} {entries : List (Entry n)} {members : Members}
    (h : List.Forall₂ (fun e m => serializeEntry py serialize e = .ok m) entries members) {m : PyStr × Json}
    (hm : m ∈ (Dict.ofList members).entries) :
    ∃ e, Last entries e ∧ serializeEntry py serialize e = .ok m := by
  obtain ⟨before, after, rfl, hafter⟩ := Dict.get_ofList_iff.mp (Dict.get_of_mem_entries hm)
  obtain ⟨entriesBefore, e, entriesAfter, rfl, he, hrest⟩ := forall₂_split h.flip
  refine ⟨e, ⟨entriesBefore, entriesAfter, rfl, ?_⟩, he⟩
  rw [(serializeEntry_ok he).1, map_text_eq hrest.flip]
  intro hmem
  obtain ⟨m', hm', heq⟩ := List.mem_map.mp hmem
  exact hafter (List.mem_map.mpr ⟨m', hm', Option.some.inj heq⟩)

/-- What holds everywhere in a result holds everywhere in the results that are kept. -/
theorem everywhere_of_keeps {p : Json → Bool} {c c' : Call n} {json : Json}
    (h : toJsonSafe py g c.room c.seen c.value = .ok json) (hp : Json.everywhere p json = true)
    (hkeeps : Keeps py g c c') :
    ∃ json', toJsonSafe py g c'.room c'.seen c'.value = .ok json' ∧ Json.everywhere p json' = true := by
  cases hkeeps with
  | enum hobj =>
    cases makes_of_ok h with
    | enum hobj' hvalue =>
      obtain rfl := Obj.enum.inj (hobj.symm.trans hobj')
      exact ⟨json, hvalue, hp⟩
    | cycle _ hnot => rw [hobj] at hnot; cases hnot
    | entries _ hobj' _ => rw [hobj] at hobj'; cases hobj'
    | sequence _ hobj' _ => rw [hobj] at hobj'; cases hobj'
    | set _ hobj' _ _ => rw [hobj] at hobj'; cases hobj'
    | other _ hobj' => rw [hobj] at hobj'; cases hobj'
  | item hseen hx =>
    obtain ⟨jsons, j, rfl, hmem, hj⟩ := (makes_of_ok h).items hseen hx
    exact ⟨j, hj, (Json.everywhere_array.mp hp).2 j hmem⟩
  | entry hseen hentries hlast hsensitive =>
    obtain ⟨members, hmembers, rfl⟩ := (makes_of_ok h).keyed hseen hentries
    obtain ⟨m, hmem, hm⟩ := mem_members_of_last hmembers hlast
    rcases (serializeEntry_ok hm).2 with ⟨habs, -⟩ | ⟨-, hj⟩
    · rw [hsensitive] at habs
      cases habs
    · exact ⟨m.2, hj, (Json.everywhere_object.mp hp).2 m hmem⟩

theorem everywhere_of_keeps_reaches {p : Json → Bool} {c c' : Call n} {json : Json}
    (h : toJsonSafe py g c.room c.seen c.value = .ok json) (hp : Json.everywhere p json = true)
    (hreaches : Relation.ReflTransGen (Keeps py g) c c') :
    ∃ json', toJsonSafe py g c'.room c'.seen c'.value = .ok json' ∧ Json.everywhere p json' = true := by
  induction hreaches with
  | refl => exact ⟨json, h, hp⟩
  | tail _ hkeeps ih =>
    obtain ⟨_, hok, hall⟩ := ih
    exact everywhere_of_keeps hok hall hkeeps

/-- No `int` that is kept has too many digits for `repr`. -/
def IntsConvertible (py : Interpreter) (g : Graph n) (c : Call n) : Prop :=
  ∀ c' : Call n, Relation.ReflTransGen (Keeps py g) c c' → ∀ k : Int, c'.value = .scalar (.int k) →
    Json.convertible py.runtime (.int k) = true

theorem intsConvertible_of_representable {c : Call n} {json : Json}
    (h : toJsonSafe py g c.room c.seen c.value = .ok json) (hjson : representable py json = true) :
    IntsConvertible py g c := by
  intro c' hreaches k hk
  obtain ⟨json', hok, hall⟩ := everywhere_of_keeps_reaches h hjson hreaches
  obtain ⟨room, seen, value⟩ := c'
  obtain rfl : value = .scalar (.int k) := hk
  cases room with
  | zero => cases hok
  | succ room =>
    cases makes_of_ok hok with
    | scalar => exact Json.everywhere_root hall

theorem representable_scalarJson {s : Scalar}
    (hs : ∀ k : Int, s = .int k → Json.convertible py.runtime (.int k) = true) :
    representable py (scalarJson s) = true := by
  cases s with
  | none => rfl
  | bool b => rfl
  | int k => exact hs k rfl
  | str s => rfl
  | float x => cases x <;> rfl
  | moment isoformat => rfl
  | literal text => rfl

/-- **`repr` can write a result exactly if no `int` that is kept has too many digits.** -/
theorem representable_of_intsConvertible {c : Call n} {json : Json}
    (h : toJsonSafe py g c.room c.seen c.value = .ok json) (hints : IntsConvertible py g c) :
    representable py json = true := by
  obtain ⟨room, seen, value⟩ := c
  induction room generalizing seen value json with
  | zero => cases h
  | succ room ih =>
    -- the calls inside keep no other `int`
    have hinside : ∀ seen' value' json', Keeps py g ⟨room + 1, seen, value⟩ ⟨room, seen', value'⟩ →
        toJsonSafe py g room seen' value' = .ok json' → representable py json' = true :=
      fun seen' value' json' hkeeps hok => ih seen' value' hok fun c' hreaches => hints c' (.head hkeeps hreaches)
    cases makes_of_ok h with
    | scalar s =>
      exact representable_scalarJson fun k hk => hints _ .refl k (congrArg Value.scalar hk)
    | enum hobj hvalue => exact hinside _ _ _ (.enum hobj) hvalue
    | cycle _ _ => rfl
    | entries hseen hobj hmembers =>
      refine Json.everywhere_object.mpr ⟨rfl, fun m hm => ?_⟩
      obtain ⟨e, hlast, he⟩ := last_of_mem_members hmembers hm
      rcases (serializeEntry_ok he).2 with ⟨-, hredacted⟩ | ⟨hsensitive, hok⟩
      · rw [hredacted]
        rfl
      · exact hinside _ _ _ (.entry hseen hobj hlast hsensitive) hok
    | sequence hseen hobj hitems =>
      refine Json.everywhere_array.mpr ⟨rfl, fun j hj => ?_⟩
      obtain ⟨x, hx, hok⟩ := PyList.exists_of_forall₂ hitems.flip hj
      exact hinside _ _ _ (.item hseen (by rw [hobj]; exact hx)) hok
    | set hseen hobj hitems hall =>
      exact Json.everywhere_array.mpr ⟨rfl, fun j hj => hall j (PyList.mem_sorted.mp hj)⟩
    | other _ _ => rfl

/-! ## Which calls return -/

/-- The call looks inside the object. -/
def Call.Enters (c : Call n) (id : Fin n) : Prop := c.value = .ref id ∧ id ∉ c.seen

/-- Nothing raises in this call, unless in a call inside. -/
structure Sound (py : Interpreter) (g : Graph n) (c : Call n) : Prop where
  room : c.room ≠ 0
  keys : ∀ id, c.Enters id → ∀ entries, (g.obj id).keyed = some entries → ∀ e ∈ entries, e.key.text ≠ none
  ints : ∀ id, c.Enters id → ∀ items, g.obj id = .set items →
    ∀ x ∈ items, IntsConvertible py g ⟨c.room - 1, insert id c.seen, x⟩

theorem sound_of_ok {c : Call n} {json : Json} (h : toJsonSafe py g c.room c.seen c.value = .ok json) :
    Sound py g c := by
  obtain ⟨room, seen, value⟩ := c
  cases room with
  | zero => cases h
  | succ room =>
    refine ⟨Nat.succ_ne_zero room, ?_, ?_⟩
    · rintro id ⟨rfl, hseen⟩ entries hentries e he
      obtain ⟨members, hmembers, -⟩ := (makes_of_ok h).keyed hseen hentries
      obtain ⟨m, -, hm⟩ := PyList.exists_of_forall₂ hmembers he
      rw [(serializeEntry_ok hm).1]
      exact Option.some_ne_none _
    · rintro id ⟨rfl, hseen⟩ items hitems x hx
      cases makes_of_ok h with
      | set _ hobj hjsons hall =>
        obtain rfl := Obj.set.inj (hobj.symm.trans hitems)
        obtain ⟨j, hj, hok⟩ := PyList.exists_of_forall₂ hjsons hx
        exact intsConvertible_of_representable (c := ⟨room, insert id seen, x⟩) hok (hall j hj)
      | enum hobj _ => rw [hobj] at hitems; cases hitems
      | cycle hmem _ => exact absurd hmem hseen
      | entries _ hobj _ => rw [hitems] at hobj; cases hobj
      | sequence _ hobj _ => rw [hobj] at hitems; cases hitems
      | other _ hobj => rw [hobj] at hitems; cases hitems

theorem serializeEntry_returns {serialize : Value n → Except Raised Json} {e : Entry n} (htext : e.key.text ≠ none)
    (hvalue : e.sensitive py = false → ∃ json, serialize e.value = .ok json) :
    ∃ m, serializeEntry py serialize e = .ok m := by
  unfold Entry.sensitive at hvalue
  unfold serializeEntry
  cases hkey : e.key.text with
  | none => exact absurd hkey htext
  | some text =>
    rw [hkey] at hvalue
    cases hsensitive : isSensitive py text with
    | true => exact ⟨_, if_pos hsensitive⟩
    | false =>
      obtain ⟨json, hjson⟩ := hvalue hsensitive
      refine ⟨(text, json), ?_⟩
      show (if isSensitive py text = true then _ else _) = _
      rw [if_neg (by rw [hsensitive]; exact Bool.false_ne_true), hjson]
      rfl

theorem returns_of_sound {c : Call n} (h : ∀ c', Relation.ReflTransGen (Calls py g) c c' → Sound py g c') :
    ∃ json, toJsonSafe py g c.room c.seen c.value = .ok json := by
  obtain ⟨room, seen, value⟩ := c
  induction room generalizing seen value with
  | zero => exact absurd rfl (h _ .refl).room
  | succ room ih =>
    have hsound := h _ .refl
    have hinside : ∀ seen' value', Calls py g ⟨room + 1, seen, value⟩ ⟨room, seen', value'⟩ →
        ∃ json, toJsonSafe py g room seen' value' = .ok json :=
      fun seen' value' hcalls => ih seen' value' fun c' hreaches => h c' (.head hcalls hreaches)
    cases value with
    | scalar s => exact ⟨_, rfl⟩
    | ref id =>
      by_cases hcycle : id ∈ seen ∧ (g.obj id).isEnum = false
      · exact ⟨_, (Makes.cycle hcycle.1 hcycle.2).ok⟩
      -- the entries of a mapping and of a dataclass
      have hkeyed : ∀ entries, (g.obj id).keyed = some entries → id ∉ seen →
          ∃ json, toJsonSafe py g (room + 1) seen (.ref id) = .ok json := by
        intro entries hentries hseen
        obtain ⟨members, hmembers⟩ := PyList.exists_mapM_eq_ok
          (f := serializeEntry py (toJsonSafe py g room (insert id seen))) fun e he =>
            serializeEntry_returns (hsound.keys id ⟨rfl, hseen⟩ entries hentries e he) fun hsensitive =>
              hinside _ _ (.entry hseen hentries he hsensitive)
        exact ⟨_, (Makes.entries hseen hentries (PyList.forall₂_of_mapM_eq_ok hmembers)).ok⟩
      have hitems : id ∉ seen → ∃ jsons, (g.obj id).items.mapM (toJsonSafe py g room (insert id seen)) = .ok jsons :=
        fun hseen => PyList.exists_mapM_eq_ok fun x hx => hinside _ _ (.item hseen hx)
      cases hobj : g.obj id with
      | enum value =>
        obtain ⟨json, hjson⟩ := hinside _ _ (.enum hobj)
        exact ⟨json, (Makes.enum hobj hjson).ok⟩
      | mapping entries =>
        have hseen : id ∉ seen := fun hmem => hcycle ⟨hmem, by rw [hobj]; rfl⟩
        exact hkeyed entries (by rw [hobj]; rfl) hseen
      | dataclass fields =>
        have hseen : id ∉ seen := fun hmem => hcycle ⟨hmem, by rw [hobj]; rfl⟩
        exact hkeyed (fields.map Field.entry) (by rw [hobj]; rfl) hseen
      | sequence items =>
        have hseen : id ∉ seen := fun hmem => hcycle ⟨hmem, by rw [hobj]; rfl⟩
        obtain ⟨jsons, hjsons⟩ := hitems hseen
        rw [hobj] at hjsons
        exact ⟨_, (Makes.sequence hseen hobj (PyList.forall₂_of_mapM_eq_ok hjsons)).ok⟩
      | set items =>
        have hseen : id ∉ seen := fun hmem => hcycle ⟨hmem, by rw [hobj]; rfl⟩
        obtain ⟨jsons, hjsons⟩ := hitems hseen
        rw [hobj] at hjsons
        have hall := PyList.forall₂_of_mapM_eq_ok hjsons
        refine ⟨_, (Makes.set hseen hobj hall fun j hj => ?_).ok⟩
        obtain ⟨x, hx, hok⟩ := PyList.exists_of_forall₂ hall.flip hj
        exact representable_of_intsConvertible (c := ⟨room, insert id seen, x⟩) hok
          (hsound.ints id ⟨rfl, hseen⟩ items hobj x hx)
      | other typeName =>
        have hseen : id ∉ seen := fun hmem => hcycle ⟨hmem, by rw [hobj]; rfl⟩
        exact ⟨_, (Makes.other hseen hobj).ok⟩

/-- **A call returns exactly if nothing raises in the calls it leads to.** -/
theorem returns_iff {c : Call n} :
    (∃ json, toJsonSafe py g c.room c.seen c.value = .ok json) ↔
      ∀ c', Relation.ReflTransGen (Calls py g) c c' → Sound py g c' := by
  constructor
  · rintro ⟨json, h⟩ c' hreaches
    obtain ⟨_, hok⟩ := ok_of_reaches h hreaches
    exact sound_of_ok hok
  · exact returns_of_sound

/-! ## How deep calls nest -/

/-- One more than the place of an enumeration's member. -/
def enumRank (g : Graph n) : Value n → Nat
  | .scalar _ => 0
  | .ref id => if (g.obj id).isEnum then id.val + 1 else 0

theorem enumRank_le (value : Value n) : enumRank g value ≤ n := by
  cases value with
  | scalar s => exact Nat.zero_le n
  | ref id =>
    rw [enumRank]
    split
    · exact id.isLt
    · exact Nat.zero_le n

theorem enumRank_lt {id : Fin n} {value : Value n} (hobj : g.obj id = .enum value) :
    enumRank g value < enumRank g (.ref id) := by
  have hrank : enumRank g (.ref id) = id.val + 1 := by rw [enumRank, hobj]; rfl
  rw [hrank]
  cases value with
  | scalar s => exact Nat.succ_pos _
  | ref j =>
    rw [enumRank]
    split
    · rename_i henum
      exact Nat.succ_lt_succ (g.enums id j hobj henum)
    · exact Nat.succ_pos _

/-- More than the calls that can be nested inside: an object is entered once on a path, and between two objects a
chain of enumerations goes down. -/
def depthBound (g : Graph n) (c : Call n) : Nat := (n - c.seen.card) * (n + 1) + enumRank g c.value

theorem depthBound_enters {room : Nat} {seen : Finset (Fin n)} {id : Fin n} (hseen : id ∉ seen) (value : Value n) :
    depthBound g ⟨room, insert id seen, value⟩ < depthBound g ⟨room + 1, seen, .ref id⟩ := by
  have hcard : (insert id seen).card = seen.card + 1 := Finset.card_insert_of_notMem hseen
  have hle : seen.card + 1 ≤ n := hcard ▸ card_finset_fin_le _
  have hrank := enumRank_le (g := g) value
  calc (n - (insert id seen).card) * (n + 1) + enumRank g value
      < (n - (seen.card + 1)) * (n + 1) + (n + 1) := by rw [hcard]; omega
    _ = (n - seen.card) * (n + 1) := by rw [← Nat.succ_mul, show (n - (seen.card + 1)).succ = n - seen.card by omega]
    _ ≤ (n - seen.card) * (n + 1) + enumRank g (.ref id) := Nat.le_add_right _ _

theorem depthBound_calls {c c' : Call n} (h : Calls py g c c') :
    c.room = c'.room + 1 ∧ depthBound g c' < depthBound g c := by
  cases h with
  | enum hobj => exact ⟨rfl, Nat.add_lt_add_left (enumRank_lt hobj) _⟩
  | item hseen _ => exact ⟨rfl, depthBound_enters hseen _⟩
  | entry hseen _ _ _ => exact ⟨rfl, depthBound_enters hseen _⟩

/-- **Calls do not nest deeper than the square of the number of objects.** -/
theorem room_of_reaches {room : Nat} (hroom : (n + 1) ^ 2 ≤ room) {value : Value n} {c : Call n}
    (h : Relation.ReflTransGen (Calls py g) ⟨room, ∅, value⟩ c) : c.room ≠ 0 := by
  have hbound : depthBound g c < c.room := by
    induction h with
    | refl =>
      have hrank := enumRank_le (g := g) value
      calc (n - Finset.card ∅) * (n + 1) + enumRank g value
          ≤ n * (n + 1) + n := by rw [Finset.card_empty, Nat.sub_zero]; omega
        _ < (n + 1) ^ 2 := by rw [pow_two, Nat.succ_mul]; omega
        _ ≤ room := hroom
    | tail _ hcalls ih =>
      obtain ⟨hroom', hlt⟩ := depthBound_calls hcalls
      omega
  omega

end FinancialRag.Observability
