/-
  What serialized values give away (`observability/serialization.py`).

  `Twins` are graphs that differ only in the values under sensitive keys and fields, and in the texts of the keys
  that show such a value.  Serializing tells twins apart exactly if it meets a key of the second kind
  (`sealed_of_hidden`, `hidden_of_sealed`): `str(key)` goes into the output as it is, and only the fields of the
  VALUES are redacted.
-/
import Mathlib.Data.List.Lex
import Mathlib.Data.List.Perm.Basic
import FinancialRag.Observability.Calls

set_option linter.unusedVariables false

namespace FinancialRag.Observability

variable {py : Interpreter} {n m : Nat} {g : Graph n} {g' : Graph m}

/-! ## Numbers of the output -/

def finiteNumber : Json → Bool
  | .float (.infinity _) => false
  | .float .nan => false
  | _ => true

theorem finite_scalarJson (s : Scalar) : Json.everywhere finiteNumber (scalarJson s) = true := by
  cases s with
  | none => rfl
  | bool b => rfl
  | int k => rfl
  | str s => rfl
  | float x => cases x <;> rfl
  | moment isoformat => rfl
  | literal text => rfl

/-- **No number of the output is infinite or not a number.** -/
theorem finite_of_ok {room : Nat} {seen : Finset (Fin n)} {value : Value n} {json : Json}
    (h : toJsonSafe py g room seen value = .ok json) : Json.everywhere finiteNumber json = true := by
  induction room generalizing seen value json with
  | zero => cases h
  | succ room ih =>
    cases makes_of_ok h with
    | scalar s => exact finite_scalarJson s
    | enum _ hvalue => exact ih hvalue
    | cycle _ _ => rfl
    | entries _ _ hmembers =>
      refine Json.everywhere_object.mpr ⟨rfl, fun member hmember => ?_⟩
      obtain ⟨e, -, he⟩ := last_of_mem_members hmembers hmember
      rcases (serializeEntry_ok he).2 with ⟨-, hredacted⟩ | ⟨-, hok⟩
      · rw [hredacted]
        rfl
      · exact ih hok
    | sequence _ _ hitems =>
      refine Json.everywhere_array.mpr ⟨rfl, fun j hj => ?_⟩
      obtain ⟨x, -, hok⟩ := PyList.exists_of_forall₂ hitems.flip hj
      exact ih hok
    | set _ _ hitems _ =>
      refine Json.everywhere_array.mpr ⟨rfl, fun j hj => ?_⟩
      obtain ⟨x, -, hok⟩ := PyList.exists_of_forall₂ hitems.flip (PyList.mem_sorted.mp hj)
      exact ih hok
    | other _ _ => rfl

/-! ## Graphs that differ in what is sensitive -/

/-- The values are the same, with `ρ` telling which objects are. -/
inductive SameValue (ρ : Fin n → Fin m → Prop) : Value n → Value m → Prop
  | scalar (s : Scalar) : SameValue ρ (.scalar s) (.scalar s)
  | ref {i : Fin n} {j : Fin m} : ρ i j → SameValue ρ (.ref i) (.ref j)

/-- Entries that may differ in the value if their keys are sensitive, and in the text of a key that shows what is
sensitive. -/
structure SameEntry (py : Interpreter) (ρ : Fin n → Fin m → Prop) (e : Entry n) (e' : Entry m) : Prop where
  shows : e.key.shows = e'.key.shows
  text : e.key.shows = false → e.key.text = e'.key.text
  value : SameValue ρ e.value e'.value ∨ (e.sensitive py = true ∧ e'.sensitive py = true)

inductive SameObject (py : Interpreter) (ρ : Fin n → Fin m → Prop) : Obj n → Obj m → Prop
  | enum {value : Value n} {value' : Value m} :
      SameValue ρ value value' → SameObject py ρ (.enum value) (.enum value')
  | mapping {entries : List (Entry n)} {entries' : List (Entry m)} :
      List.Forall₂ (SameEntry py ρ) entries entries' → SameObject py ρ (.mapping entries) (.mapping entries')
  | sequence {items : List (Value n)} {items' : List (Value m)} :
      List.Forall₂ (SameValue ρ) items items' → SameObject py ρ (.sequence items) (.sequence items')
  /-- in whatever order they are iterated -/
  | set {items arranged : List (Value n)} {items' : List (Value m)} : arranged.Perm items →
      List.Forall₂ (SameValue ρ) arranged items' → SameObject py ρ (.set items) (.set items')
  | dataclass {fields : List (Field n)} {fields' : List (Field m)} :
      List.Forall₂ (SameEntry py ρ) (fields.map Field.entry) (fields'.map Field.entry) →
      SameObject py ρ (.dataclass fields) (.dataclass fields')
  | other (typeName : PyStr) : SameObject py ρ (.other typeName) (.other typeName)

/-- Graphs that differ only in what is sensitive, where `ρ` pairs their objects. -/
structure Twins (py : Interpreter) (g : Graph n) (g' : Graph m) (ρ : Fin n → Fin m → Prop) : Prop where
  objects : ∀ i j, ρ i j → SameObject py ρ (g.obj i) (g'.obj j)
  functional : ∀ i j k, ρ i j → ρ i k → j = k
  injective : ∀ i j k, ρ i k → ρ j k → i = j

/-- No key of an object that is looked into shows what is sensitive. -/
def Hidden (g : Graph n) (c : Call n) : Prop :=
  ∀ id, c.Enters id → ∀ entries, (g.obj id).keyed = some entries → ∀ e ∈ entries, e.key.shows = false

theorem SameObject.isEnum {ρ : Fin n → Fin m → Prop} {o : Obj n} {o' : Obj m} (h : SameObject py ρ o o') :
    o.isEnum = o'.isEnum := by
  cases h <;> rfl

theorem SameObject.keyed {ρ : Fin n → Fin m → Prop} {o : Obj n} {o' : Obj m} (h : SameObject py ρ o o')
    {entries : List (Entry n)} (hentries : o.keyed = some entries) :
    ∃ entries', o'.keyed = some entries' ∧ List.Forall₂ (SameEntry py ρ) entries entries' := by
  cases h with
  | mapping hall =>
    obtain rfl := Option.some.inj hentries
    exact ⟨_, rfl, hall⟩
  | dataclass hall =>
    obtain rfl := Option.some.inj hentries
    exact ⟨_, rfl, hall⟩
  | enum _ => cases hentries
  | sequence _ => cases hentries
  | set _ _ => cases hentries
  | other _ => cases hentries

/-- What is sorted by `repr` does not show how it was arranged. -/
theorem sorted_repr_of_perm {jsons jsons' : List Json} (h : jsons.Perm jsons') :
    PyList.sorted (fun a b => decide (py.repr a < py.repr b)) jsons =
      PyList.sorted (fun a b => decide (py.repr a < py.repr b)) jsons' := by
  refine PyList.sorted_eq_of_perm ?_ ?_ h ?_
  · intro a b
    rcases le_total (py.repr a) (py.repr b) with hle | hle
    · exact Or.inr (decide_eq_false hle.not_gt)
    · exact Or.inl (decide_eq_false hle.not_gt)
  · intro a b c hab hbc
    exact decide_eq_false ((not_lt.mp (of_decide_eq_false hab)).trans (not_lt.mp (of_decide_eq_false hbc))).not_gt
  · intro a _ b _ hab hba
    exact py.repr_injective (le_antisymm (not_lt.mp (of_decide_eq_false hba)) (not_lt.mp (of_decide_eq_false hab)))

theorem serializeEntry_same {ρ : Fin n → Fin m → Prop} {serialize : Value n → Except Raised Json}
    {serialize' : Value m → Except Raised Json} {e : Entry n} {e' : Entry m} {member : PyStr × Json}
    (hsame : SameEntry py ρ e e') (hshows : e.key.shows = false)
    (hvalue : e.sensitive py = false → SameValue ρ e.value e'.value → serialize e.value = .ok member.2 →
      serialize' e'.value = .ok member.2)
    (h : serializeEntry py serialize e = .ok member) : serializeEntry py serialize' e' = .ok member := by
  obtain ⟨htext, hcases⟩ := serializeEntry_ok h
  have htext' : e'.key.text = some member.1 := (hsame.text hshows).symm.trans htext
  have hsensitive : e.sensitive py = isSensitive py member.1 := by
    rw [Entry.sensitive, htext]
    rfl
  unfold serializeEntry
  rw [htext']
  show (if isSensitive py member.1 = true then _ else _) = _
  rcases hcases with ⟨hyes, hredacted⟩ | ⟨hno, hok⟩
  · rw [if_pos (hsensitive ▸ hyes), ← hredacted]
  · have hsame' : SameValue ρ e.value e'.value :=
      hsame.value.resolve_right fun hboth => absurd (hno.symm.trans hboth.1) Bool.false_ne_true
    rw [if_neg (by rw [← hsensitive, hno]; exact Bool.false_ne_true), hvalue hno hsame' hok]
    rfl

/-! ## Twins are serialized alike -/

/-- Inserting objects that are paired keeps the sets of objects paired. -/
theorem Twins.insert {ρ : Fin n → Fin m → Prop} (h : Twins py g g' ρ) {seen : Finset (Fin n)}
    {seen' : Finset (Fin m)} (hseen : ∀ i j, ρ i j → (i ∈ seen ↔ j ∈ seen')) {id : Fin n} {id' : Fin m}
    (hid : ρ id id') (i : Fin n) (j : Fin m) (hij : ρ i j) : i ∈ insert id seen ↔ j ∈ insert id' seen' := by
  have heq : i = id ↔ j = id' := by
    constructor
    · rintro rfl
      exact h.functional _ _ _ hij hid
    · rintro rfl
      exact h.injective _ _ _ hij hid
  rw [Finset.mem_insert, Finset.mem_insert, heq, hseen i j hij]

/-- **Twins are serialized alike if no call meets a key that shows what is sensitive.** -/
theorem sealed_of_hidden {ρ : Fin n → Fin m → Prop} (h : Twins py g g' ρ) {room : Nat} {seen : Finset (Fin n)}
    {seen' : Finset (Fin m)} {value : Value n} {value' : Value m} {json : Json} (hvalue : SameValue ρ value value')
    (hseen : ∀ i j, ρ i j → (i ∈ seen ↔ j ∈ seen'))
    (hhidden : ∀ c, Relation.ReflTransGen (Calls py g) ⟨room, seen, value⟩ c → Hidden g c)
    (hok : toJsonSafe py g room seen value = .ok json) : toJsonSafe py g' room seen' value' = .ok json := by
  induction room generalizing seen seen' value value' json with
  | zero => cases hok
  | succ room ih =>
    cases hvalue with
    | scalar s => exact hok
    | @ref id id' hid =>
      have hobject := h.objects id id' hid
      have hmem := hseen id id' hid
      -- what a call inside an object returns, it returns inside its twin
      have hinside : ∀ {x : Value n} {x' : Value m} {j : Json}, SameValue ρ x x' →
          Calls py g ⟨room + 1, seen, .ref id⟩ ⟨room, insert id seen, x⟩ →
          toJsonSafe py g room (insert id seen) x = .ok j →
          toJsonSafe py g' room (insert id' seen') x' = .ok j :=
        fun hsame hcalls hj => ih hsame (h.insert hseen hid) (fun c hreaches => hhidden c (.head hcalls hreaches)) hj
      cases makes_of_ok hok with
      | enum hobj hjson =>
        rw [hobj] at hobject
        generalize hobj' : g'.obj id' = o' at hobject
        cases hobject with
        | enum hsame =>
          exact (Makes.enum hobj'
            (ih hsame hseen (fun c hreaches => hhidden c (.head (.enum hobj) hreaches)) hjson)).ok
      | cycle hcycle henum => exact (Makes.cycle (hmem.mp hcycle) (hobject.isEnum ▸ henum)).ok
      | entries hnot hobj hmembers =>
        obtain ⟨entries', hobj', hall⟩ := hobject.keyed hobj
        refine (Makes.entries (fun habs => hnot (hmem.mpr habs)) hobj'
          (PyList.forall₂_of_forall₂ hall hmembers fun e he e' member hsame hmember => ?_)).ok
        have hshows : e.key.shows = false := hhidden _ .refl id ⟨rfl, hnot⟩ _ hobj e he
        exact serializeEntry_same hsame hshows
          (fun hsensitive hvalue hj => hinside hvalue (.entry hnot hobj he hsensitive) hj) hmember
      | sequence hnot hobj hitems =>
        have hcalls : ∀ x ∈ (g.obj id).items, Calls py g ⟨room + 1, seen, .ref id⟩ ⟨room, insert id seen, x⟩ :=
          fun x hx => .item hnot hx
        rw [hobj] at hobject hcalls
        generalize hobj' : g'.obj id' = o' at hobject
        cases hobject with
        | sequence hall =>
          exact (Makes.sequence (fun habs => hnot (hmem.mpr habs)) hobj'
            (PyList.forall₂_of_forall₂ hall hitems fun x hx x' j hsame hj => hinside hsame (hcalls x hx) hj)).ok
      | set hnot hobj hitems hrepr =>
        have hcalls : ∀ x ∈ (g.obj id).items, Calls py g ⟨room + 1, seen, .ref id⟩ ⟨room, insert id seen, x⟩ :=
          fun x hx => .item hnot hx
        rw [hobj] at hobject hcalls
        generalize hobj' : g'.obj id' = o' at hobject
        cases hobject with
        | set hperm hall =>
          -- the items in the order in which the twin iterates over them
          obtain ⟨jsons', hjsons', hperm'⟩ := List.perm_comp_forall₂ hperm hitems
          rw [sorted_repr_of_perm hperm'.symm]
          exact (Makes.set (fun habs => hnot (hmem.mpr habs)) hobj'
            (PyList.forall₂_of_forall₂ hall hjsons' fun x hx x' j hsame hj =>
              hinside hsame (hcalls x (hperm.mem_iff.mp hx)) hj)
            fun j hj => hrepr j (hperm'.mem_iff.mp hj)).ok
      | other hnot hobj =>
        rw [hobj] at hobject
        generalize hobj' : g'.obj id' = o' at hobject
        cases hobject with
        | other typeName => exact (Makes.other (fun habs => hnot (hmem.mpr habs)) hobj').ok

/-! ## A key that shows what is sensitive tells twins apart -/

theorem sameValue_refl (value : Value n) : SameValue (· = ·) value value := by
  cases value with
  | scalar s => exact .scalar s
  | ref i => exact .ref rfl

theorem sameEntry_refl (e : Entry n) : SameEntry py (· = ·) e e := ⟨rfl, fun _ => rfl, Or.inl (sameValue_refl _)⟩

theorem sameObject_refl (o : Obj n) : SameObject py (· = ·) o o := by
  cases o with
  | enum value => exact .enum (sameValue_refl _)
  | mapping entries => exact .mapping (List.forall₂_same.mpr fun e _ => sameEntry_refl e)
  | sequence items => exact .sequence (List.forall₂_same.mpr fun x _ => sameValue_refl x)
  | set items => exact .set (.refl _) (List.forall₂_same.mpr fun x _ => sameValue_refl x)
  | dataclass fields => exact .dataclass (List.forall₂_same.mpr fun e _ => sameEntry_refl e)
  | other typeName => exact .other typeName

/-- The entry, where what its key shows is an `int` of too many digits for `str`. -/
def Entry.overlong (e : Entry n) : Entry n := if e.key.shows then { e with key := ⟨none, true⟩ } else e

theorem overlong_of_shows {e : Entry n} (h : e.key.shows = true) : e.overlong = { e with key := ⟨none, true⟩ } :=
  if_pos h

theorem sameEntry_overlong (e : Entry n) : SameEntry py (· = ·) e e.overlong := by
  cases hshows : e.key.shows with
  | true =>
    rw [overlong_of_shows hshows]
    exact ⟨hshows, fun habs => absurd (hshows.symm.trans habs) Bool.noConfusion, Or.inl (sameValue_refl _)⟩
  | false =>
    rw [Entry.overlong, if_neg (by rw [hshows]; exact Bool.false_ne_true)]
    exact sameEntry_refl e

/-- The graph, where one mapping has such entries. -/
def Graph.overlong (g : Graph n) (id : Fin n) (entries : List (Entry n)) : Graph n where
  obj := Function.update g.obj id (.mapping (entries.map Entry.overlong))
  enums i j hi hj := by
    by_cases hid : i = id
    · subst hid
      rw [Function.update_self] at hi
      cases hi
    by_cases hjd : j = id
    · subst hjd
      rw [Function.update_self] at hj
      cases hj
    rw [Function.update_of_ne hid] at hi
    rw [Function.update_of_ne hjd] at hj
    exact g.enums i j hi hj

section Overlong

variable {id : Fin n} {entries : List (Entry n)}

theorem overlong_obj_self : (g.overlong id entries).obj id = .mapping (entries.map Entry.overlong) :=
  Function.update_self _ _ _

theorem overlong_obj_of_ne {i : Fin n} (h : i ≠ id) : (g.overlong id entries).obj i = g.obj i :=
  Function.update_of_ne h _ _

theorem twins_overlong (hobj : g.obj id = .mapping entries) : Twins py g (g.overlong id entries) (· = ·) where
  objects i j hij := by
    subst hij
    by_cases hid : i = id
    · subst hid
      rw [overlong_obj_self, hobj]
      exact .mapping (List.forall₂_map_right_iff.mpr (List.forall₂_same.mpr fun e _ => sameEntry_overlong e))
    · rw [overlong_obj_of_ne hid]
      exact sameObject_refl _
  functional _ _ _ hj hk := hj.symm.trans hk
  injective _ _ _ hi hj := hi.trans hj.symm

theorem seen_subset_of_reaches {c c' : Call n} (h : Relation.ReflTransGen (Calls py g) c c') : c.seen ⊆ c'.seen := by
  induction h with
  | refl => exact subset_rfl
  | tail _ hcalls ih =>
    cases hcalls with
    | enum _ => exact ih
    | item _ _ => exact ih.trans (Finset.subset_insert _ _)
    | entry _ _ _ _ => exact ih.trans (Finset.subset_insert _ _)

/-- The calls that have not entered the mapping are made as before. -/
theorem reaches_overlong (hobj : g.obj id = .mapping entries) {c c' : Call n}
    (h : Relation.ReflTransGen (Calls py g) c c') (hid : id ∉ c'.seen) :
    Relation.ReflTransGen (Calls py (g.overlong id entries)) c c' := by
  induction h using Relation.ReflTransGen.head_induction_on with
  | refl => exact .refl
  | head hcalls hrest ih =>
    have hafter := fun hmem => hid (seen_subset_of_reaches hrest hmem)
    refine .head ?_ ih
    cases hcalls with
    | @enum _ _ i _ henum =>
      have hne : i ≠ id := fun heq => by rw [heq, hobj] at henum; cases henum
      exact .enum ((overlong_obj_of_ne hne).trans henum)
    | @item _ seen i x hseen hx =>
      have hne : i ≠ id := fun heq => hafter (heq ▸ Finset.mem_insert_self _ _)
      exact .item hseen ((overlong_obj_of_ne hne).symm ▸ hx)
    | @entry _ seen i es e hseen hentries he hsensitive =>
      have hne : i ≠ id := fun heq => hafter (heq ▸ Finset.mem_insert_self _ _)
      exact .entry hseen ((overlong_obj_of_ne hne).symm ▸ hentries) he hsensitive

end Overlong

/-- The text of a field is its name. -/
theorem mapping_of_shows {o : Obj n} {entries : List (Entry n)} (hentries : o.keyed = some entries) {e : Entry n}
    (he : e ∈ entries) (hshows : e.key.shows = true) : o = .mapping entries := by
  cases o with
  | mapping es => rw [Option.some.inj hentries]
  | dataclass fields =>
    obtain rfl := Option.some.inj hentries
    obtain ⟨field, -, rfl⟩ := List.mem_map.mp he
    cases hshows
  | enum value => cases hentries
  | sequence items => cases hentries
  | set items => cases hentries
  | other typeName => cases hentries

/-- **A graph that is serialized as its twins are has no key, in what is looked into, that shows what is sensitive.** -/
theorem hidden_of_sealed {room : Nat} {value : Value n} {json : Json}
    (hok : toJsonSafe py g room ∅ value = .ok json)
    (hsealed : ∀ g' : Graph n, Twins py g g' (· = ·) → toJsonSafe py g' room ∅ value = .ok json) {c : Call n}
    (hreaches : Relation.ReflTransGen (Calls py g) ⟨room, ∅, value⟩ c) : Hidden g c := by
  intro id henters entries hentries e he
  by_contra hshows
  rw [Bool.not_eq_false] at hshows
  have hobj := mapping_of_shows hentries he hshows
  -- the twin, where `str` raises for the key
  obtain ⟨json', hok'⟩ := ok_of_reaches (hsealed _ (twins_overlong hobj)) (reaches_overlong hobj hreaches henters.2)
  have hkeys := (sound_of_ok hok').keys id henters _ (by rw [overlong_obj_self]; rfl) e.overlong
    (List.mem_map_of_mem he)
  rw [overlong_of_shows hshows] at hkeys
  exact hkeys rfl

/-! ## The result -/

/-- A value without numbers that are not finite is returned, and the same for whatever is sensitive. -/
structure Safe (py : Interpreter) (g : Graph n) (room : Nat) (value : Value n) : Prop where
  returns : ∃ json, toJsonSafe py g room ∅ value = .ok json ∧ Json.everywhere finiteNumber json = true
  alike : ∀ (m : Nat) (g' : Graph m) (ρ : Fin n → Fin m → Prop) (value' : Value m), Twins py g g' ρ →
    SameValue ρ value value' → toJsonSafe py g' room ∅ value' = toJsonSafe py g room ∅ value

/-- An interpreter that lowers the letters of ASCII. -/
def plain : Interpreter where
  runtime := .plain
  lower s := s.map fun c => if 65 ≤ c.val ∧ c.val ≤ 90 then Fin.ofNat _ (c.val + 32) else c
  repr := Json.code
  repr_injective := Json.code_prefixCode.injective

/-- `{key: 1}` for a frozen dataclass with a password, whose `repr` the text is. -/
def credentialsKey (text : String) : Graph 1 where
  obj _ := .mapping [⟨⟨some (PyStr.ofString text), true⟩, .scalar (.int 1)⟩]
  enums _ _ h := by cases h

/-- `{10 ** sys.get_int_max_str_digits()}` -/
def longDigits (py : Interpreter) : Graph 1 where
  obj _ := .set [.scalar (.int (10 ^ py.runtime.intMaxStrDigits))]
  enums _ _ h := by cases h

theorem longDigits_raises {py : Interpreter} (hlimit : py.runtime.intMaxStrDigits ≠ 0) (room : Nat) :
    toJsonSafe py (longDigits py) (room + 2) ∅ (.ref 0) = .error .valueError := by
  have hlong : representable py (.int (10 ^ py.runtime.intMaxStrDigits)) = false := by
    show (_ || decide (Int.natAbs (10 ^ py.runtime.intMaxStrDigits) < _)) = false
    rw [Int.natAbs_pow]
    exact Bool.or_eq_false_iff.mpr ⟨beq_false_of_ne hlimit, decide_eq_false (lt_irrefl _)⟩
  show (sortedByRepr py [Json.int (10 ^ py.runtime.intMaxStrDigits)]).map Json.array = _
  rw [sortedByRepr, if_neg (by rw [List.all_cons, hlong]; exact Bool.false_ne_true)]
  rfl

end FinancialRag.Observability
