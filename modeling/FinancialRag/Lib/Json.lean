/-
  **JSON values as a Python decoder builds them** — a small library of its own.

  A number is an `int` or a `float`, and a float may be an infinity or NaN: the decoder accepts
  `Infinity`, `NaN` and numerals that overflow.  Object members keep their order; a decoded object has
  each key once (`unique`).  Texts are `PyStr`s, since an escape may write a lone surrogate.

  Two equalities are compared here.  `pyEq` is Python's `==`, for which `True == 1`; `jsonEq` is that of
  JSON, for which a boolean is no number.  They are one recursion over two comparisons of scalars, and
  `eqWith_mapScalars` says what either makes of a value whose scalars have been exchanged.
-/
import Mathlib.Algebra.Order.Ring.Rat
import Mathlib.Data.List.Forall2
import Mathlib.Order.WithBot
import FinancialRag.Lib.PyStr

set_option linter.unusedVariables false

/-- A `float`, as its exact value. -/
inductive Double where
  | finite (q : ℚ)
  | negativeZero
  | infinity (negative : Bool)
  | nan
  deriving DecidableEq

/-- The numbers and the two infinities. -/
abbrev Number : Type := WithBot (WithTop ℚ)

namespace Double

/-- NaN is no number. -/
def value : Double → Option Number
  | .finite q => some ((q : WithTop ℚ) : Number)
  | .negativeZero => some (((0 : ℚ) : WithTop ℚ) : Number)
  | .infinity false => some ((⊤ : WithTop ℚ) : Number)
  | .infinity true => some ⊥
  | .nan => none

end Double

inductive Json where
  | null
  | bool (b : Bool)
  | int (n : Int)
  | float (x : Double)
  | string (s : PyStr)
  | array (items : List Json)
  | object (members : List (PyStr × Json))

/-- The members of an object, a `Mapping`. -/
abbrev Members : Type := List (PyStr × Json)

namespace Members

/-- `d.get(k)`. -/
def get (d : Members) (k : String) : Option Json := d.lookup (PyStr.ofString k)

/-- `k in d`. -/
def has (d : Members) (k : String) : Bool := (d.get k).isSome

@[simp] theorem get_nil (k : String) : get [] k = none := rfl

/-- Reading a display. -/
@[simp] theorem get_cons (k k' : String) (v : Json) (rest : Members) :
    get ((PyStr.ofString k, v) :: rest) k' = if k' = k then some v else get rest k' := by
  unfold get
  rw [List.lookup_cons]
  by_cases h : k' = k
  · rw [if_pos h, h, beq_self_eq_true]
  · have hne : (PyStr.ofString k' == PyStr.ofString k) = false :=
      beq_eq_false_iff_ne.mpr fun habs => h (PyStr.ofString_injective habs)
    rw [if_neg h, hne]

end Members

namespace Json

/-- **Induction over a value**, one hypothesis for all the children of a node. -/
@[induction_eliminator]
theorem induct {motive : Json → Prop} (null : motive .null) (bool : ∀ b, motive (.bool b))
    (int : ∀ n, motive (.int n)) (float : ∀ x, motive (.float x)) (string : ∀ s, motive (.string s))
    (array : ∀ items, (∀ v ∈ items, motive v) → motive (.array items))
    (object : ∀ members, (∀ m ∈ members, motive m.2) → motive (.object members)) (v : Json) :
    motive v := by
  refine Json.rec (motive_1 := motive) (motive_2 := fun items => ∀ v ∈ items, motive v)
    (motive_3 := fun members => ∀ m ∈ members, motive m.2) (motive_4 := fun m => motive m.2)
    null bool int float string array object ?_ ?_ ?_ ?_ ?_ v
  · intro v habs
    exact absurd habs List.not_mem_nil
  · intro head tail hhead htail v hv
    rcases List.mem_cons.mp hv with rfl | hv
    · exact hhead
    · exact htail v hv
  · intro m habs
    exact absurd habs List.not_mem_nil
  · intro head tail hhead htail m hm
    rcases List.mem_cons.mp hm with rfl | hm
    · exact hhead
    · exact htail m hm
  · intro k v hv
    exact hv

def isContainer : Json → Bool
  | .array _ => true
  | .object _ => true
  | _ => false

/-! ## Depth -/

mutual

/-- How deep a value is nested; a scalar is not. -/
def depth : Json → Nat
  | .array items => depthItems items + 1
  | .object members => depthMembers members + 1
  | _ => 0

def depthItems : List Json → Nat
  | [] => 0
  | v :: rest => max (depth v) (depthItems rest)

def depthMembers : List (PyStr × Json) → Nat
  | [] => 0
  | (_, v) :: rest => max (depth v) (depthMembers rest)

end

theorem depth_le_items {v : Json} {items : List Json} (h : v ∈ items) : depth v ≤ depthItems items := by
  induction items with
  | nil => cases h
  | cons w rest ih =>
    rw [depthItems]
    rcases List.mem_cons.mp h with rfl | hrest
    · exact le_max_left _ _
    · exact le_max_of_le_right (ih hrest)

theorem depth_le_members {m : PyStr × Json} {members : Members} (h : m ∈ members) :
    depth m.2 ≤ depthMembers members := by
  induction members with
  | nil => cases h
  | cons m' rest ih =>
    obtain ⟨k, w⟩ := m'
    rw [depthMembers]
    rcases List.mem_cons.mp h with rfl | hrest
    · exact le_max_left _ _
    · exact le_max_of_le_right (ih hrest)

theorem depth_lt_array {v : Json} {items : List Json} (h : v ∈ items) :
    depth v < depth (.array items) :=
  Nat.lt_succ_of_le (depth_le_items h)

theorem depth_lt_object {m : PyStr × Json} {members : Members} (h : m ∈ members) :
    depth m.2 < depth (.object members) :=
  Nat.lt_succ_of_le (depth_le_members h)

theorem mem_of_lookup {members : Members} {k : PyStr} {v : Json} (h : members.lookup k = some v) :
    (k, v) ∈ members := by
  obtain ⟨before, after, hsplit, _⟩ := List.lookup_eq_some_iff.mp h
  rw [hsplit]
  exact List.mem_append_right _ List.mem_cons_self

theorem depth_lt_of_lookup {members : Members} {k : PyStr} {v : Json}
    (h : members.lookup k = some v) : depth v < depth (.object members) :=
  depth_lt_object (mem_of_lookup h)

/-! ## What holds everywhere in a value -/

mutual

/-- `p` holds of every node. -/
def everywhere (p : Json → Bool) : Json → Bool
  | .array items => p (.array items) && everywhereItems p items
  | .object members => p (.object members) && everywhereMembers p members
  | v => p v

def everywhereItems (p : Json → Bool) : List Json → Bool
  | [] => true
  | v :: rest => everywhere p v && everywhereItems p rest

def everywhereMembers (p : Json → Bool) : List (PyStr × Json) → Bool
  | [] => true
  | (_, v) :: rest => everywhere p v && everywhereMembers p rest

end

section Everywhere

variable {p q : Json → Bool}

theorem everywhereItems_iff {items : List Json} :
    everywhereItems p items = true ↔ ∀ v ∈ items, everywhere p v = true := by
  induction items with
  | nil => exact ⟨fun _ v hv => absurd hv List.not_mem_nil, fun _ => rfl⟩
  | cons v rest ih =>
    show (everywhere p v && everywhereItems p rest) = true ↔ _
    rw [Bool.and_eq_true, ih, List.forall_mem_cons]

theorem everywhereMembers_iff {members : Members} :
    everywhereMembers p members = true ↔ ∀ m ∈ members, everywhere p m.2 = true := by
  induction members with
  | nil => exact ⟨fun _ m hm => absurd hm List.not_mem_nil, fun _ => rfl⟩
  | cons m rest ih =>
    obtain ⟨k, v⟩ := m
    show (everywhere p v && everywhereMembers p rest) = true ↔ _
    rw [Bool.and_eq_true, ih, List.forall_mem_cons]

theorem everywhere_array {items : List Json} :
    everywhere p (.array items) = true ↔ p (.array items) = true ∧ ∀ v ∈ items, everywhere p v = true := by
  show (p (.array items) && everywhereItems p items) = true ↔ _
  rw [Bool.and_eq_true, everywhereItems_iff]

theorem everywhere_object {members : Members} :
    everywhere p (.object members) = true ↔
      p (.object members) = true ∧ ∀ m ∈ members, everywhere p m.2 = true := by
  show (p (.object members) && everywhereMembers p members) = true ↔ _
  rw [Bool.and_eq_true, everywhereMembers_iff]

/-- What holds everywhere holds at the root. -/
theorem everywhere_root {v : Json} (h : everywhere p v = true) : p v = true := by
  cases v with
  | array items => exact (everywhere_array.mp h).1
  | object members => exact (everywhere_object.mp h).1
  | null => exact h
  | bool b => exact h
  | int n => exact h
  | float x => exact h
  | string s => exact h

theorem everywhere_mono (hpq : ∀ v, p v = true → q v = true) {v : Json} (h : everywhere p v = true) :
    everywhere q v = true := by
  induction v with
  | array items ih =>
    obtain ⟨hroot, hitems⟩ := everywhere_array.mp h
    exact everywhere_array.mpr ⟨hpq _ hroot, fun v hv => ih v hv (hitems v hv)⟩
  | object members ih =>
    obtain ⟨hroot, hmembers⟩ := everywhere_object.mp h
    exact everywhere_object.mpr ⟨hpq _ hroot, fun m hm => ih m hm (hmembers m hm)⟩
  | null => exact hpq _ h
  | bool b => exact hpq _ h
  | int n => exact hpq _ h
  | float x => exact hpq _ h
  | string s => exact hpq _ h

theorem everywhere_of_forall (h : ∀ v, p v = true) (v : Json) : everywhere p v = true := by
  induction v with
  | array items ih => exact everywhere_array.mpr ⟨h _, ih⟩
  | object members ih => exact everywhere_object.mpr ⟨h _, ih⟩
  | null => exact h _
  | bool b => exact h _
  | int n => exact h _
  | float x => exact h _
  | string s => exact h _

end Everywhere

/-- Each object has each key once. -/
def unique (v : Json) : Bool :=
  everywhere (fun | .object members => decide (members.map Prod.fst).Nodup | _ => true) v

theorem unique_array {items : List Json} (h : unique (.array items) = true) :
    ∀ v ∈ items, unique v = true :=
  (everywhere_array.mp h).2

theorem unique_object {members : Members} (h : unique (.object members) = true) :
    (members.map Prod.fst).Nodup ∧ ∀ m ∈ members, unique m.2 = true := by
  obtain ⟨hroot, hmembers⟩ := everywhere_object.mp h
  exact ⟨of_decide_eq_true hroot, hmembers⟩

theorem lookup_of_mem {members : Members} (hnodup : (members.map Prod.fst).Nodup) {m : PyStr × Json}
    (h : m ∈ members) : members.lookup m.1 = some m.2 := by
  induction members with
  | nil => cases h
  | cons m' rest ih =>
    obtain ⟨k', v'⟩ := m'
    rw [List.map_cons, List.nodup_cons] at hnodup
    rcases List.mem_cons.mp h with rfl | hrest
    · exact List.lookup_cons_self
    · have hne : (m.1 == k') = false := by
        refine beq_eq_false_iff_ne.mpr ?_
        rintro rfl
        exact hnodup.1 (List.mem_map.mpr ⟨m, hrest, rfl⟩)
      rw [List.lookup_cons, hne]
      exact ih hnodup.2 hrest

/-! ## Equality -/

/-- The number a JSON number stands for. -/
def number : Json → Option Number
  | .int n => some (((n : ℚ) : WithTop ℚ) : Number)
  | .float x => x.value
  | _ => none

/-- Python counts a boolean as 0 or 1. -/
def pyNumber : Json → Option Number
  | .bool b => some (((if b then 1 else 0 : ℚ) : WithTop ℚ) : Number)
  | v => number v

/-- Two scalars under a reading of numbers. -/
def scalarEq (read : Json → Option Number) : Json → Json → Bool
  | .null, .null => true
  | .string s, .string t => s == t
  | .bool b, .bool c => b == c
  | v, w =>
    match read v, read w with
    | some x, some y => decide (x = y)
    | _, _ => false

/-- A float and whatever else is read as a number. -/
theorem scalarEq_float_some {read : Json → Option Number} {x : Double} {w : Json} {a b : Number}
    (hx : read (.float x) = some a) (hw : read w = some b) :
    scalarEq read (.float x) w = decide (a = b) := by
  cases w <;> simp only [scalarEq, hx, hw]

theorem scalarEq_float_none {read : Json → Option Number} {x : Double} {w : Json}
    (h : read (.float x) = none ∨ read w = none) : scalarEq read (.float x) w = false := by
  rcases h with h | h
  · cases w <;> simp only [scalarEq, h]
  · cases hx : read (.float x) <;> cases w <;> simp only [scalarEq, hx, h]

mutual

/-- Arrays item by item, objects key by key, anything else by `scalar`. -/
def eqWith (scalar : Json → Json → Bool) : Json → Json → Bool
  | .array xs, .array ys => eqItems scalar xs ys
  | .object ms, .object ns => ms.length == ns.length && eqMembers scalar ms ns
  | v, w => scalar v w

def eqItems (scalar : Json → Json → Bool) : List Json → List Json → Bool
  | [], [] => true
  | v :: vs, w :: ws => eqWith scalar v w && eqItems scalar vs ws
  | _, _ => false

def eqMembers (scalar : Json → Json → Bool) : List (PyStr × Json) → List (PyStr × Json) → Bool
  | [], _ => true
  | (k, v) :: ms, ns =>
    (match ns.lookup k with
      | some w => eqWith scalar v w
      | none => false) && eqMembers scalar ms ns

end

/-- `v == w`, of values that share no NaN object. -/
def pyEq (v w : Json) : Bool := eqWith (scalarEq pyNumber) v w

/-- Equality of JSON values: numbers by value, and no boolean is one. -/
def jsonEq (v w : Json) : Bool := eqWith (scalarEq number) v w

section Equality

variable {scalar scalar' : Json → Json → Bool}

theorem eqWith_scalar {v : Json} (h : v.isContainer = false) (w : Json) :
    eqWith scalar v w = scalar v w := by
  cases v with
  | array items => cases h
  | object members => cases h
  | null => rfl
  | bool b => rfl
  | int n => rfl
  | float x => rfl
  | string s => rfl

theorem eqItems_iff {vs ws : List Json} :
    eqItems scalar vs ws = true ↔ List.Forall₂ (fun v w => eqWith scalar v w = true) vs ws := by
  induction vs generalizing ws with
  | nil =>
    cases ws with
    | nil => exact ⟨fun _ => .nil, fun _ => rfl⟩
    | cons w ws =>
      constructor
      · intro habs
        cases habs
      · intro habs
        cases habs
  | cons v vs ih =>
    cases ws with
    | nil =>
      constructor
      · intro habs
        cases habs
      · intro habs
        cases habs
    | cons w ws => rw [eqItems, Bool.and_eq_true, ih, List.forall₂_cons]

theorem eqMembers_iff {ms ns : Members} :
    eqMembers scalar ms ns = true ↔
      ∀ m ∈ ms, ∃ w, ns.lookup m.1 = some w ∧ eqWith scalar m.2 w = true := by
  induction ms with
  | nil => simp [eqMembers]
  | cons m ms ih =>
    obtain ⟨k, v⟩ := m
    rw [eqMembers, Bool.and_eq_true, ih, List.forall_mem_cons]
    refine and_congr_left fun _ => ?_
    cases hlookup : ns.lookup k with
    | none => simp
    | some w => simp

/-- Two comparisons that agree on the nodes of `v` agree on `v`. -/
theorem eqWith_congr {p : Json → Bool} (hp : ∀ u, p u = true → ∀ w, scalar u w = scalar' u w)
    {v : Json} (h : everywhere p v = true) (w : Json) : eqWith scalar v w = eqWith scalar' v w := by
  induction v generalizing w with
  | array items ih =>
    obtain ⟨hroot, hitems⟩ := everywhere_array.mp h
    cases w with
    | array ys =>
      rw [eqWith, eqWith, Bool.eq_iff_iff, eqItems_iff, eqItems_iff]
      rw [List.forall₂_iff_zip, List.forall₂_iff_zip]
      refine and_congr_right fun _ => ?_
      constructor
      · intro h v w hvw
        have hv : v ∈ items := (List.of_mem_zip hvw).1
        rw [← ih v hv (hitems v hv)]
        exact h hvw
      · intro h v w hvw
        have hv : v ∈ items := (List.of_mem_zip hvw).1
        rw [ih v hv (hitems v hv)]
        exact h hvw
    | null => exact hp _ hroot _
    | bool b => exact hp _ hroot _
    | int n => exact hp _ hroot _
    | float x => exact hp _ hroot _
    | string s => exact hp _ hroot _
    | object ns => exact hp _ hroot _
  | object members ih =>
    obtain ⟨hroot, hmembers⟩ := everywhere_object.mp h
    cases w with
    | object ns =>
      rw [eqWith, eqWith, Bool.eq_iff_iff, Bool.and_eq_true, Bool.and_eq_true, eqMembers_iff,
        eqMembers_iff]
      refine and_congr_right fun _ => forall_congr' fun m => forall_congr' fun hm => ?_
      refine exists_congr fun w => and_congr_right fun _ => ?_
      rw [ih m hm (hmembers m hm)]
    | null => exact hp _ hroot _
    | bool b => exact hp _ hroot _
    | int n => exact hp _ hroot _
    | float x => exact hp _ hroot _
    | string s => exact hp _ hroot _
    | array ys => exact hp _ hroot _
  | null => rw [eqWith_scalar rfl, eqWith_scalar rfl, hp _ h]
  | bool b => rw [eqWith_scalar rfl, eqWith_scalar rfl, hp _ h]
  | int n => rw [eqWith_scalar rfl, eqWith_scalar rfl, hp _ h]
  | float x => rw [eqWith_scalar rfl, eqWith_scalar rfl, hp _ h]
  | string s => rw [eqWith_scalar rfl, eqWith_scalar rfl, hp _ h]

end Equality

/-! ## Exchanging scalars -/

mutual

/-- `f` at every scalar. -/
def mapScalars (f : Json → Json) : Json → Json
  | .array items => .array (mapItems f items)
  | .object members => .object (mapMembers f members)
  | v => f v

def mapItems (f : Json → Json) : List Json → List Json
  | [] => []
  | v :: rest => mapScalars f v :: mapItems f rest

def mapMembers (f : Json → Json) : List (PyStr × Json) → List (PyStr × Json)
  | [] => []
  | (k, v) :: rest => (k, mapScalars f v) :: mapMembers f rest

end

section MapScalars

variable {scalar : Json → Json → Bool} (f : Json → Json)

theorem mapItems_eq (items : List Json) : mapItems f items = items.map (mapScalars f) := by
  induction items with
  | nil => rfl
  | cons v rest ih => rw [mapItems, ih, List.map_cons]

theorem mapMembers_eq (members : Members) :
    mapMembers f members = members.map fun m => (m.1, mapScalars f m.2) := by
  induction members with
  | nil => rfl
  | cons m rest ih =>
    obtain ⟨k, v⟩ := m
    rw [mapMembers, ih, List.map_cons]

theorem keys_mapMembers (members : Members) :
    (mapMembers f members).map Prod.fst = members.map Prod.fst := by
  rw [mapMembers_eq, List.map_map]
  rfl

/-- **Comparing a value with itself, its scalars exchanged**: every scalar has to equal its stand-in. -/
theorem eqWith_mapScalars {v : Json} (hv : unique v = true) :
    eqWith scalar v (mapScalars f v) = true ↔
      everywhere (fun u => u.isContainer || scalar u (f u)) v = true := by
  induction v with
  | array items ih =>
    rw [mapScalars, eqWith, everywhere_array, eqItems_iff, mapItems_eq, List.forall₂_map_right_iff,
      List.forall₂_same]
    have hitems := unique_array hv
    constructor
    · intro h
      exact ⟨rfl, fun v hv' => (ih v hv' (hitems v hv')).mp (h v hv')⟩
    · rintro ⟨_, h⟩ v hv'
      exact (ih v hv' (hitems v hv')).mpr (h v hv')
  | object members ih =>
    obtain ⟨hnodup, hmembers⟩ := unique_object hv
    have hnodup' : ((mapMembers f members).map Prod.fst).Nodup := by
      rw [keys_mapMembers]
      exact hnodup
    have hlookup : ∀ m ∈ members, (mapMembers f members).lookup m.1 = some (mapScalars f m.2) := by
      intro m hm
      have hmapped : (m.1, mapScalars f m.2) ∈ mapMembers f members := by
        rw [mapMembers_eq]
        exact List.mem_map.mpr ⟨m, hm, rfl⟩
      exact lookup_of_mem hnodup' hmapped
    have hlength : members.length = (mapMembers f members).length := by
      rw [mapMembers_eq, List.length_map]
    rw [mapScalars, eqWith, everywhere_object, Bool.and_eq_true, eqMembers_iff, beq_iff_eq]
    constructor
    · rintro ⟨_, h⟩
      refine ⟨rfl, fun m hm => (ih m hm (hmembers m hm)).mp ?_⟩
      obtain ⟨w, hw, heq⟩ := h m hm
      rw [hlookup m hm] at hw
      rwa [Option.some.inj hw]
    · rintro ⟨_, h⟩
      exact ⟨hlength, fun m hm => ⟨_, hlookup m hm, (ih m hm (hmembers m hm)).mpr (h m hm)⟩⟩
  | null => exact Bool.eq_iff_iff.mp (eqWith_scalar rfl _)
  | bool b => exact Bool.eq_iff_iff.mp (eqWith_scalar rfl _)
  | int n => exact Bool.eq_iff_iff.mp (eqWith_scalar rfl _)
  | float x => exact Bool.eq_iff_iff.mp (eqWith_scalar rfl _)
  | string s => exact Bool.eq_iff_iff.mp (eqWith_scalar rfl _)

/-- What holds of the containers, and of what the scalars are exchanged for, holds everywhere. -/
theorem everywhere_mapScalars {p q : Json → Bool} {f : Json → Json}
    (hscalar : ∀ u, p u = true → u.isContainer = false → everywhere q (f u) = true)
    (harray : ∀ items, q (.array items) = true) (hobject : ∀ members, q (.object members) = true) {v : Json}
    (h : everywhere p v = true) : everywhere q (mapScalars f v) = true := by
  induction v with
  | array items ih =>
    rw [mapScalars, everywhere_array, mapItems_eq]
    refine ⟨harray _, fun w hw => ?_⟩
    obtain ⟨v, hv, rfl⟩ := List.mem_map.mp hw
    exact ih v hv ((everywhere_array.mp h).2 v hv)
  | object members ih =>
    rw [mapScalars, everywhere_object, mapMembers_eq]
    refine ⟨hobject _, fun m' hm' => ?_⟩
    obtain ⟨m, hm, rfl⟩ := List.mem_map.mp hm'
    exact ih m hm ((everywhere_object.mp h).2 m hm)
  | null => exact hscalar _ h rfl
  | bool b => exact hscalar _ h rfl
  | int n => exact hscalar _ h rfl
  | float x => exact hscalar _ h rfl
  | string s => exact hscalar _ h rfl

end MapScalars

end Json
