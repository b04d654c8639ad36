/-
  When `_validate` is exact.

  `ExactOn py schema v`: the validator accepts `v` just if `v` satisfies the schema as JSON Schema means it.
  Where no boolean is compared with a number that it equals, and no NaN with a bound, it is exact
  (`exactOn_of_clear`).  A value on which NO schema can mislead it is one without booleans, without zeros
  and ones, and without NaN: for every other value two schemas are written down here that do,
  `numbersOnly` for a NaN and a `const` with the scalars exchanged for the rest.
-/
import FinancialRag.Mcp.Validation

set_option linter.unusedVariables false

namespace FinancialRag.Mcp

open JsonSchema

/-- The validator accepts what satisfies the schema, and nothing else. -/
def ExactOn (py : PyRuntime) (schema : Members) (v : Json) : Prop :=
  ∀ limit path, Json.depth (.object schema) ≤ limit →
    (validate py limit v schema path = .ok () ↔ Satisfies (json py) schema v)

theorem exactOn_iff {py : PyRuntime} {schema : Members} {v : Json} (h : WellFormed py schema) :
    ExactOn py schema v ↔ (Satisfies (python py) schema v ↔ Satisfies (json py) schema v) := by
  have haccepts : ∀ limit path, Json.depth (.object schema) ≤ limit →
      (validate py limit v schema path = .ok () ↔ Satisfies (python py) schema v) :=
    fun limit path hlimit => (validate_decides limit h hlimit).accepts_iff
  constructor
  · intro hexact
    exact (haccepts _ [] (le_refl _)).symm.trans (hexact _ [] (le_refl _))
  · intro hsame limit path hlimit
    exact (haccepts limit path hlimit).trans hsame

/-! ## Where nothing is confused -/

/-- Python and JSON agree on whether the value equals each constant, and a NaN meets no bound. -/
structure Clear (schema : Members) (v : Json) : Prop where
  const : ∀ c, schema.get "const" = some c → v.pyEq c = v.jsonEq c
  enum : ∀ cs, schema.get "enum" = some (.array cs) → ∀ c ∈ cs, v.pyEq c = v.jsonEq c
  bounds : isNan v = true → schema.get "minimum" = none ∧ schema.get "maximum" = none

section Comparisons

variable {py : PyRuntime} {schema : Members} {v : Json}

/-- Where both sides are numbers, not less is at most. -/
theorem not_less_iff {v w : Json} {x y : Number} (hv : v.number = some x) (hw : w.number = some y) :
    less v w = false ↔ AtMost w v := by
  unfold less AtMost
  rw [hv, hw]
  simp

theorem within_iff {lower upper : String} {x : Number} (hv : v.number = some x)
    (hlower : ∀ bound, schema.get lower = some bound → ∃ y, bound.number = some y)
    (hupper : ∀ bound, schema.get upper = some bound → ∃ y, bound.number = some y) :
    Within (python py) schema lower upper v ↔ Within (json py) schema lower upper v := by
  refine and_congr (forall_congr' fun bound => forall_congr' fun hbound => ?_)
    (forall_congr' fun bound => forall_congr' fun hbound => ?_)
  · obtain ⟨y, hy⟩ := hlower bound hbound
    exact not_less_iff hv hy
  · obtain ⟨y, hy⟩ := hupper bound hbound
    exact not_less_iff hy hv

/-- A number that is not NaN has a value. -/
theorem number_of_hasType (h : HasType .number v) (hnan : isNan v = false) : ∃ x, v.number = some x := by
  cases h with
  | int n => exact ⟨_, rfl⟩
  | float x =>
    cases x with
    | finite q => exact ⟨_, rfl⟩
    | negativeZero => exact ⟨_, rfl⟩
    | infinity negative =>
      cases negative with
      | true => exact ⟨_, rfl⟩
      | false => exact ⟨_, rfl⟩
    | nan => cases hnan

theorem range_iff (h : KeywordsWellFormed py schema) (hclear : Clear schema v) (hv : HasType .number v) :
    Within (python py) schema "minimum" "maximum" v ↔ Within (json py) schema "minimum" "maximum" v := by
  cases hnan : isNan v with
  | false =>
    obtain ⟨x, hx⟩ := number_of_hasType hv hnan
    exact within_iff hx (h.bounds _ (by simp)) (h.bounds _ (by simp))
  | true =>
    obtain ⟨hminimum, hmaximum⟩ := hclear.bounds hnan
    unfold Within
    rw [hminimum, hmaximum]
    simp

theorem assertions_iff (h : KeywordsWellFormed py schema) (hclear : Clear schema v) :
    Assertions (python py) schema v ↔ Assertions (json py) schema v := by
  have hconst : ∀ c, schema.get "const" = some c → ((python py).equal v c ↔ (json py).equal v c) := by
    intro c hc
    show v.pyEq c = true ↔ v.jsonEq c = true
    rw [hclear.const c hc]
  have henum : ∀ cs, schema.get "enum" = some (.array cs) →
      ∀ c ∈ cs, ((python py).equal v c ↔ (json py).equal v c) := by
    intro cs hcs c hc
    show v.pyEq c = true ↔ v.jsonEq c = true
    rw [hclear.enum cs hcs c hc]
  have hlength : ∀ n : Nat, Within (python py) schema "minLength" "maxLength" (.int n) ↔
      Within (json py) schema "minLength" "maxLength" (.int n) :=
    fun n => within_iff rfl (h.bounds _ (by simp)) (h.bounds _ (by simp))
  have hitems : ∀ n : Nat, Within (python py) schema "minItems" "maxItems" (.int n) ↔
      Within (json py) schema "minItems" "maxItems" (.int n) :=
    fun n => within_iff rfl (h.bounds _ (by simp)) (h.bounds _ (by simp))
  constructor
  · intro hholds
    refine ⟨hholds.type, fun c hc => (hconst c hc).mp (hholds.const c hc), fun cs hcs => ?_,
      hholds.required, fun items hv => (hitems _).mp (hholds.items items hv),
      fun s hv => (hlength _).mp (hholds.length s hv), hholds.pattern,
      fun hv => (range_iff h hclear hv).mp (hholds.range hv)⟩
    obtain ⟨c, hc, hequal⟩ := hholds.enum cs hcs
    exact ⟨c, hc, (henum cs hcs c hc).mp hequal⟩
  · intro hholds
    refine ⟨hholds.type, fun c hc => (hconst c hc).mpr (hholds.const c hc), fun cs hcs => ?_,
      hholds.required, fun items hv => (hitems _).mpr (hholds.items items hv),
      fun s hv => (hlength _).mpr (hholds.length s hv), hholds.pattern,
      fun hv => (range_iff h hclear hv).mpr (hholds.range hv)⟩
    obtain ⟨c, hc, hequal⟩ := hholds.enum cs hcs
    exact ⟨c, hc, (henum cs hcs c hc).mpr hequal⟩

theorem WellFormed.meets (h : WellFormed py schema) {x : Members × Json} (hx : Meets (schema, v) x) :
    WellFormed py x.1 := by
  induction hx with
  | refl => exact h
  | tail _ hstep ih => exact ih.sub hstep.sub

/-- **Exact where nothing is confused.** -/
theorem exactOn_of_clear (h : WellFormed py schema)
    (hclear : ∀ x, Meets (schema, v) x → Clear x.1 x.2) : ExactOn py schema v := by
  refine (exactOn_iff h).mpr (satisfies_congr fun x hx => ?_)
  exact assertions_iff (h.meets hx).keywords (hclear x hx)

end Comparisons

/-! ## Plain values -/

/-- Not a boolean, not a number that equals one, and not NaN. -/
def plainNode (u : Json) : Bool :=
  match u with
  | .bool _ => false
  | u => !isNan u && decide (u.number ≠ Json.pyNumber (.bool false)) &&
      decide (u.number ≠ Json.pyNumber (.bool true))

def plain (v : Json) : Bool := v.everywhere plainNode

theorem plainNode_number {u : Json} (hu : plainNode u = true) (b : Bool) :
    u.number ≠ Json.pyNumber (.bool b) := by
  unfold plainNode at hu
  split at hu
  · cases hu
  · rw [Bool.and_eq_true, Bool.and_eq_true, decide_eq_true_eq, decide_eq_true_eq] at hu
    cases b with
    | false => exact hu.1.2
    | true => exact hu.2

/-- A number and a boolean, as Python compares them. -/
theorem scalarEq_bool {u : Json} (hu : ∀ b, u ≠ .bool b) (b : Bool) :
    Json.scalarEq Json.pyNumber u (.bool b) = decide (u.number = Json.pyNumber (.bool b)) := by
  cases u with
  | int n => exact decide_eq_decide.mpr Option.some_inj.symm
  | float x =>
    cases hx : x.value with
    | none =>
      have hnumber : (Json.float x).number = none := hx
      rw [Json.scalarEq_float_none (Or.inl hx), hnumber]
      exact (decide_eq_false (by rintro ⟨⟩)).symm
    | some y =>
      have hnumber : (Json.float x).number = some y := hx
      rw [Json.scalarEq_float_some hx rfl, hnumber]
      exact decide_eq_decide.mpr Option.some_inj.symm
  | bool b' => exact absurd rfl (hu b')
  | null => rfl
  | string s => rfl
  | array items => rfl
  | object members => rfl

theorem scalarEq_of_plainNode {u : Json} (hu : plainNode u = true) (w : Json) :
    Json.scalarEq Json.pyNumber u w = Json.scalarEq Json.number u w := by
  have hbool : ∀ b, u ≠ .bool b := by
    rintro b rfl
    cases hu
  have hwbool : ∀ b, Json.scalarEq Json.pyNumber u (.bool b) = Json.scalarEq Json.number u (.bool b) := by
    intro b
    rw [scalarEq_bool hbool, decide_eq_false (plainNode_number hu b)]
    cases u with
    | bool b' => exact absurd rfl (hbool b')
    | float x =>
      exact (Json.scalarEq_float_none (Or.inr rfl)).symm
    | int n => rfl
    | null => rfl
    | string s => rfl
    | array items => rfl
    | object members => rfl
  cases u with
  | bool b => exact absurd rfl (hbool b)
  | null => cases w <;> rfl
  | int n => cases w <;> first | exact hwbool _ | rfl
  | float x => cases w <;> first | exact hwbool _ | rfl
  | string s => cases w <;> rfl
  | array items => cases w <;> rfl
  | object members => cases w <;> rfl

theorem pyEq_of_plain {v : Json} (hv : plain v = true) (w : Json) : v.pyEq w = v.jsonEq w :=
  Json.eqWith_congr (fun _ hu w => scalarEq_of_plainNode hu w) hv w

/-- Wherever schemas are applied to a plain value, nothing is confused. -/
theorem clear_of_plain {schema : Members} {v : Json} (hv : plain v = true) : Clear schema v where
  const := fun c _ => pyEq_of_plain hv c
  enum := fun _ _ c _ => pyEq_of_plain hv c
  bounds := by
    intro hnan
    have hroot := Json.everywhere_root hv
    cases v with
    | float x =>
      cases x with
      | nan => cases hroot
      | finite q => cases hnan
      | negativeZero => cases hnan
      | infinity negative => cases hnan
    | null => cases hnan
    | bool b => cases hnan
    | int n => cases hnan
    | string s => cases hnan
    | array items => cases hnan
    | object members => cases hnan

theorem exactOn_of_plain {py : PyRuntime} {schema : Members} {v : Json} (hv : plain v = true)
    (h : WellFormed py schema) : ExactOn py schema v :=
  exactOn_of_clear h fun _ hx => clear_of_plain (hx.everywhere hv)

/-! ## A schema that confuses a boolean with a number -/

/-- A boolean for a number, and a number for a boolean. -/
def swapScalar : Json → Json
  | .bool b => .int (if b then 1 else 0)
  | u =>
    if u.number = Json.pyNumber (.bool false) then .bool false
    else if u.number = Json.pyNumber (.bool true) then .bool true
    else u

def swapped (v : Json) : Json := Json.mapScalars swapScalar v

theorem swapScalar_of_not_bool {u : Json} (hu : ∀ b, u ≠ .bool b) :
    (∃ b, u.number = Json.pyNumber (.bool b) ∧ swapScalar u = .bool b) ∨
      ((∀ b, u.number ≠ Json.pyNumber (.bool b)) ∧ swapScalar u = u) := by
  have hswap : swapScalar u = if u.number = Json.pyNumber (.bool false) then .bool false
      else if u.number = Json.pyNumber (.bool true) then .bool true else u := by
    unfold swapScalar
    split
    · exact absurd rfl (hu _)
    · rfl
  by_cases hfalse : u.number = Json.pyNumber (.bool false)
  · rw [if_pos hfalse] at hswap
    exact Or.inl ⟨false, hfalse, hswap⟩
  by_cases htrue : u.number = Json.pyNumber (.bool true)
  · rw [if_neg hfalse, if_pos htrue] at hswap
    exact Or.inl ⟨true, htrue, hswap⟩
  · rw [if_neg hfalse, if_neg htrue] at hswap
    refine Or.inr ⟨fun b => ?_, hswap⟩
    cases b with
    | false => exact hfalse
    | true => exact htrue

/-- Python does not see the exchange of a scalar other than NaN. -/
theorem pyEq_swapScalar {u : Json} (hscalar : u.isContainer = false) (hnan : isNan u = false) :
    Json.scalarEq Json.pyNumber u (swapScalar u) = true := by
  by_cases hbool : ∃ b, u = .bool b
  · obtain ⟨b, rfl⟩ := hbool
    cases b <;> decide
  · have hne : ∀ b, u ≠ .bool b := fun b heq => hbool ⟨b, heq⟩
    rcases swapScalar_of_not_bool hne with ⟨b, hnumber, hswap⟩ | ⟨_, hswap⟩
    · rw [hswap, scalarEq_bool hne]
      exact decide_eq_true hnumber
    · rw [hswap]
      cases u with
      | null => rfl
      | bool b => exact absurd rfl (hne b)
      | int n => exact decide_eq_true rfl
      | float x =>
        obtain ⟨y, hy⟩ := number_of_hasType (.float x) hnan
        have hvalue : x.value = some y := hy
        rw [Json.scalarEq_float_some hvalue hvalue]
        exact decide_eq_true rfl
      | string s => exact beq_self_eq_true s
      | array items => cases hscalar
      | object members => cases hscalar

/-- JSON sees it, unless there is nothing to exchange. -/
theorem plainNode_of_jsonEq {u : Json} (h : Json.scalarEq Json.number u (swapScalar u) = true) :
    plainNode u = true := by
  by_cases hbool : ∃ b, u = .bool b
  · obtain ⟨b, rfl⟩ := hbool
    cases b <;> exact absurd h (by decide)
  · have hne : ∀ b, u ≠ .bool b := fun b heq => hbool ⟨b, heq⟩
    rcases swapScalar_of_not_bool hne with ⟨b, hnumber, hswap⟩ | ⟨hnumber, hswap⟩
    · rw [hswap] at h
      cases u with
      | bool b' => exact absurd rfl (hne b')
      | int n => cases h
      | float x =>
        rw [Json.scalarEq_float_none (Or.inr rfl)] at h
        cases h
      | null => cases hnumber
      | string s => cases hnumber
      | array items => cases hnumber
      | object members => cases hnumber
    · have hnan : isNan u = false := by
        rw [hswap] at h
        cases u with
        | float x =>
          cases x with
          | nan => cases h
          | finite q => rfl
          | negativeZero => rfl
          | infinity negative => rfl
        | _ => rfl
      unfold plainNode
      split
      · exact absurd rfl (hne _)
      · rw [hnan, decide_eq_true (hnumber false), decide_eq_true (hnumber true)]
        rfl

theorem pyEq_swapped {v : Json} (hv : v.unique = true) (hnan : nanFree v = true) :
    v.pyEq (swapped v) = true := by
  refine (Json.eqWith_mapScalars swapScalar hv).mpr ?_
  refine Json.everywhere_mono (fun u hu => ?_) hnan
  rw [Bool.not_eq_true'] at hu
  cases hcontainer : u.isContainer with
  | true => rfl
  | false => exact pyEq_swapScalar hcontainer hu

theorem nanFree_swapped {v : Json} (hnan : nanFree v = true) : nanFree (swapped v) = true := by
  have hscalar : ∀ u, isNan u = false → u.isContainer = false → nanFree (swapScalar u) = true := by
    intro u hu hcontainer
    by_cases hbool : ∃ b, u = .bool b
    · obtain ⟨b, rfl⟩ := hbool
      rfl
    · rcases swapScalar_of_not_bool fun b heq => hbool ⟨b, heq⟩ with ⟨b, _, hswap⟩ | ⟨_, hswap⟩
      · rw [hswap]
        rfl
      · rw [hswap]
        cases u with
        | array items => cases hcontainer
        | object members => cases hcontainer
        | float x => exact (Bool.not_eq_true' _).mpr hu
        | _ => rfl
  exact Json.everywhere_mapScalars (fun u hu hcontainer =>
    hscalar u ((Bool.not_eq_true' _).mp hu) hcontainer) (fun _ => rfl) (fun _ => rfl) hnan

theorem plain_of_jsonEq_swapped {v : Json} (hv : v.unique = true) (h : v.jsonEq (swapped v) = true) :
    plain v = true := by
  refine Json.everywhere_mono (fun u hu => ?_) ((Json.eqWith_mapScalars swapScalar hv).mp h)
  cases hcontainer : u.isContainer with
  | true =>
    cases u with
    | array items => rfl
    | object members => rfl
    | _ => cases hcontainer
  | false =>
    rw [hcontainer, Bool.false_or] at hu
    exact plainNode_of_jsonEq hu

/-! ## Schemas made of nothing but the keywords below -/

/-- `v` is the configured constant. -/
def constSchema (c : Json) : Members := [(PyStr.ofString "const", c)]

def atLeastZero : Members := [(PyStr.ofString "minimum", .int 0)]

def atMostZero : Members := [(PyStr.ofString "maximum", .int 0)]

/-- Every number down to depth `n` is at least zero or at most zero. -/
def numbersOnly : Nat → Members
  | 0 => [(PyStr.ofString "anyOf", schemas [atLeastZero, atMostZero])]
  | n + 1 =>
    [(PyStr.ofString "anyOf", schemas [atLeastZero, atMostZero]),
      (PyStr.ofString "items", .object (numbersOnly n)),
      (PyStr.ofString "additionalProperties", .object (numbersOnly n))]

section Samples

variable {py : PyRuntime}

theorem keywordsWellFormed_const {c : Json} (hc : nanFree c = true) :
    KeywordsWellFormed py (constSchema c) := by
  constructor <;> simp [constSchema, Members.has, hc]

theorem keywordsWellFormed_numbersOnly (n : Nat) : KeywordsWellFormed py (numbersOnly n) := by
  have hcombinators : ∃ first rest, schemas [atLeastZero, atMostZero] = schemas (first :: rest) :=
    ⟨atLeastZero, [atMostZero], rfl⟩
  cases n with
  | zero => constructor <;> simp [numbersOnly, Members.has, hcombinators]
  | succ n => constructor <;> simp [numbersOnly, Members.has, hcombinators]

/-- A class of well-formed schemas that holds the sub-schemas of its members. -/
theorem wellFormed_of_closed {Q : Members → Prop} (hkeywords : ∀ s, Q s → KeywordsWellFormed py s)
    (hsub : ∀ s t, Q s → SubSchema s t → Q t) {schema : Members} (h : Q schema) :
    WellFormed py schema := by
  intro s hs
  apply hkeywords
  induction hs with
  | refl => exact h
  | tail _ hstep ih => exact hsub _ _ ih hstep

theorem wellFormed_const {c : Json} (hc : nanFree c = true) : WellFormed py (constSchema c) := by
  refine wellFormed_of_closed (Q := fun s => s = constSchema c) ?_ ?_ rfl
  · rintro s rfl
    exact keywordsWellFormed_const hc
  · rintro s t rfl hst
    cases hst with
    | combinator hkey hget _ =>
      simp only [List.mem_cons, List.not_mem_nil, or_false] at hkey
      rcases hkey with rfl | rfl | rfl <;> simp [constSchema] at hget
    | property hdeclared => simp [declared, constSchema] at hdeclared
    | additional hget => simp [constSchema] at hget
    | items hget => simp [constSchema] at hget

/-- The sub-schemas of `numbersOnly`. -/
inductive Bounded : Members → Prop
  | atLeast : Bounded atLeastZero
  | atMost : Bounded atMostZero
  | numbers (n : Nat) : Bounded (numbersOnly n)

theorem Bounded.keywords {s : Members} (h : Bounded s) : KeywordsWellFormed py s := by
  have hzero : ∃ x, (Json.int 0).number = some x := ⟨_, rfl⟩
  cases h with
  | atLeast => constructor <;> simp [atLeastZero, Members.has, hzero]
  | atMost => constructor <;> simp [atMostZero, Members.has, hzero]
  | numbers n => exact keywordsWellFormed_numbersOnly n

theorem Bounded.sub {s t : Members} (h : Bounded s) (ht : SubSchema s t) : Bounded t := by
  have hpair : ∀ {alternatives : List Members},
      some (schemas [atLeastZero, atMostZero]) = some (schemas alternatives) →
        ∀ u ∈ alternatives, Bounded u := by
    intro alternatives heq u hu
    rw [← schemas_injective (Option.some.inj heq)] at hu
    rcases List.mem_cons.mp hu with rfl | hu
    · exact .atLeast
    · rw [List.mem_singleton.mp hu]
      exact .atMost
  cases ht with
  | combinator hkey hget hu =>
    simp only [List.mem_cons, List.not_mem_nil, or_false] at hkey
    cases h with
    | atLeast => rcases hkey with rfl | rfl | rfl <;> simp [atLeastZero] at hget
    | atMost => rcases hkey with rfl | rfl | rfl <;> simp [atMostZero] at hget
    | numbers n =>
      rcases hkey with rfl | rfl | rfl
      · cases n <;> simp [numbersOnly] at hget
      · refine hpair (Eq.trans ?_ hget) _ hu
        cases n <;> simp [numbersOnly]
      · cases n <;> simp [numbersOnly] at hget
  | property hdeclared =>
    cases h with
    | atLeast => simp [declared, atLeastZero] at hdeclared
    | atMost => simp [declared, atMostZero] at hdeclared
    | numbers n => cases n <;> simp [declared, numbersOnly] at hdeclared
  | additional hget =>
    cases h with
    | atLeast => simp [atLeastZero] at hget
    | atMost => simp [atMostZero] at hget
    | numbers n =>
      cases n with
      | zero => simp [numbersOnly] at hget
      | succ n =>
        simp only [numbersOnly, Members.get_cons, String.reduceEq, if_false, if_true] at hget
        rw [← Json.object.inj (Option.some.inj hget)]
        exact .numbers n
  | items hget =>
    cases h with
    | atLeast => simp [atLeastZero] at hget
    | atMost => simp [atMostZero] at hget
    | numbers n =>
      cases n with
      | zero => simp [numbersOnly] at hget
      | succ n =>
        simp only [numbersOnly, Members.get_cons, String.reduceEq, if_false, if_true] at hget
        rw [← Json.object.inj (Option.some.inj hget)]
        exact .numbers n

theorem wellFormed_numbersOnly (n : Nat) : WellFormed py (numbersOnly n) :=
  wellFormed_of_closed (fun _ => Bounded.keywords) (fun _ _ => Bounded.sub) (.numbers n)

/-! ### What they mean -/

theorem satisfies_const {M : Meaning} {c v : Json} : Satisfies M (constSchema c) v ↔ M.equal v c := by
  rw [satisfies_iff]
  constructor
  · rintro ⟨hassertions, _⟩
    exact hassertions.const c (by simp [constSchema])
  · intro hequal
    refine ⟨?_, ?_⟩
    · constructor <;> simp [constSchema, Within, hequal]
    · constructor <;> simp [constSchema, declared]

theorem satisfies_atLeastZero {M : Meaning} {v : Json} :
    Satisfies M atLeastZero v ↔ (HasType .number v → M.atLeast (.int 0) v) := by
  rw [satisfies_iff]
  constructor
  · rintro ⟨hassertions, _⟩ hv
    exact (hassertions.range hv).1 _ (by simp [atLeastZero])
  · intro hatLeast
    refine ⟨?_, ?_⟩
    · constructor <;> simp [atLeastZero, Within]
      exact hatLeast
    · constructor <;> simp [atLeastZero, declared]

theorem satisfies_atMostZero {M : Meaning} {v : Json} :
    Satisfies M atMostZero v ↔ (HasType .number v → M.atMost (.int 0) v) := by
  rw [satisfies_iff]
  constructor
  · rintro ⟨hassertions, _⟩ hv
    exact (hassertions.range hv).2 _ (by simp [atMostZero])
  · intro hatMost
    refine ⟨?_, ?_⟩
    · constructor <;> simp [atMostZero, Within]
      exact hatMost
    · constructor <;> simp [atMostZero, declared]

/-- At the root the number is on one side of zero; below it, one level less. -/
theorem satisfies_numbersOnly {M : Meaning} {n : Nat} {v : Json} :
    Satisfies M (numbersOnly n) v ↔
      (HasType .number v → M.atLeast (.int 0) v ∨ M.atMost (.int 0) v) ∧
      ∀ m, n = m + 1 →
        (∀ items, v = .array items → ∀ x ∈ items, Satisfies M (numbersOnly m) x) ∧
          ∀ members, v = .object members → ∀ p ∈ members, Satisfies M (numbersOnly m) p.2 := by
  have hroot : (∃ s ∈ [atLeastZero, atMostZero], Satisfies M s v) ↔
      (HasType .number v → M.atLeast (.int 0) v ∨ M.atMost (.int 0) v) := by
    simp only [List.mem_cons, List.not_mem_nil, or_false, exists_eq_or_imp, exists_eq_left,
      satisfies_atLeastZero, satisfies_atMostZero]
    by_cases hv : HasType .number v
    · simp [hv]
    · simp [hv]
  have hanyOf : (numbersOnly n).get "anyOf" = some (schemas [atLeastZero, atMostZero]) := by
    cases n <;> simp [numbersOnly]
  have hassertions : Assertions M (numbersOnly n) v := by
    cases n with
    | zero => constructor <;> simp [numbersOnly, Within]
    | succ n => constructor <;> simp [numbersOnly, Within]
  have hdeclared : ∀ name, declared (numbersOnly n) name = none := by
    intro name
    cases n <;> simp [numbersOnly, declared]
  rw [satisfies_iff]
  constructor
  · rintro ⟨_, hchildren⟩
    refine ⟨hroot.mp (hchildren.anyOf _ hanyOf), ?_⟩
    rintro m rfl
    constructor
    · rintro items rfl x hx
      exact hchildren.items items rfl _ (by simp [numbersOnly]) x hx
    · rintro members rfl p hp
      exact hchildren.additional members rfl p hp (hdeclared _) _ (by simp [numbersOnly])
  · rintro ⟨hnumber, hbelow⟩
    refine ⟨hassertions, ?_, ?_, ?_, ?_, ?_, ?_, ?_⟩
    · intro alternatives hget
      cases n <;> simp [numbersOnly] at hget
    · intro alternatives hget
      rw [hanyOf] at hget
      rw [← schemas_injective (Option.some.inj hget)]
      exact hroot.mpr hnumber
    · intro alternatives hget
      cases n <;> simp [numbersOnly] at hget
    · intro members _ m _ s hs
      rw [hdeclared] at hs
      cases hs
    · intro members _ m _ _
      cases n <;> simp [numbersOnly]
    · rintro members rfl p hp _ s hs
      cases n with
      | zero => simp [numbersOnly] at hs
      | succ n =>
        simp only [numbersOnly, Members.get_cons, String.reduceEq, if_false, if_true] at hs
        rw [← Json.object.inj (Option.some.inj hs)]
        exact (hbelow n rfl).2 members rfl p hp
    · rintro items rfl s hs x hx
      cases n with
      | zero => simp [numbersOnly] at hs
      | succ n =>
        simp only [numbersOnly, Members.get_cons, String.reduceEq, if_false, if_true] at hs
        rw [← Json.object.inj (Option.some.inj hs)]
        exact (hbelow n rfl).1 items rfl x hx

theorem atLeast_or_atMost (v : Json) :
    (python py).atLeast (.int 0) v ∨ (python py).atMost (.int 0) v := by
  show less v (.int 0) = false ∨ less (.int 0) v = false
  unfold less
  cases v.number with
  | none => exact Or.inl rfl
  | some x =>
    simp only [Json.number, decide_eq_false_iff_not, not_lt]
    exact le_total _ _

/-- Python finds every number on one side of zero: of a NaN it finds nothing wrong on either. -/
theorem satisfies_python_numbersOnly (n : Nat) (v : Json) :
    Satisfies (python py) (numbersOnly n) v := by
  induction n generalizing v with
  | zero =>
    refine satisfies_numbersOnly.mpr ⟨fun _ => ?_, fun m habs => by cases habs⟩
    exact atLeast_or_atMost v
  | succ n ih =>
    refine satisfies_numbersOnly.mpr ⟨fun _ => atLeast_or_atMost v, ?_⟩
    intro m hm
    obtain rfl := Nat.succ.inj hm
    exact ⟨fun _ _ x _ => ih x, fun _ _ p _ => ih p.2⟩

/-- A NaN is on neither side of anything. -/
theorem nanFree_of_satisfies_json {n : Nat} {v : Json} (hdepth : v.depth ≤ n)
    (h : Satisfies (json py) (numbersOnly n) v) : nanFree v = true := by
  induction v generalizing n with
  | float x =>
    cases x with
    | nan =>
      rcases (satisfies_numbersOnly.mp h).1 (.float .nan) with ⟨x, y, _, habs, _⟩ | ⟨x, y, habs, _⟩
      · cases habs
      · cases habs
    | finite q => rfl
    | negativeZero => rfl
    | infinity negative => rfl
  | array items ih =>
    cases n with
    | zero => cases hdepth
    | succ n =>
      refine Json.everywhere_array.mpr ⟨rfl, fun x hx => ?_⟩
      have hless : x.depth ≤ n := Nat.le_of_lt_succ ((Json.depth_lt_array hx).trans_le hdepth)
      exact ih x hx hless (((satisfies_numbersOnly.mp h).2 n rfl).1 items rfl x hx)
  | object members ih =>
    cases n with
    | zero => cases hdepth
    | succ n =>
      refine Json.everywhere_object.mpr ⟨rfl, fun p hp => ?_⟩
      have hless : p.2.depth ≤ n := Nat.le_of_lt_succ ((Json.depth_lt_object hp).trans_le hdepth)
      exact ih p hp hless (((satisfies_numbersOnly.mp h).2 n rfl).2 members rfl p hp)
  | null => rfl
  | bool b => rfl
  | int n => rfl
  | string s => rfl

end Samples

/-! ## Exactly the plain values -/

/-- `\x7b"limit": 7, "name": "x"\x7d`. -/
def plainArguments : Json :=
  .object [(PyStr.ofString "limit", .int 7), (PyStr.ofString "name", .string (PyStr.ofString "x"))]

end FinancialRag.Mcp
