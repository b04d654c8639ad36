/-
  What `_validate` decides, and where that differs from JSON Schema.

  On a well-formed schema the validator always comes to a verdict, and it is `Satisfies (python py)`: the
  meaning of the keywords over Python's `==`, `<` and `>` (`validate_decides`).  JSON Schema is
  `Satisfies (json py)`, over JSON's.  The two part where a boolean meets a number, since `True == 1`, and
  where a NaN meets a bound, since no comparison with a NaN holds.
-/
import FinancialRag.Lib.JsonSchema
import FinancialRag.Mcp.Schema

set_option linter.unusedVariables false

namespace FinancialRag.Mcp

open JsonSchema

/-- The keywords over Python's comparisons. -/
def python (py : PyRuntime) : Meaning where
  equal v w := v.pyEq w = true
  atLeast bound v := less v bound = false
  atMost bound v := less bound v = false
  found pattern text := py.search pattern text = some true

/-- `v ≤ w`, both of them numbers. -/
def AtMost (v w : Json) : Prop := ∃ x y, v.number = some x ∧ w.number = some y ∧ x ≤ y

/-- The keywords as JSON Schema has them. -/
def json (py : PyRuntime) : Meaning where
  equal v w := v.jsonEq w = true
  atLeast bound v := AtMost bound v
  atMost bound v := AtMost v bound
  found pattern text := py.search pattern text = some true

/-! ## Well-formed schemas -/

/-- No NaN anywhere. -/
def isNan : Json → Bool
  | .float .nan => true
  | _ => false

def nanFree (v : Json) : Bool := v.everywhere fun u => !isNan u

/-- The keywords of one schema have values of the right kinds; sub-schemas are objects. -/
structure KeywordsWellFormed (py : PyRuntime) (schema : Members) : Prop where
  noRef : schema.has "$ref" = false
  type : ∀ t, schema.get "type" = some t → ∃ type : SchemaType, t = .string (PyStr.ofString type.name)
  combinators : ∀ key ∈ ["allOf", "anyOf", "oneOf"], ∀ c, schema.get key = some c →
    ∃ first rest, c = schemas (first :: rest)
  const : ∀ c, schema.get "const" = some c → nanFree c = true
  enum : ∀ e, schema.get "enum" = some e → ∃ items, e = .array items ∧ ∀ c ∈ items, nanFree c = true
  bounds : ∀ key ∈ ["minimum", "maximum", "minLength", "maxLength", "minItems", "maxItems"],
    ∀ bound, schema.get key = some bound → ∃ x, bound.number = some x
  pattern : ∀ p, schema.get "pattern" = some p →
    ∃ regex, p = .string regex ∧ ∀ text, (py.search regex text).isSome = true
  properties : ∀ p, schema.get "properties" = some p →
    ∃ properties : Members, p = .object properties ∧ ∀ m ∈ properties, ∃ s, m.2 = .object s
  required : ∀ r, schema.get "required" = some r → ∃ names, r = .array (List.map .string names)
  additional : ∀ a, schema.get "additionalProperties" = some a →
    (∃ b, a = .bool b) ∨ ∃ s, a = .object s
  items : ∀ i, schema.get "items" = some i → ∃ s, i = .object s

/-- A schema over the supported keywords, at every depth. -/
def WellFormed (py : PyRuntime) (schema : Members) : Prop :=
  ∀ s, Relation.ReflTransGen SubSchema schema s → KeywordsWellFormed py s

theorem WellFormed.keywords {py : PyRuntime} {schema : Members} (h : WellFormed py schema) :
    KeywordsWellFormed py schema :=
  h schema .refl

theorem WellFormed.sub {py : PyRuntime} {schema s : Members} (h : WellFormed py schema)
    (hs : SubSchema schema s) : WellFormed py s :=
  fun t ht => h t (.head hs ht)

/-! ## Verdicts -/

/-- `r` accepts if `P` holds, and rejects with a validation error otherwise; it raises nothing else. -/
def Decides (r : Except Raised Unit) (P : Prop) : Prop :=
  (r = .ok () ∧ P) ∨ ((∃ message, r = schemaValidationError message) ∧ ¬ P)

namespace Decides

variable {r : Except Raised Unit} {k : Unit → Except Raised Unit} {P Q : Prop} {α : Type}

theorem accept (h : P) : Decides (.ok ()) P := Or.inl ⟨rfl, h⟩

theorem reject (message : PyStr) (h : ¬ P) : Decides (schemaValidationError message) P :=
  Or.inr ⟨⟨message, rfl⟩, h⟩

theorem congr (h : Decides r P) (hPQ : P ↔ Q) : Decides r Q := by
  rcases h with ⟨hok, hP⟩ | ⟨herror, hP⟩
  · exact Or.inl ⟨hok, hPQ.mp hP⟩
  · exact Or.inr ⟨herror, fun hQ => hP (hPQ.mpr hQ)⟩

theorem accepts_iff (h : Decides r P) : r = .ok () ↔ P := by
  rcases h with ⟨hok, hP⟩ | ⟨⟨message, herror⟩, hP⟩
  · exact ⟨fun _ => hP, fun _ => hok⟩
  · constructor
    · intro habs
      rw [herror] at habs
      cases habs
    · intro habs
      exact absurd habs hP

/-- One check after another. -/
theorem bind (h : Decides r P) (hk : P → Decides (k ()) Q) : Decides (r >>= k) (P ∧ Q) := by
  rcases h with ⟨rfl, hP⟩ | ⟨⟨message, rfl⟩, hP⟩
  · exact (hk hP).congr ⟨fun hQ => ⟨hP, hQ⟩, And.right⟩
  · exact Or.inr ⟨⟨message, rfl⟩, fun hboth => hP hboth.1⟩

/-- A check of every element of a list. -/
theorem forM {f : α → Except Raised Unit} {p : α → Prop} {xs : List α}
    (h : ∀ x ∈ xs, Decides (f x) (p x)) : Decides (xs.forM f) (∀ x ∈ xs, p x) := by
  induction xs with
  | nil => exact accept fun x habs => absurd habs List.not_mem_nil
  | cons x xs ih =>
    have hrest := ih fun y hy => h y (List.mem_cons_of_mem _ hy)
    exact ((h x List.mem_cons_self).bind fun _ => hrest).congr List.forall_mem_cons.symm

end Decides

section Validator

variable {py : PyRuntime} {validate : Validate} {sat : Members → Json → Prop} {schema : Members} {v : Json}
  {path : PyStr}

/-! ## One keyword at a time -/

theorem typeTest_spec (type : SchemaType) :
    ∃ test, typeTest (PyStr.ofString type.name) = some test ∧ ∀ v, test v = true ↔ HasType type v := by
  cases type
  all_goals
    refine ⟨_, rfl, fun v => ⟨fun htest => ?_, fun htype => ?_⟩⟩
    · cases v <;> first | (cases htest; done) | constructor
    · cases htype <;> rfl

theorem name_injective : Function.Injective SchemaType.name := by
  intro a b h
  cases a <;> cases b <;> first | rfl | exact absurd h (by decide)

theorem validateType_decides (h : KeywordsWellFormed py schema) :
    Decides (validateType py v schema path)
      (∀ type : SchemaType, schema.get "type" = some (.string (PyStr.ofString type.name)) →
        HasType type v) := by
  unfold validateType
  cases hget : schema.get "type" with
  | none => exact .accept fun type habs => by cases habs
  | some t =>
    obtain ⟨type, rfl⟩ := h.type t hget
    obtain ⟨test, htest, hspec⟩ := typeTest_spec type
    have hiff : (∀ type' : SchemaType, some (Json.string (PyStr.ofString type.name)) =
        some (.string (PyStr.ofString type'.name)) → HasType type' v) ↔ HasType type v := by
      constructor
      · intro hall
        exact hall type rfl
      · intro htype type' heq
        have hsame : PyStr.ofString type.name = PyStr.ofString type'.name :=
          Json.string.inj (Option.some.inj heq)
        rwa [← name_injective (PyStr.ofString_injective hsame)]
    simp only [htest, Option.map_some]
    split
    · rename_i hv
      exact .accept (hiff.mpr ((hspec v).mp hv))
    · rename_i hv
      exact .reject _ fun habs => hv ((hspec v).mpr (hiff.mp habs))

theorem validateConst_decides :
    Decides (validateConst v schema path) (∀ c, schema.get "const" = some c → (python py).equal v c) := by
  unfold validateConst
  cases hget : schema.get "const" with
  | none => exact .accept fun c habs => by cases habs
  | some constant =>
    simp only
    split
    · rename_i heq
      refine .accept fun c hc => ?_
      rw [← Option.some.inj hc]
      exact heq
    · rename_i heq
      exact .reject _ fun habs => heq (habs constant rfl)

theorem validateEnum_decides (h : KeywordsWellFormed py schema) :
    Decides (validateEnum v schema path)
      (∀ cs, schema.get "enum" = some (.array cs) → ∃ c ∈ cs, (python py).equal v c) := by
  unfold validateEnum
  cases hget : schema.get "enum" with
  | none => exact .accept fun cs habs => by cases habs
  | some e =>
    obtain ⟨items, rfl, _⟩ := h.enum e hget
    have hiff : (∀ cs, some (Json.array items) = some (.array cs) → ∃ c ∈ cs, (python py).equal v c) ↔
        (items.any fun item => v.pyEq item) = true := by
      rw [List.any_eq_true]
      constructor
      · intro hall
        exact hall items rfl
      · intro hany cs hcs
        rw [← Json.array.inj (Option.some.inj hcs)]
        exact hany
    simp only
    split
    · rename_i hany
      exact .accept (hiff.mpr hany)
    · rename_i hany
      exact .reject _ fun habs => hany (hiff.mp habs)

/-- A bound that is given is a number. -/
theorem isNumber_of_number {bound : Json} {x : Number} (h : bound.number = some x) :
    isNumber bound = true := by
  cases bound with
  | int n => rfl
  | float x => rfl
  | null => cases h
  | bool b => cases h
  | string s => cases h
  | array items => cases h
  | object members => cases h

theorem validateOneBound_decides {key : String} {violates : Json → Bool} {message : String}
    (h : ∀ bound, schema.get key = some bound → ∃ x, bound.number = some x) :
    Decides (validateOneBound py schema key path violates message)
      (∀ bound, schema.get key = some bound → violates bound = false) := by
  unfold validateOneBound
  cases hget : schema.get key with
  | none => exact .accept fun bound habs => by cases habs
  | some bound =>
    obtain ⟨x, hx⟩ := h bound hget
    simp only [isNumber_of_number hx, Bool.not_true, Bool.false_eq_true, if_false]
    cases hviolates : violates bound with
    | true =>
      refine .reject _ fun habs => ?_
      rw [habs bound rfl] at hviolates
      cases hviolates
    | false =>
      refine .accept fun bound' hbound' => ?_
      rw [← Option.some.inj hbound']
      exact hviolates

theorem validateBound_decides {lower upper : String}
    (hlower : ∀ bound, schema.get lower = some bound → ∃ x, bound.number = some x)
    (hupper : ∀ bound, schema.get upper = some bound → ∃ x, bound.number = some x) :
    Decides (validateBound py v schema lower upper path) (Within (python py) schema lower upper v) :=
  (validateOneBound_decides hlower).bind fun _ => validateOneBound_decides hupper

theorem validateString_decides (h : KeywordsWellFormed py schema) (text : PyStr) :
    Decides (validateString py text schema path)
      (Within (python py) schema "minLength" "maxLength" (.int text.length) ∧
        ∀ pattern, schema.get "pattern" = some (.string pattern) → (python py).found pattern text) := by
  unfold validateString
  refine (validateBound_decides (h.bounds _ (by simp)) (h.bounds _ (by simp))).bind fun _ => ?_
  cases hget : schema.get "pattern" with
  | none => exact .accept fun pattern habs => by cases habs
  | some p =>
    obtain ⟨regex, rfl, hvalid⟩ := h.pattern p hget
    have hiff : (∀ pattern, some (Json.string regex) = some (.string pattern) →
        (python py).found pattern text) ↔ py.search regex text = some true := by
      constructor
      · intro hall
        exact hall regex rfl
      · intro hfound pattern hpattern
        rw [← Json.string.inj (Option.some.inj hpattern)]
        exact hfound
    refine Decides.congr ?_ hiff.symm
    cases hsearch : py.search regex text with
    | none =>
      have habs := hvalid text
      rw [hsearch] at habs
      cases habs
    | some found =>
      cases found with
      | true =>
        simp only [hsearch]
        exact .accept trivial
      | false =>
        simp only [hsearch]
        exact .reject _ fun habs => by cases habs

/-- The calls that `_validate` makes come to the verdicts `sat`. -/
abbrev Called (validate : Validate) (sat : Members → Json → Prop) (schema : Members) (v : Json) : Prop :=
  ∀ s u path, Compares (schema, v) (s, u) → Decides (validate u s path) (sat s u)

theorem validateItems_decides {itemSchema : Members} {items : List Json}
    (h : ∀ x ∈ items, ∀ path, Decides (validate x itemSchema path) (sat itemSchema x)) (index : Nat) :
    Decides (validateItems validate itemSchema path index items) (∀ x ∈ items, sat itemSchema x) := by
  induction items generalizing index with
  | nil => exact .accept fun x habs => absurd habs List.not_mem_nil
  | cons item rest ih =>
    have hrest := ih (fun x hx => h x (List.mem_cons_of_mem _ hx)) (index + 1)
    exact ((h item List.mem_cons_self _).bind fun _ => hrest).congr List.forall_mem_cons.symm

theorem validateArray_decides (h : KeywordsWellFormed py schema) {items : List Json}
    (hcalled : Called validate sat schema (.array items)) :
    Decides (validateArray py validate items schema path)
      (Within (python py) schema "minItems" "maxItems" (.int items.length) ∧
        ∀ s, schema.get "items" = some (.object s) → ∀ x ∈ items, sat s x) := by
  unfold validateArray
  refine (validateBound_decides (h.bounds _ (by simp)) (h.bounds _ (by simp))).bind fun _ => ?_
  cases hget : schema.get "items" with
  | none => exact .accept fun s habs => by cases habs
  | some i =>
    obtain ⟨itemSchema, rfl⟩ := h.items i hget
    have hitems : Decides (validateItems validate itemSchema path 0 items) (∀ x ∈ items, sat itemSchema x) :=
      validateItems_decides (fun x hx path => hcalled itemSchema x path (.items hx hget)) 0
    refine hitems.congr ⟨fun hall s hs => ?_, fun hall => hall itemSchema rfl⟩
    rw [← Json.object.inj (Option.some.inj hs)]
    exact hall

theorem propertiesOf_eq (path : PyStr) (h : KeywordsWellFormed py schema) :
    ∃ properties, propertiesOf schema path = .ok properties ∧
      (∀ name, properties.lookup name = declared schema name) ∧
        ∀ name child, properties.lookup name = some child → ∃ s, child = .object s := by
  unfold propertiesOf declared
  cases hget : schema.get "properties" with
  | none => exact ⟨[], rfl, fun name => rfl, fun name child habs => by cases habs⟩
  | some p =>
    obtain ⟨properties, rfl, hobjects⟩ := h.properties p hget
    refine ⟨properties, rfl, fun name => rfl, fun name child hchild => ?_⟩
    exact hobjects _ (Json.mem_of_lookup hchild)

theorem mapM_asString (names : List PyStr) : (names.map Json.string).mapM asString = some names := by
  induction names with
  | nil => rfl
  | cons name names ih =>
    rw [List.map_cons, List.mapM_cons, ih]
    rfl

theorem requiredOf_eq (path : PyStr) (h : KeywordsWellFormed py schema) :
    ∃ names, requiredOf schema path = .ok names ∧
      (∀ names', schema.get "required" = some (.array (List.map .string names')) → names' = names) ∧
        (names ≠ [] → schema.get "required" = some (.array (List.map .string names))) := by
  unfold requiredOf
  cases hget : schema.get "required" with
  | none => exact ⟨[], rfl, fun names' habs => (by cases habs), fun habs => absurd rfl habs⟩
  | some r =>
    obtain ⟨names, rfl⟩ := h.required r hget
    refine ⟨names, ?_, fun names' hnames' => ?_, fun _ => rfl⟩
    · simp only [mapM_asString]
    · have hmap := Json.array.inj (Option.some.inj hnames')
      exact (List.map_injective_iff.mpr (fun _ _ => Json.string.inj) hmap).symm

/-- What is asked of one member. -/
def MemberHolds (sat : Members → Json → Prop) (schema : Members) (m : PyStr × Json) : Prop :=
  (∀ s, declared schema m.1 = some (.object s) → sat s m.2) ∧
    (declared schema m.1 = none → schema.get "additionalProperties" ≠ some (.bool false)) ∧
      (declared schema m.1 = none → ∀ s, schema.get "additionalProperties" = some (.object s) → sat s m.2)

theorem validateMember_decides (h : KeywordsWellFormed py schema) {members properties : Members}
    (hcalled : Called validate sat schema (.object members))
    (hlookup : ∀ name, properties.lookup name = declared schema name)
    (hobjects : ∀ name child, properties.lookup name = some child → ∃ s, child = .object s)
    {m : PyStr × Json} (hm : m ∈ members) :
    Decides (validateMember py validate properties schema path m) (MemberHolds sat schema m) := by
  unfold validateMember MemberHolds
  cases hproperty : properties.lookup m.1 with
  | some child =>
    obtain ⟨s, rfl⟩ := hobjects _ _ hproperty
    rw [hlookup] at hproperty
    rw [hproperty]
    refine (hcalled s m.2 _ (.property hm hproperty)).congr ?_
    constructor
    · intro hsat
      refine ⟨fun s' hs' => ?_, fun habs => (by cases habs), fun habs => (by cases habs)⟩
      rw [← Json.object.inj (Option.some.inj hs')]
      exact hsat
    · intro hholds
      exact hholds.1 s rfl
  | none =>
    rw [hlookup] at hproperty
    rw [hproperty]
    have hnone : ∀ s, (none : Option Json) = some (.object s) → sat s m.2 := fun s habs => by cases habs
    cases hget : schema.get "additionalProperties" with
    | none =>
      refine .accept ⟨hnone, fun _ habs => ?_, fun _ s habs => ?_⟩
      · cases habs
      · cases habs
    | some a =>
      rcases h.additional a hget with ⟨b, rfl⟩ | ⟨s, rfl⟩
      · cases b with
        | false => exact .reject _ fun habs => habs.2.1 rfl rfl
        | true =>
          refine .accept ⟨hnone, fun _ habs => ?_, fun _ s habs => ?_⟩
          · cases habs
          · cases habs
      · refine (hcalled s m.2 _ (.additional hm hproperty hget)).congr ?_
        constructor
        · intro hsat
          refine ⟨hnone, fun _ habs => (by cases habs), fun _ s' hs' => ?_⟩
          rw [← Json.object.inj (Option.some.inj hs')]
          exact hsat
        · intro hholds
          exact hholds.2.2 rfl s rfl

theorem validateObject_decides (h : KeywordsWellFormed py schema) {members : Members}
    (hcalled : Called validate sat schema (.object members)) :
    Decides (validateObject py validate members schema path)
      ((∀ names, schema.get "required" = some (.array (List.map .string names)) →
          ∀ name ∈ names, ∃ x, members.lookup name = some x) ∧
        ∀ m ∈ members, MemberHolds sat schema m) := by
  obtain ⟨properties, hproperties, hlookup, hobjects⟩ := propertiesOf_eq path h
  obtain ⟨names, hrequired, honly, hgiven⟩ := requiredOf_eq path h
  unfold validateObject
  rw [hproperties, hrequired]
  have hmembers : Decides (members.forM (validateMember py validate properties schema path))
      (∀ m ∈ members, MemberHolds sat schema m) :=
    Decides.forM fun m hm => validateMember_decides h hcalled hlookup hobjects hm
  refine Decides.bind (Decides.congr (P := ∀ name ∈ names, ∃ x, members.lookup name = some x) ?_ ?_)
    fun _ => hmembers
  · refine Decides.forM fun name hname => ?_
    cases hmember : members.lookup name with
    | some x => exact .accept ⟨x, rfl⟩
    | none => exact .reject _ fun ⟨x, habs⟩ => by cases habs
  · constructor
    · intro hall names' hnames' name hname
      rw [honly names' hnames'] at hname
      exact hall name hname
    · intro hall name hname
      exact hall names (hgiven (List.ne_nil_of_mem hname)) name hname

/-! ## The combinators -/

theorem schemas_injective : Function.Injective schemas := by
  intro a b h
  exact List.map_injective_iff.mpr (fun _ _ => Json.object.inj) (Json.array.inj h)

theorem mapM_asMapping (alternatives : List Members) :
    (alternatives.map Json.object).mapM asMapping = some alternatives := by
  induction alternatives with
  | nil => rfl
  | cons s alternatives ih =>
    rw [List.map_cons, List.mapM_cons, ih]
    rfl

/-- The loop counts the alternatives that the value satisfies. -/
theorem countMatches_spec {P : Members → Prop} {alternatives : List Members}
    (h : ∀ s ∈ alternatives, Decides (validate v s path) (P s)) :
    ∃ n, countMatches validate v path alternatives = .ok n ∧
      (n = 0 ↔ ¬ ∃ s ∈ alternatives, P s) ∧ (n = 1 ↔ ExactlyOne P alternatives) := by
  induction alternatives with
  | nil =>
    refine ⟨0, rfl, by simp, ?_⟩
    exact ⟨fun habs => (by cases habs), fun habs => absurd habs not_exactlyOne_nil⟩
  | cons s alternatives ih =>
    obtain ⟨n, hn, hzero, hone⟩ := ih fun t ht => h t (List.mem_cons_of_mem _ ht)
    have hexists : (∃ t ∈ s :: alternatives, P t) ↔ P s ∨ ∃ t ∈ alternatives, P t := by simp
    rw [exactlyOne_cons, hexists, countMatches]
    rcases h s List.mem_cons_self with ⟨hok, hP⟩ | ⟨⟨message, herror⟩, hP⟩
    · refine ⟨n + 1, ?_, ?_, ?_⟩
      · rw [hok, hn]
        rfl
      · simp [hP]
      · simp only [hP, not_true_eq_false, false_and, or_false, true_and, Nat.add_eq_right]
        rw [hzero]
        simp only [not_exists, not_and]
    · refine ⟨n, ?_, ?_, ?_⟩
      · rw [herror]
        exact hn
      · rw [hzero]
        simp [hP]
      · rw [hone]
        simp [hP]

/-- What one combinator asks. -/
def CombinatorHolds (sat : Members → Json → Prop) (schema : Members) (v : Json) (key : String) : Prop :=
  ∀ alternatives, schema.get key = some (schemas alternatives) →
    if key = "allOf" then ∀ s ∈ alternatives, sat s v
    else if key = "anyOf" then ∃ s ∈ alternatives, sat s v
    else ExactlyOne (fun s => sat s v) alternatives

theorem validateCombinator_decides (h : KeywordsWellFormed py schema)
    (hcalled : Called validate sat schema v) {key : String} (hkey : key ∈ ["allOf", "anyOf", "oneOf"]) :
    Decides (validateCombinator validate v schema path key) (CombinatorHolds sat schema v key) := by
  unfold validateCombinator CombinatorHolds
  cases hget : schema.get key with
  | none => exact .accept fun alternatives habs => by cases habs
  | some c =>
    obtain ⟨first, rest, rfl⟩ := h.combinators key hkey c hget
    have hsub : ∀ s ∈ first :: rest, Decides (validate v s path) (sat s v) :=
      fun s hs => hcalled s v path (.combinator hkey hget hs)
    have hiff : ∀ {Q : List Members → Prop},
        (∀ alternatives, some (schemas (first :: rest)) = some (schemas alternatives) → Q alternatives) ↔
          Q (first :: rest) := by
      intro Q
      constructor
      · intro hall
        exact hall _ rfl
      · intro hQ alternatives heq
        rwa [← schemas_injective (Option.some.inj heq)]
    have hmapM : (Json.object first :: rest.map .object).mapM asMapping = some (first :: rest) :=
      mapM_asMapping (first :: rest)
    refine Decides.congr ?_ hiff.symm
    simp only [schemas, List.map_cons, hmapM]
    obtain ⟨n, hn, hzero, hone⟩ := countMatches_spec hsub
    rcases List.mem_cons.mp hkey with rfl | hkey
    · exact Decides.forM hsub
    rcases List.mem_cons.mp hkey with rfl | hkey
    · simp only [hn]
      by_cases hnone : n = 0
      · have hreject : ¬ ∃ s ∈ first :: rest, sat s v := hzero.mp hnone
        subst hnone
        exact .reject _ hreject
      · have haccept : ∃ s ∈ first :: rest, sat s v := by
          by_contra habs
          exact hnone (hzero.mpr habs)
        cases n with
        | zero => exact absurd rfl hnone
        | succ n => exact .accept haccept
    · obtain rfl := List.mem_singleton.mp hkey
      simp only [hn]
      by_cases hsingle : n = 1
      · have haccept := hone.mp hsingle
        subst hsingle
        exact .accept haccept
      · have hreject : ¬ ExactlyOne (fun s => sat s v) (first :: rest) := fun habs => hsingle (hone.mpr habs)
        refine Decides.congr ?_ Iff.rfl
        cases n with
        | zero => exact .reject _ hreject
        | succ n =>
          cases n with
          | zero => exact absurd rfl hsingle
          | succ n => exact .reject _ hreject

/-! ## The whole validator -/

/-- What is asked of a value beyond type, constants and combinators. -/
structure KindHolds (py : PyRuntime) (sat : Members → Json → Prop) (schema : Members) (v : Json) : Prop where
  object : ∀ members, v = .object members →
    (∀ names, schema.get "required" = some (.array (List.map .string names)) →
      ∀ name ∈ names, ∃ x, members.lookup name = some x) ∧ ∀ m ∈ members, MemberHolds sat schema m
  array : ∀ items, v = .array items →
    Within (python py) schema "minItems" "maxItems" (.int items.length) ∧
      ∀ s, schema.get "items" = some (.object s) → ∀ x ∈ items, sat s x
  string : ∀ text, v = .string text →
    Within (python py) schema "minLength" "maxLength" (.int text.length) ∧
      ∀ pattern, schema.get "pattern" = some (.string pattern) → (python py).found pattern text
  range : HasType .number v → Within (python py) schema "minimum" "maximum" v

theorem validateByKind_decides (h : KeywordsWellFormed py schema) (hcalled : Called validate sat schema v) :
    Decides (validateByKind py validate v schema path) (KindHolds py sat schema v) := by
  have hrange : ∀ w : Json, Decides (validateBound py w schema "minimum" "maximum" path)
      (Within (python py) schema "minimum" "maximum" w) :=
    fun w => validateBound_decides (h.bounds _ (by simp)) (h.bounds _ (by simp))
  have hnumber : ∀ {v : Json}, HasType .number v → (∃ n, v = .int n) ∨ ∃ x, v = .float x := by
    intro v hv
    cases hv with
    | int n => exact Or.inl ⟨n, rfl⟩
    | float x => exact Or.inr ⟨x, rfl⟩
  cases v with
  | object members =>
    refine (validateObject_decides h hcalled).congr ⟨fun hholds => ?_, fun hholds => hholds.object _ rfl⟩
    refine ⟨?_, fun _ habs => (by cases habs), fun _ habs => (by cases habs), fun habs => (by cases habs)⟩
    rintro members' heq
    rw [← Json.object.inj heq]
    exact hholds
  | array items =>
    refine (validateArray_decides h hcalled).congr ⟨fun hholds => ?_, fun hholds => hholds.array _ rfl⟩
    refine ⟨fun _ habs => (by cases habs), ?_, fun _ habs => (by cases habs), fun habs => (by cases habs)⟩
    rintro items' heq
    rw [← Json.array.inj heq]
    exact hholds
  | string text =>
    refine (validateString_decides h text).congr ⟨fun hholds => ?_, fun hholds => hholds.string _ rfl⟩
    refine ⟨fun _ habs => (by cases habs), fun _ habs => (by cases habs), ?_, fun habs => (by cases habs)⟩
    rintro text' heq
    rw [← Json.string.inj heq]
    exact hholds
  | int n =>
    refine (hrange (.int n)).congr ⟨fun hholds => ?_, fun hholds => hholds.range (.int n)⟩
    exact ⟨fun _ habs => (by cases habs), fun _ habs => (by cases habs), fun _ habs => (by cases habs),
      fun _ => hholds⟩
  | float x =>
    refine (hrange (.float x)).congr ⟨fun hholds => ?_, fun hholds => hholds.range (.float x)⟩
    exact ⟨fun _ habs => (by cases habs), fun _ habs => (by cases habs), fun _ habs => (by cases habs),
      fun _ => hholds⟩
  | null =>
    exact .accept ⟨fun _ habs => (by cases habs), fun _ habs => (by cases habs),
      fun _ habs => (by cases habs), fun habs => (by cases habs)⟩
  | bool b =>
    exact .accept ⟨fun _ habs => (by cases habs), fun _ habs => (by cases habs),
      fun _ habs => (by cases habs), fun habs => (by cases habs)⟩

/-- The order in which the validator takes the keywords. -/
theorem satisfies_python_iff : Satisfies (python py) schema v ↔
    (∀ key ∈ ["allOf", "anyOf", "oneOf"], CombinatorHolds (Satisfies (python py)) schema v key) ∧
    (∀ type : SchemaType, schema.get "type" = some (.string (PyStr.ofString type.name)) → HasType type v) ∧
    (∀ c, schema.get "const" = some c → (python py).equal v c) ∧
    (∀ cs, schema.get "enum" = some (.array cs) → ∃ c ∈ cs, (python py).equal v c) ∧
    KindHolds py (Satisfies (python py)) schema v := by
  rw [satisfies_iff]
  constructor
  · rintro ⟨hassertions, hchildren⟩
    refine ⟨?_, hassertions.type, hassertions.const, hassertions.enum, ?_⟩
    · intro key hkey alternatives hget
      rcases List.mem_cons.mp hkey with rfl | hkey
      · exact hchildren.allOf alternatives hget
      rcases List.mem_cons.mp hkey with rfl | hkey
      · exact hchildren.anyOf alternatives hget
      · obtain rfl := List.mem_singleton.mp hkey
        exact hchildren.oneOf alternatives hget
    · refine ⟨fun members hv => ⟨fun names => hassertions.required members names hv, fun m hm => ?_⟩,
        fun items hv => ⟨hassertions.items items hv, hchildren.items items hv⟩,
        fun text hv => ⟨hassertions.length text hv, fun pattern => hassertions.pattern text pattern hv⟩,
        hassertions.range⟩
      exact ⟨hchildren.properties members hv m hm, hchildren.forbidden members hv m hm,
        hchildren.additional members hv m hm⟩
  · rintro ⟨hcombinators, htype, hconst, henum, hkind⟩
    refine ⟨⟨htype, hconst, henum, ?_, ?_, ?_, ?_, hkind.range⟩, ?_⟩
    · exact fun members names hv => (hkind.object members hv).1 names
    · exact fun items hv => (hkind.array items hv).1
    · exact fun text hv => (hkind.string text hv).1
    · exact fun text pattern hv => (hkind.string text hv).2 pattern
    · refine ⟨hcombinators "allOf" (by simp), hcombinators "anyOf" (by simp), hcombinators "oneOf" (by simp),
        ?_, ?_, ?_, ?_⟩
      · exact fun members hv m hm => ((hkind.object members hv).2 m hm).1
      · exact fun members hv m hm => ((hkind.object members hv).2 m hm).2.1
      · exact fun members hv m hm => ((hkind.object members hv).2 m hm).2.2
      · exact fun items hv => (hkind.array items hv).2

end Validator

/-- **The validator comes to a verdict**, on every well-formed schema that is not nested too deep, and it
    is the meaning of the keywords over Python's comparisons. -/
theorem validate_decides {py : PyRuntime} {schema : Members} {v : Json} {path : PyStr} (limit : Nat)
    (h : WellFormed py schema) (hlimit : Json.depth (.object schema) ≤ limit) :
    Decides (validate py limit v schema path) (Satisfies (python py) schema v) := by
  induction limit generalizing schema v path with
  | zero => cases hlimit
  | succ limit ih =>
    have hkeywords := h.keywords
    have hcalled : Called (validate py limit) (Satisfies (python py)) schema v := by
      intro s u path hstep
      exact ih (h.sub hstep.sub) (Nat.le_of_lt_succ (hstep.sub.depth_lt.trans_le hlimit))
    rw [validate, hkeywords.noRef]
    have hcombinators : Decides (validateCombinators (validate py limit) v schema path)
        (∀ key ∈ ["allOf", "anyOf", "oneOf"], CombinatorHolds (Satisfies (python py)) schema v key) :=
      Decides.forM fun key hkey => validateCombinator_decides hkeywords hcalled hkey
    refine Decides.congr ?_ satisfies_python_iff.symm
    exact hcombinators.bind fun _ => (validateType_decides hkeywords).bind fun _ =>
      validateConst_decides.bind fun _ => (validateEnum_decides hkeywords).bind fun _ =>
        validateByKind_decides hkeywords hcalled

end FinancialRag.Mcp
