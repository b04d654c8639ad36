/-
  **JSON Schema** — a small library of its own: what the validation keywords mean.

  A schema is a JSON object.  `Satisfies M schema v` is the meaning of its keywords, over a `Meaning M` of
  the three things they rest on: when two values are equal, when a number respects a bound, and when a
  pattern is found.  `Children` is the part that looks at sub-schemas, `Assertions` the rest.

  `Compares` is one step from a schema and a value to a sub-schema and the value it is applied to.
  `satisfies_congr`: two meanings give one verdict on a value if they agree on the assertions wherever
  these steps lead.
-/
import Mathlib.Logic.Relation
import FinancialRag.Lib.Json

set_option linter.unusedVariables false

/-- Exactly one element of a list. -/
def ExactlyOne {α : Type} (P : α → Prop) (xs : List α) : Prop :=
  ∃ before x after, xs = before ++ x :: after ∧ P x ∧ ∀ y ∈ before ++ after, ¬ P y

theorem not_exactlyOne_nil {α : Type} {P : α → Prop} : ¬ ExactlyOne P [] := by
  rintro ⟨before, x, after, habs, _⟩
  cases before <;> cases habs

theorem exactlyOne_cons {α : Type} {P : α → Prop} {x : α} {xs : List α} :
    ExactlyOne P (x :: xs) ↔ (P x ∧ ∀ y ∈ xs, ¬ P y) ∨ (¬ P x ∧ ExactlyOne P xs) := by
  constructor
  · rintro ⟨before, y, after, heq, hy, hothers⟩
    cases before with
    | nil =>
      obtain ⟨rfl, rfl⟩ := List.cons.inj heq
      exact Or.inl ⟨hy, hothers⟩
    | cons b before =>
      obtain ⟨rfl, rfl⟩ := List.cons.inj heq
      exact Or.inr ⟨hothers _ List.mem_cons_self,
        before, y, after, rfl, hy, fun z hz => hothers z (List.mem_cons_of_mem _ hz)⟩
  · rintro (⟨hx, hothers⟩ | ⟨hx, before, y, after, rfl, hy, hothers⟩)
    · exact ⟨[], x, xs, rfl, hx, hothers⟩
    · refine ⟨x :: before, y, after, rfl, hy, fun z hz => ?_⟩
      rcases List.mem_cons.mp hz with rfl | hz
      · exact hx
      · exact hothers z hz

theorem exactlyOne_congr {α : Type} {P Q : α → Prop} {xs : List α} (h : ∀ x ∈ xs, (P x ↔ Q x)) :
    ExactlyOne P xs ↔ ExactlyOne Q xs := by
  refine exists_congr fun before => exists_congr fun x => exists_congr fun after =>
    and_congr_right fun heq => ?_
  have hx : x ∈ xs := by
    rw [heq]
    exact List.mem_append_right _ List.mem_cons_self
  refine and_congr (h x hx) (forall_congr' fun y => forall_congr' fun hy => not_congr (h y ?_))
  rw [heq]
  rcases List.mem_append.mp hy with hbefore | hafter
  · exact List.mem_append_left _ hbefore
  · exact List.mem_append_right _ (List.mem_cons_of_mem _ hafter)

namespace JsonSchema

/-- What the keywords rest on. -/
structure Meaning where
  equal : Json → Json → Prop
  atLeast : (bound v : Json) → Prop
  atMost : (bound v : Json) → Prop
  found : (pattern text : PyStr) → Prop

/-! ## Sub-schemas -/

/-- The schema of a property. -/
def declared (schema : Members) (name : PyStr) : Option Json :=
  match schema.get "properties" with
  | some (.object properties) => properties.lookup name
  | _ => none

/-- An array of schemas. -/
def schemas (alternatives : List Members) : Json := .array (alternatives.map .object)

/-- The schemas directly below a schema. -/
inductive SubSchema (schema : Members) : Members → Prop
  | combinator {key : String} {alternatives : List Members} {s : Members} :
      key ∈ ["allOf", "anyOf", "oneOf"] → schema.get key = some (schemas alternatives) →
      s ∈ alternatives → SubSchema schema s
  | property {name : PyStr} {s : Members} : declared schema name = some (.object s) → SubSchema schema s
  | additional {s : Members} : schema.get "additionalProperties" = some (.object s) → SubSchema schema s
  | items {s : Members} : schema.get "items" = some (.object s) → SubSchema schema s

theorem SubSchema.depth_lt {schema s : Members} (h : SubSchema schema s) :
    Json.depth (.object s) < Json.depth (.object schema) := by
  cases h with
  | combinator _ hget hs =>
    exact (Json.depth_lt_array (List.mem_map_of_mem hs)).trans (Json.depth_lt_of_lookup hget)
  | property hdeclared =>
    unfold declared at hdeclared
    split at hdeclared
    · rename_i properties hget
      exact (Json.depth_lt_of_lookup hdeclared).trans (Json.depth_lt_of_lookup hget)
    · cases hdeclared
  | additional hget => exact Json.depth_lt_of_lookup hget
  | items hget => exact Json.depth_lt_of_lookup hget

/-! ## The meaning of the keywords -/

/-- The seven types. -/
inductive SchemaType where
  | array
  | boolean
  | integer
  | null
  | number
  | object
  | string
  deriving DecidableEq

def SchemaType.name : SchemaType → String
  | .array => "array"
  | .boolean => "boolean"
  | .integer => "integer"
  | .null => "null"
  | .number => "number"
  | .object => "object"
  | .string => "string"

/-- A number is an integer if it is written as one. -/
inductive HasType : SchemaType → Json → Prop
  | array (items : List Json) : HasType .array (.array items)
  | boolean (b : Bool) : HasType .boolean (.bool b)
  | integer (n : Int) : HasType .integer (.int n)
  | null : HasType .null .null
  | int (n : Int) : HasType .number (.int n)
  | float (x : Double) : HasType .number (.float x)
  | object (members : Members) : HasType .object (.object members)
  | string (s : PyStr) : HasType .string (.string s)

section Keywords

variable (M : Meaning)

/-- A pair of bounds. -/
def Within (schema : Members) (lower upper : String) (v : Json) : Prop :=
  (∀ bound, schema.get lower = some bound → M.atLeast bound v) ∧
    ∀ bound, schema.get upper = some bound → M.atMost bound v

/-- The keywords that have no schema below them. -/
structure Assertions (schema : Members) (v : Json) : Prop where
  type : ∀ t : SchemaType, schema.get "type" = some (.string (PyStr.ofString t.name)) → HasType t v
  const : ∀ c, schema.get "const" = some c → M.equal v c
  enum : ∀ cs, schema.get "enum" = some (.array cs) → ∃ c ∈ cs, M.equal v c
  required : ∀ members names, v = .object members →
    schema.get "required" = some (.array (List.map .string names)) →
      ∀ name ∈ names, ∃ x, members.lookup name = some x
  items : ∀ items, v = .array items → Within M schema "minItems" "maxItems" (.int items.length)
  length : ∀ s, v = .string s → Within M schema "minLength" "maxLength" (.int s.length)
  pattern : ∀ s pattern, v = .string s → schema.get "pattern" = some (.string pattern) →
    M.found pattern s
  range : HasType .number v → Within M schema "minimum" "maximum" v

/-- The keywords that apply schemas, `sat` being their verdicts. -/
structure Children (sat : Members → Json → Prop) (schema : Members) (v : Json) : Prop where
  allOf : ∀ alternatives, schema.get "allOf" = some (schemas alternatives) → ∀ s ∈ alternatives, sat s v
  anyOf : ∀ alternatives, schema.get "anyOf" = some (schemas alternatives) → ∃ s ∈ alternatives, sat s v
  oneOf : ∀ alternatives, schema.get "oneOf" = some (schemas alternatives) →
    ExactlyOne (fun s => sat s v) alternatives
  properties : ∀ members, v = .object members → ∀ m ∈ members,
    ∀ s, declared schema m.1 = some (.object s) → sat s m.2
  forbidden : ∀ members, v = .object members → ∀ m ∈ members, declared schema m.1 = none →
    schema.get "additionalProperties" ≠ some (.bool false)
  additional : ∀ members, v = .object members → ∀ m ∈ members, declared schema m.1 = none →
    ∀ s, schema.get "additionalProperties" = some (.object s) → sat s m.2
  items : ∀ items, v = .array items → ∀ s, schema.get "items" = some (.object s) → ∀ x ∈ items, sat s x

/-- **A value satisfies a schema.** -/
def Satisfies (schema : Members) (v : Json) : Prop :=
  Assertions M schema v ∧
  Children (fun s u => ∃ h : SubSchema schema s, Satisfies s u) schema v
termination_by Json.depth (.object schema)
decreasing_by exact h.depth_lt

end Keywords

/-! ## Where schemas are applied -/

/-- One step from a schema and a value to a sub-schema and what it is applied to. -/
inductive Compares : Members × Json → Members × Json → Prop
  | combinator {schema s : Members} {v : Json} {key : String} {alternatives : List Members} :
      key ∈ ["allOf", "anyOf", "oneOf"] → schema.get key = some (schemas alternatives) →
      s ∈ alternatives → Compares (schema, v) (s, v)
  | property {schema s members : Members} {m : PyStr × Json} :
      m ∈ members → declared schema m.1 = some (.object s) →
      Compares (schema, .object members) (s, m.2)
  | additional {schema s members : Members} {m : PyStr × Json} :
      m ∈ members → declared schema m.1 = none →
      schema.get "additionalProperties" = some (.object s) → Compares (schema, .object members) (s, m.2)
  | items {schema s : Members} {items : List Json} {x : Json} :
      x ∈ items → schema.get "items" = some (.object s) → Compares (schema, .array items) (s, x)

theorem Compares.sub {schema s : Members} {v u : Json} (h : Compares (schema, v) (s, u)) :
    SubSchema schema s := by
  cases h with
  | combinator hkey hget hs => exact .combinator hkey hget hs
  | property _ hdeclared => exact .property hdeclared
  | additional _ _ hget => exact .additional hget
  | items _ hget => exact .items hget

/-- Steps, any number of them. -/
abbrev Meets : Members × Json → Members × Json → Prop := Relation.ReflTransGen Compares

/-- Where a step leads, what holds everywhere in a value still does. -/
theorem Compares.everywhere {p : Json → Bool} {schema s : Members} {v u : Json}
    (h : Compares (schema, v) (s, u)) (hv : Json.everywhere p v = true) : Json.everywhere p u = true := by
  cases h with
  | combinator _ _ _ => exact hv
  | property hm _ => exact (Json.everywhere_object.mp hv).2 _ hm
  | additional hm _ _ => exact (Json.everywhere_object.mp hv).2 _ hm
  | items hx _ => exact (Json.everywhere_array.mp hv).2 _ hx

theorem Meets.everywhere {p : Json → Bool} {schema : Members} {v : Json} {x : Members × Json}
    (h : Meets (schema, v) x) (hv : Json.everywhere p v = true) : Json.everywhere p x.2 = true := by
  induction h with
  | refl => exact hv
  | tail _ hstep ih => exact hstep.everywhere ih

section Verdicts

variable {M M' : Meaning}

theorem Children.imp {sat sat' : Members → Json → Prop} {schema : Members} {v : Json}
    (h : Children sat schema v)
    (hsat : ∀ s u, Compares (schema, v) (s, u) → (sat s u ↔ sat' s u)) : Children sat' schema v where
  allOf := by
    intro alternatives hget s hs
    exact (hsat s v (.combinator (by simp) hget hs)).mp (h.allOf alternatives hget s hs)
  anyOf := by
    intro alternatives hget
    obtain ⟨s, hs, hsatisfied⟩ := h.anyOf alternatives hget
    exact ⟨s, hs, (hsat s v (.combinator (by simp) hget hs)).mp hsatisfied⟩
  oneOf := by
    intro alternatives hget
    have hsame : ∀ s ∈ alternatives, (sat s v ↔ sat' s v) :=
      fun s hs => hsat s v (.combinator (by simp) hget hs)
    exact (exactlyOne_congr hsame).mp (h.oneOf alternatives hget)
  properties := by
    rintro members rfl m hm s hs
    exact (hsat s m.2 (.property hm hs)).mp (h.properties members rfl m hm s hs)
  forbidden := h.forbidden
  additional := by
    rintro members rfl m hm hnone s hs
    exact (hsat s m.2 (.additional hm hnone hs)).mp (h.additional members rfl m hm hnone s hs)
  items := by
    rintro items rfl s hs x hx
    exact (hsat s x (.items hx hs)).mp (h.items items rfl s hs x hx)

/-- The verdict on a schema depends on those on its sub-schemas only. -/
theorem children_congr {sat sat' : Members → Json → Prop} {schema : Members} {v : Json}
    (hsat : ∀ s u, Compares (schema, v) (s, u) → (sat s u ↔ sat' s u)) :
    Children sat schema v ↔ Children sat' schema v :=
  ⟨fun h => h.imp hsat, fun h => h.imp fun s u hstep => (hsat s u hstep).symm⟩

/-- **The meaning of a schema**, keyword by keyword. -/
theorem satisfies_iff {schema : Members} {v : Json} :
    Satisfies M schema v ↔ Assertions M schema v ∧ Children (Satisfies M) schema v := by
  rw [Satisfies]
  refine and_congr_right fun _ => children_congr fun s u hstep => ?_
  exact ⟨fun ⟨_, h⟩ => h, fun h => ⟨hstep.sub, h⟩⟩

/-- **Two meanings, one verdict.**  They have to agree on the assertions wherever schemas are applied. -/
theorem satisfies_congr {schema : Members} {v : Json}
    (h : ∀ x, Meets (schema, v) x → (Assertions M x.1 x.2 ↔ Assertions M' x.1 x.2)) :
    Satisfies M schema v ↔ Satisfies M' schema v := by
  induction hdepth : Json.depth (.object schema) using Nat.strong_induction_on generalizing schema v with
  | _ depth ih =>
    subst hdepth
    rw [satisfies_iff, satisfies_iff]
    refine and_congr (h _ .refl) (children_congr fun s u hstep => ?_)
    exact ih _ hstep.sub.depth_lt (fun x hx => h x (.head hstep hx)) rfl

end Verdicts

end JsonSchema
