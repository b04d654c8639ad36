/-
  Values on their way into logs and traces (`observability/serialization.py`).

  The objects that are serialized are nodes of a graph, which may be shared and form cycles.  A call knows the
  nodes it is INSIDE of, and how many more calls the interpreter lets it nest.

  `str(key)` runs code of the key.  A key is therefore what `str` makes of it, and whether that shows a value that
  is stored under a sensitive key or field of the key itself, as the text of a frozen dataclass does.
-/
import Mathlib.Data.Finset.Card
import Mathlib.Data.Fintype.Card
import Mathlib.Logic.Relation
import FinancialRag.Lib.Dict
import FinancialRag.Lib.JsonCode
import FinancialRag.Lib.PyList

set_option linter.unusedVariables false

namespace FinancialRag.Observability

/-! ## Objects -/

/-- What is serialized without looking inside; members of an `int` or `str` enumeration are among them. -/
inductive Scalar where
  | none
  | bool (b : Bool)
  | int (n : Int)
  | str (s : PyStr)
  | float (x : Double)
  /-- a `datetime`, `date` or `time`, as `isoformat` writes it -/
  | moment (isoformat : PyStr)
  /-- a `Decimal` or `UUID`, as `str` writes it -/
  | literal (text : PyStr)
  deriving DecidableEq

inductive Value (n : Nat) where
  | scalar (s : Scalar)
  | ref (id : Fin n)
  deriving DecidableEq

structure Key where
  /-- `str(key)`, if that does not raise -/
  text : Option PyStr
  /-- the text shows a value that is stored under a sensitive key or field of the key -/
  shows : Bool
  deriving DecidableEq

structure Entry (n : Nat) where
  key : Key
  value : Value n
  deriving DecidableEq

structure Field (n : Nat) where
  name : PyStr
  value : Value n
  deriving DecidableEq

/-- A field is an entry under its name. -/
def Field.entry {n : Nat} (field : Field n) : Entry n := ⟨⟨some field.name, false⟩, field.value⟩

inductive Obj (n : Nat) where
  | enum (value : Value n)
  | mapping (entries : List (Entry n))
  /-- a `list` or a `tuple` -/
  | sequence (items : List (Value n))
  /-- a `set` or a `frozenset`, in the order of its iteration -/
  | set (items : List (Value n))
  | dataclass (fields : List (Field n))
  /-- any other object, known by the name of its type -/
  | other (typeName : PyStr)

namespace Obj

variable {n : Nat}

def isEnum : Obj n → Bool
  | .enum _ => true
  | _ => false

def entries : Obj n → List (Entry n)
  | .mapping entries => entries
  | .dataclass fields => fields.map Field.entry
  | _ => []

def items : Obj n → List (Value n)
  | .sequence items => items
  | .set items => items
  | _ => []

end Obj

/-- The objects of a run.  The value of an enumeration's member is there before the member. -/
structure Graph (n : Nat) where
  obj : Fin n → Obj n
  enums : ∀ i j, obj i = .enum (.ref j) → (obj j).isEnum = true → j < i

/-! ## `to_json_safe` -/

/-- What the interpreter contributes. -/
structure Interpreter where
  runtime : PyRuntime
  /-- `str.lower` -/
  lower : PyStr → PyStr
  /-- `repr` of what is serialized: no two values read alike -/
  repr : Json → PyStr
  repr_injective : Function.Injective repr

inductive Raised where
  | recursionError
  | valueError
  /-- by the `str` of a key -/
  | keyError
  deriving DecidableEq

def redactedValue : Json := .string (PyStr.ofString "[REDACTED]")

def sensitiveFieldNames : List PyStr :=
  ["access_token", "api_key", "authorization", "cookie", "credential", "credentials", "password", "refresh_token",
    "secret", "token"].map PyStr.ofString

def cycle : Json := .string (PyStr.ofString "<cycle>")

def unsupported (typeName : PyStr) : Json :=
  .string (PyStr.ofString "<unsupported:" ++ typeName ++ PyStr.ofString ">")

def scalarJson : Scalar → Json
  | .none => .null
  | .bool b => .bool b
  | .int n => .int n
  | .str s => .string s
  | .float (.finite q) => .float (.finite q)
  | .float .negativeZero => .float .negativeZero
  | .float _ => .string (PyStr.ofString "<non-finite-float>")
  | .moment isoformat => .string isoformat
  | .literal text => .string text

variable (py : Interpreter)

/-- `str(key).lower() in _SENSITIVE_FIELD_NAMES`. -/
def isSensitive (text : PyStr) : Bool := decide (py.lower text ∈ sensitiveFieldNames)

variable {n : Nat}

def Entry.sensitive (e : Entry n) : Bool := e.key.text.any (isSensitive py)

/-- One entry of a mapping or dataclass; `serialize` is the call inside. -/
def serializeEntry (serialize : Value n → Except Raised Json) (e : Entry n) : Except Raised (PyStr × Json) :=
  match e.key.text with
  | none => .error .keyError
  | some text =>
    if isSensitive py text then .ok (text, redactedValue)
    else (serialize e.value).map fun json => (text, json)

/-- A dictionary comprehension over entries. -/
def serializeEntries (serialize : Value n → Except Raised Json) (entries : List (Entry n)) : Except Raised Json :=
  (entries.mapM (serializeEntry py serialize)).map fun members => .object (Dict.ofList members).entries

/-- `repr` raises for an `int` of too many digits, wherever it is. -/
def representable (json : Json) : Bool := Json.everywhere (Json.convertible py.runtime) json

/-- `sorted(items, key=lambda item: repr(item))`. -/
def sortedByRepr (items : List Json) : Except Raised (List Json) :=
  if items.all (representable py) then .ok (PyList.sorted (fun a b => decide (py.repr a < py.repr b)) items)
  else .error .valueError

/-- `to_json_safe`, where `room` more calls can be nested. -/
def toJsonSafe (g : Graph n) : Nat → Finset (Fin n) → Value n → Except Raised Json
  | 0, _, _ => .error .recursionError
  | _ + 1, _, .scalar s => .ok (scalarJson s)
  | room + 1, seen, .ref id =>
    match g.obj id with
    | .enum value => toJsonSafe g room seen value
    | .mapping entries =>
      if id ∈ seen then .ok cycle else serializeEntries py (toJsonSafe g room (insert id seen)) entries
    | .sequence items =>
      if id ∈ seen then .ok cycle else (items.mapM (toJsonSafe g room (insert id seen))).map .array
    | .set items =>
      if id ∈ seen then .ok cycle
      else (items.mapM (toJsonSafe g room (insert id seen))).bind fun jsons => (sortedByRepr py jsons).map .array
    | .dataclass fields =>
      if id ∈ seen then .ok cycle
      else serializeEntries py (toJsonSafe g room (insert id seen)) (fields.map Field.entry)
    | .other typeName => if id ∈ seen then .ok cycle else .ok (unsupported typeName)

end FinancialRag.Observability
