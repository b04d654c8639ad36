/-
  The records that travel between the vector store and the retriever (`storage/vector_models.py`),
  and the metadata they carry.

  Metadata is a dictionary from strings to scalar values, the values Chroma can store.  `Value.eq` is
  Python's `==` on them: `True`, `1` and `1.0` are equal, and a comparison of a `NaN` is whatever the
  float type says.
-/
import Mathlib.Data.String.Basic
import FinancialRag.Lib.Dict
import FinancialRag.Lib.PyFloat
import FinancialRag.Lib.PyList

set_option linter.unusedVariables false

namespace FinancialRag.Storage

inductive Value (F : Type) where
  | none
  | bool (b : Bool)
  | int (n : Int)
  | float (x : F)
  | str (s : String)

namespace Value

variable {F : Type} [PyFloat F]

/-- The integer a `bool` or `int` compares as. -/
def asInt : Value F → Option Int
  | .bool b => some (if b then 1 else 0)
  | .int n => some n
  | _ => Option.none

/-- Python's `==`. -/
def eq : Value F → Value F → Bool
  | .none, .none => true
  | .str a, .str b => a == b
  | .float x, .float y => PyFloat.eq x y
  | .float x, v =>
    match v.asInt with
    | some n => PyFloat.eq x (n : F)
    | Option.none => false
  | v, .float y =>
    match v.asInt with
    | some n => PyFloat.eq (n : F) y
    | Option.none => false
  | v, w =>
    match v.asInt, w.asInt with
    | some m, some n => m == n
    | _, _ => false

/-- Python's truth value. -/
def truthy : Value F → Bool
  | .none => false
  | .bool b => b
  | .int n => n != 0
  | .float x => !PyFloat.eq x ((0 : Int) : F)
  | .str s => s != ""

/-- `str(v)`. -/
def text : Value F → String
  | .none => "None"
  | .bool b => if b then "True" else "False"
  | .int n => toString n
  | .float x => PyFloat.str x
  | .str s => s

/-- `isinstance(v, (int, float)) and not isinstance(v, bool)`, with `float(v)`. -/
def number : Value F → Option F
  | .int n => some (n : F)
  | .float x => some x
  | _ => Option.none

end Value

abbrev Metadata (F : Type) := Dict String (Value F)

/-- `metadata.get(key)`: an absent key reads as `None`. -/
def Metadata.read {F : Type} (m : Metadata F) (key : String) : Value F := (m.get key).getD .none

structure VectorDocument (F : Type) where
  documentId : String
  chunkId : String
  company : String
  content : String
  embedding : List F
  metadata : Metadata F

structure SearchResult (F : Type) where
  documentId : String
  chunkId : String
  score : F
  content : String
  metadata : Metadata F

/-- The order of the key `(document_id, chunk_id)`. -/
def SearchResult.idLt {F : Type} (a b : SearchResult F) : Bool :=
  PyList.tupleLt [(a.documentId == b.documentId, decide (a.documentId < b.documentId)),
    (a.chunkId == b.chunkId, decide (a.chunkId < b.chunkId))]

end FinancialRag.Storage
