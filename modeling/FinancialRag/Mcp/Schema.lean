/-
  `mcp/schema.py`: the validator of tool arguments.

  The recursion of `_validate` follows the schema, and the interpreter bounds it: `validate limit` raises
  once `limit` calls are nested.  The functions that `_validate` calls back from are given it as an
  argument.  A schema is a JSON object here; `_is_non_string_sequence` accepts its arrays.
-/
import FinancialRag.Lib.JsonText

set_option linter.unusedVariables false

namespace FinancialRag.Mcp

/-! ## Exceptions (`mcp/exceptions.py`) -/

/-- The classes below `MCPError`; `other` is the class itself or a subclass of the user's. -/
inductive ErrorClass where
  | protocol
  | schemaDefinition
  | schemaValidation
  | toolNotAllowed
  | toolAuthorizationDenied
  | toolNotRegistered
  | toolExecution
  | other
  deriving DecidableEq

/-- An exception on its way: an `MCPError`, or any other `Exception`. -/
inductive Raised where
  | mcp (cls : ErrorClass) (message : PyStr)
  | exception
  deriving DecidableEq

def schemaDefinitionError {α : Type} (message : PyStr) : Except Raised α :=
  .error (.mcp .schemaDefinition message)

def schemaValidationError {α : Type} (message : PyStr) : Except Raised α :=
  .error (.mcp .schemaValidation message)

/-! ## Values -/

/-- `_SUPPORTED_TYPES`, and what `_matches_type` makes of each. -/
def supportedTypes : List (String × (Json → Bool)) :=
  [("array", fun | .array _ => true | _ => false),
    ("boolean", fun | .bool _ => true | _ => false),
    ("integer", fun | .int _ => true | _ => false),
    ("null", fun | .null => true | _ => false),
    ("number", fun | .int _ => true | .float _ => true | _ => false),
    ("object", fun | .object _ => true | _ => false),
    ("string", fun | .string _ => true | _ => false)]

/-- The test of a type, if it is supported. -/
def typeTest (expected : PyStr) : Option (Json → Bool) :=
  (supportedTypes.find? fun row => decide (PyStr.ofString row.1 = expected)).map Prod.snd

/-- `v < w` of two numbers: exact, and false of a NaN. -/
def less (v w : Json) : Bool :=
  match v.number, w.number with
  | some x, some y => decide (x < y)
  | _, _ => false

/-- `_is_number`. -/
def isNumber : Json → Bool
  | .int _ => true
  | .float _ => true
  | _ => false

section Messages

variable (py : PyRuntime)

/-- `_property_path`. -/
def propertyPath (path name : PyStr) : PyStr :=
  if py.isIdentifier name then path ++ PyStr.ofString "." ++ name
  else path ++ PyStr.ofString "[" ++ py.strRepr name ++ PyStr.ofString "]"

/-- `f"{path}[{index}]"`. -/
def itemPath (path : PyStr) (index : Nat) : PyStr :=
  path ++ PyStr.ofString "[" ++ PyStr.ofInt index ++ PyStr.ofString "]"

/-- `f"{path}: {rest}"`. -/
def located (path : PyStr) (rest : String) : PyStr := path ++ PyStr.ofString (": " ++ rest)

/-- `str` of a number. -/
def numberText : Json → PyStr
  | .int n => PyStr.ofInt n
  | .float .nan => PyStr.ofString "nan"
  | .float (.infinity false) => PyStr.ofString "inf"
  | .float (.infinity true) => PyStr.ofString "-inf"
  | .float x => py.floatRepr x
  | _ => []

mutual

/-- `repr`. -/
def repr : Json → PyStr
  | .null => PyStr.ofString "None"
  | .bool true => PyStr.ofString "True"
  | .bool false => PyStr.ofString "False"
  | .string s => py.strRepr s
  | .array items => '['.codePoint :: (PyStr.ofString ", ").intercalate (reprItems items) ++ [']'.codePoint]
  | .object members =>
    '\x7b'.codePoint :: (PyStr.ofString ", ").intercalate (reprMembers members) ++ ['\x7d'.codePoint]
  | v => numberText py v

def reprItems : List Json → List PyStr
  | [] => []
  | v :: rest => repr v :: reprItems rest

def reprMembers : List (PyStr × Json) → List PyStr
  | [] => []
  | (k, v) :: rest => (py.strRepr k ++ PyStr.ofString ": " ++ repr v) :: reprMembers rest

end

end Messages

/-! ## Keywords -/

/-- One call of `_validate`. -/
abbrev Validate : Type := Json → Members → (path : PyStr) → Except Raised Unit

def asMapping : Json → Option Members
  | .object members => some members
  | _ => none

/-- The loop over the alternatives of `anyOf` and `oneOf`: a validation error does not count, any other
    exception goes through. -/
def countMatches (validate : Validate) (value : Json) (path : PyStr) : List Members → Except Raised Nat
  | [] => .ok 0
  | item :: rest =>
    match validate value item path with
    | .ok () => (countMatches validate value path rest).map (· + 1)
    | .error (.mcp .schemaValidation _) => countMatches validate value path rest
    | .error e => .error e

/-- One turn of the loop of `_validate_combinators`. -/
def validateCombinator (validate : Validate) (value : Json) (schema : Members) (path : PyStr)
    (key : String) : Except Raised Unit :=
  match schema.get key with
  | none => .ok ()
  | some (.array (first :: rest)) =>
    match (first :: rest).mapM asMapping with
    | none => schemaDefinitionError (located path (key ++ " entries must be objects"))
    | some alternatives =>
      if key = "allOf" then alternatives.forM fun item => validate value item path
      else do
        let matches' ← countMatches validate value path alternatives
        if key = "anyOf" ∧ matches' = 0 then
          schemaValidationError (located path "does not match any allowed schema")
        if key = "oneOf" ∧ matches' ≠ 1 then
          schemaValidationError (located path "must match exactly one allowed schema")
  | some _ => schemaDefinitionError (located path (key ++ " must be a non-empty array of schemas"))

/-- `_validate_combinators`. -/
def validateCombinators (validate : Validate) (value : Json) (schema : Members) (path : PyStr) :
    Except Raised Unit :=
  ["allOf", "anyOf", "oneOf"].forM (validateCombinator validate value schema path)

section Keywords

variable (py : PyRuntime)

/-- `type`; `null` counts as absent. -/
def validateType (value : Json) (schema : Members) (path : PyStr) : Except Raised Unit :=
  match schema.get "type" with
  | none => .ok ()
  | some .null => .ok ()
  | some expected =>
    let test := match expected with
      | .string name => (typeTest name).map fun test => (name, test)
      | _ => none
    match test with
    | none => schemaDefinitionError (located path "unsupported schema type " ++ repr py expected)
    | some (name, test) =>
      if test value then .ok () else schemaValidationError (located path "expected " ++ name)

/-- `const`. -/
def validateConst (value : Json) (schema : Members) (path : PyStr) : Except Raised Unit :=
  match schema.get "const" with
  | none => .ok ()
  | some constant =>
    if value.pyEq constant then .ok ()
    else schemaValidationError (located path "must equal the configured constant")

/-- `enum`. -/
def validateEnum (value : Json) (schema : Members) (path : PyStr) : Except Raised Unit :=
  match schema.get "enum" with
  | none => .ok ()
  | some (.array allowed) =>
    if allowed.any fun item => value.pyEq item then .ok ()
    else schemaValidationError (located path "value is not in the allowed enum")
  | some _ => schemaDefinitionError (located path "enum must be an array")

/-- One half of `_validate_bound`. -/
def validateOneBound (schema : Members) (key : String) (path : PyStr) (violates : Json → Bool)
    (message : String) : Except Raised Unit :=
  match schema.get key with
  | none => .ok ()
  | some bound =>
    if !isNumber bound then schemaDefinitionError (located path (key ++ " must be numeric"))
    else if violates bound then schemaValidationError (located path message ++ numberText py bound)
    else .ok ()

/-- `_validate_bound`. -/
def validateBound (value : Json) (schema : Members) (lowerKey upperKey : String) (path : PyStr) :
    Except Raised Unit := do
  validateOneBound py schema lowerKey path (fun lower => less value lower) "must be at least "
  validateOneBound py schema upperKey path (fun upper => less upper value) "must be at most "

/-- `_validate_string`. -/
def validateString (value : PyStr) (schema : Members) (path : PyStr) : Except Raised Unit := do
  validateBound py (.int value.length) schema "minLength" "maxLength" path
  match schema.get "pattern" with
  | none => .ok ()
  | some (.string pattern) =>
    match py.search pattern value with
    | none => schemaDefinitionError (located path "invalid pattern")
    | some true => .ok ()
    | some false => schemaValidationError (located path "does not match the required pattern")
  | some _ => schemaDefinitionError (located path "pattern must be a string")

def validateItems (validate : Validate) (itemSchema : Members) (path : PyStr) (index : Nat) :
    List Json → Except Raised Unit
  | [] => .ok ()
  | item :: rest => do
    validate item itemSchema (itemPath path index)
    validateItems validate itemSchema path (index + 1) rest

/-- `_validate_array`. -/
def validateArray (validate : Validate) (value : List Json) (schema : Members) (path : PyStr) :
    Except Raised Unit := do
  validateBound py (.int value.length) schema "minItems" "maxItems" path
  match schema.get "items" with
  | none => .ok ()
  | some (.object itemSchema) => validateItems validate itemSchema path 0 value
  | some _ => schemaDefinitionError (located path "items must be an object")

def asString : Json → Option PyStr
  | .string s => some s
  | _ => none

/-- `schema.get("properties", {})`, checked. -/
def propertiesOf (schema : Members) (path : PyStr) : Except Raised Members :=
  match schema.get "properties" with
  | none => .ok []
  | some (.object properties) => .ok properties
  | some _ => schemaDefinitionError (located path "properties must be an object")

/-- `schema.get("required", [])`, checked. -/
def requiredOf (schema : Members) (path : PyStr) : Except Raised (List PyStr) :=
  let raises := schemaDefinitionError (located path "required must be an array of property names")
  match schema.get "required" with
  | none => .ok []
  | some (.array names) =>
    match names.mapM asString with
    | some names => .ok names
    | none => raises
  | some _ => raises

/-- One turn of the loop over the members. -/
def validateMember (validate : Validate) (properties : Members) (schema : Members) (path : PyStr)
    (member : PyStr × Json) : Except Raised Unit :=
  let itemPath := propertyPath py path member.1
  match properties.lookup member.1 with
  | some (.object childSchema) => validate member.2 childSchema itemPath
  | some _ => schemaDefinitionError (located itemPath "property schema must be an object")
  | none =>
    match schema.get "additionalProperties" with
    | none => .ok ()
    | some (.bool false) => schemaValidationError (located itemPath "unexpected property")
    | some (.bool true) => .ok ()
    | some (.object additional) => validate member.2 additional itemPath
    | some _ =>
      schemaDefinitionError (located path "additionalProperties must be a boolean or schema")

/-- `_validate_object`. -/
def validateObject (validate : Validate) (value : Members) (schema : Members) (path : PyStr) :
    Except Raised Unit := do
  let properties ← propertiesOf schema path
  let required ← requiredOf schema path
  required.forM fun name =>
    if (value.lookup name).isSome then .ok ()
    else schemaValidationError (located (propertyPath py path name) "is required")
  value.forM (validateMember py validate properties schema path)

/-- The part of `_validate` that depends on what the value is. -/
def validateByKind (validate : Validate) (value : Json) (schema : Members) (path : PyStr) :
    Except Raised Unit :=
  match value with
  | .object members => validateObject py validate members schema path
  | .array items => validateArray py validate items schema path
  | .string s => validateString py s schema path
  | .int n => validateBound py (.int n) schema "minimum" "maximum" path
  | .float x => validateBound py (.float x) schema "minimum" "maximum" path
  | _ => .ok ()

/-! ## The validator -/

/-- `_validate`. -/
def validate : (limit : Nat) → Validate
  | 0, _, _, _ => .error .exception
  | limit + 1, value, schema, path => do
    if schema.has "$ref" then
      schemaDefinitionError (located path "$ref is not supported by the local validator")
    validateCombinators (validate limit) value schema path
    validateType py value schema path
    validateConst value schema path
    validateEnum value schema path
    validateByKind py (validate limit) value schema path

/-- `validate_arguments`; the copies that it makes are the values themselves. -/
def validateArguments (limit : Nat) (arguments schema : Members) : Except Raised Members := do
  let schema' := if schema.has "type" then schema
    else schema ++ [(PyStr.ofString "type", .string (PyStr.ofString "object"))]
  validate py limit (.object arguments) schema' (PyStr.ofString "$")
  return arguments

end Keywords

end FinancialRag.Mcp
