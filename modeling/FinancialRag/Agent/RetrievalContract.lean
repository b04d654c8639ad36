/-
  `agent/tools/retrieval_contract.py` and the decoder of `core/retrieval_tool_adapter.py`: evidence on its
  way through the retrieval tool.

  What an adapter returns is dynamically typed: a mapping, or an object with attributes.  `from_value`
  reads either through one lookup, field by field, each with its own chain of names, and fails with the
  message of the first check that does not hold.  The tool writes the accepted records into its output
  (`as_dict`, `citation`), and `evidence_from_tool_output` reads evidence back from there.

  An `int` becomes a `float` through `toFloat`, which raises where the number is out of range.
-/
import FinancialRag.Lib.PyText

set_option linter.unusedVariables false

namespace FinancialRag.Agent

/-! ## Dynamic values -/

/-- A Python value, as far as the contract tells them apart.  A key of a mapping is `none` where it is no
    string; `other` is any value that is not JSON-compatible. -/
inductive PyValue (F : Type) where
  | none
  | bool (b : Bool)
  | int (n : Int)
  | float (x : F)
  | str (s : String)
  | list (items : List (PyValue F))
  | tuple (items : List (PyValue F))
  | mapping (entries : List (Option String × PyValue F))
  | other

abbrev Entries (F : Type) := List (Option String × PyValue F)

/-- What is looked up by name: the keys of a mapping, or the attributes of an object. -/
abbrev Lookup (F : Type) := String → Option (PyValue F)

variable {F : Type}

/-- `mapping.get(key)`, absent told from `None`. -/
def Entries.get (entries : Entries F) : Lookup F := fun key => List.lookup (some key) entries

/-- `data.get(key)`: what is absent reads as `None`. -/
def Lookup.read (data : Lookup F) (key : String) : PyValue F := (data key).getD .none

/-- `mapping.get(key)`. -/
def Entries.read (entries : Entries F) (key : String) : PyValue F := (Entries.get entries key).getD .none

/-- `data.get(key, default)`. -/
def Lookup.readOr (data : Lookup F) (key : String) (default : PyValue F) : PyValue F :=
  (data key).getD default

mutual

/-- `_json_value`. -/
def jsonValue : PyValue F → Except String (PyValue F)
  | .mapping entries => do return .mapping (← jsonMapping entries)
  | .list items => do return .list (← jsonItems items)
  | .tuple items => do return .list (← jsonItems items)
  | .other => .error "metadata and filters must contain JSON-compatible values"
  | value => .ok value

def jsonItems : List (PyValue F) → Except String (List (PyValue F))
  | [] => .ok []
  | item :: items => do return (← jsonValue item) :: (← jsonItems items)

/-- `_json_mapping`. -/
def jsonMapping : Entries F → Except String (Entries F)
  | [] => .ok []
  | (none, _) :: _ => .error "metadata and filter keys must be strings"
  | (some key, item) :: rest => do return (some key, ← jsonValue item) :: (← jsonMapping rest)

end

/-! ## One record -/

/-- `int | str` -/
inductive Page where
  | number (n : Int)
  | text (s : String)

/-- `RetrievalEvidence`. -/
structure RetrievalEvidence (F : Type) where
  content : String
  sourceFilename : String
  similarityScore : Option F
  documentId : Option String
  chunkId : Option String
  page : Option Page
  company : Option String
  metadata : Entries F

/-- A text that is there, stripped. -/
def requiredString (T : PyText) (message : String) : PyValue F → Except String String
  | .str s => if T.strip s = "" then .error message else .ok (T.strip s)
  | _ => .error message

/-- `_optional_string`. -/
def optionalString (T : PyText) (fieldName : String) : PyValue F → Except String (Option String)
  | .none => .ok Option.none
  | .str s =>
    if T.strip s = "" then .error s!"{fieldName} must be a non-empty string when provided"
    else .ok (some (T.strip s))
  | _ => .error s!"{fieldName} must be a non-empty string when provided"

/-- `metadata`, where `None` is an empty one. -/
def checkMetadata : PyValue F → Except String (Entries F)
  | .none => .ok []
  | .mapping entries => .ok entries
  | _ => .error "retrieval evidence metadata must be a mapping"

/-- The first of three fields that is not `None`. -/
def scoreOf (data : Lookup F) : PyValue F :=
  match data.read "similarity_score" with
  | .none =>
    match data.read "score" with
    | .none => data.read "confidence"
    | score => score
  | score => score

/-- A score: `None` or a number. -/
def checkScore : PyValue F → Except String (Option (Int ⊕ F))
  | .none => .ok Option.none
  | .int n => .ok (some (.inl n))
  | .float x => .ok (some (.inr x))
  | _ => .error "retrieval evidence score must be numeric when provided"

/-- `float(score) if score is not None else None` -/
def scoreAsFloat (toFloat : Int → Except String F) : Option (Int ⊕ F) → Except String (Option F)
  | none => .ok none
  | some (.inl n) => do return some (← toFloat n)
  | some (.inr x) => .ok (some x)

/-- A page: `None`, an integer or a string. -/
def checkPage : PyValue F → Except String (Option Page)
  | .none => .ok Option.none
  | .int n => .ok (some (.number n))
  | .str s => .ok (some (.text s))
  | _ => .error "retrieval evidence page must be an integer or string when provided"

/-- `RetrievalEvidence.from_value`, once it has something to look up in. -/
def fromData (T : PyText) (toFloat : Int → Except String F) (data : Lookup F) :
    Except String (RetrievalEvidence F) := do
  let metadata ← checkMetadata (data.readOr "metadata" (.mapping []))
  let content ← requiredString T "retrieval evidence requires non-empty content"
    (data.readOr "content" (data.readOr "snippet" (data.read "text")))
  let source ← requiredString T "retrieval evidence requires a source filename"
    (data.readOr "source_filename" (data.readOr "source" (metadata.read "source")))
  let score ← checkScore (scoreOf data)
  let page ← checkPage (data.readOr "page" (metadata.read "page"))
  let similarityScore ← scoreAsFloat toFloat score
  let documentId ← optionalString T "document_id"
    (data.readOr "document_id" (metadata.read "document_id"))
  let chunkId ← optionalString T "chunk_id" (data.readOr "chunk_id" (metadata.read "chunk_id"))
  let company ← optionalString T "company" (data.readOr "company" (metadata.read "company"))
  let metadata ← jsonMapping metadata
  return { content := content, sourceFilename := source, similarityScore := similarityScore,
           documentId := documentId, chunkId := chunkId, page := page, company := company,
           metadata := metadata }

/-- The attributes `from_value` asks an object for. -/
def attributeNames : List String :=
  ["content", "source", "score", "confidence", "document_id", "chunk_id", "page", "company", "metadata"]

/-- What an adapter returns for one piece of evidence. -/
inductive EvidenceInput (F : Type) where
  | record (evidence : RetrievalEvidence F)
  | mapping (entries : Entries F)
  | object (attributes : Lookup F)

/-- The mapping built for an object: an attribute it lacks is THERE, as `None`. -/
def objectData (attributes : Lookup F) : Lookup F := fun name =>
  if attributeNames.contains name then some (attributes.read name) else none

/-- `RetrievalEvidence.from_value`. -/
def fromValue (T : PyText) (toFloat : Int → Except String F) :
    EvidenceInput F → Except String (RetrievalEvidence F)
  | .record evidence => .ok evidence
  | .mapping entries => fromData T toFloat entries.get
  | .object attributes => fromData T toFloat (objectData attributes)

/-- `normalise_evidence`, of an iterable. -/
def normaliseEvidence (T : PyText) (toFloat : Int → Except String F) (values : List (EvidenceInput F)) :
    Except String (List (RetrievalEvidence F)) := values.mapM (fromValue T toFloat)

/-! ## The output of the tool -/

/-- An optional field, `None` where it is not there. -/
def optionalValue {α : Type} (value : α → PyValue F) : Option α → PyValue F
  | none => .none
  | some a => value a

/-- A page as it was. -/
def Page.value : Page → PyValue F
  | .number n => .int n
  | .text s => .str s

/-- `RetrievalEvidence.as_dict`. -/
def RetrievalEvidence.asDict (e : RetrievalEvidence F) (rank : Nat) : Entries F :=
  [ (some "rank", .int rank),
    (some "content", .str e.content),
    (some "source_filename", .str e.sourceFilename),
    (some "similarity_score", optionalValue .float e.similarityScore),
    (some "document_id", optionalValue .str e.documentId),
    (some "chunk_id", optionalValue .str e.chunkId),
    (some "page", optionalValue Page.value e.page),
    (some "company", optionalValue .str e.company),
    (some "metadata", .mapping e.metadata) ]

/-- `RetrievalEvidence.citation`. -/
def RetrievalEvidence.citation (e : RetrievalEvidence F) (rank : Nat) : Entries F :=
  [ (some "rank", .int rank),
    (some "source_filename", .str e.sourceFilename),
    (some "document_id", optionalValue .str e.documentId),
    (some "chunk_id", optionalValue .str e.chunkId),
    (some "page", optionalValue Page.value e.page),
    (some "similarity_score", optionalValue .float e.similarityScore) ]

/-- The output of `RetrievalTool.execute` for an accepted request. -/
def toolOutput (query : String) (tenantId : Int) (evidence : List (RetrievalEvidence F)) : PyValue F :=
  .mapping
    [ (some "query", .str query),
      (some "tenant_id", .int tenantId),
      (some "result_count", .int evidence.length),
      (some "evidence", .list ((evidence.zipIdx 1).map fun item => .mapping (item.1.asDict item.2))),
      (some "citations", .list ((evidence.zipIdx 1).map fun item => .mapping (item.1.citation item.2))) ]

/-! ## Reading evidence back -/

/-- An `Evidence` read back from the output. -/
structure DecodedEvidence (F : Type) where
  content : String
  source : String
  company : String
  confidence : F
  metadata : Entries F

/-- `d[key] = value` -/
def Entries.set (entries : Entries F) (key : String) (value : PyValue F) : Entries F :=
  if (entries.get key).isSome then
    entries.map fun entry => if entry.1 = some key then (entry.1, value) else entry
  else entries ++ [(some key, value)]

/-- A field copied into the metadata, unless it is `None`. -/
def copyIntoMetadata (record : Entries F) (metadata : Entries F) (key : String) : Entries F :=
  match Entries.read record key with
  | .none => metadata
  | value => metadata.set key value

/-- `float(score)`, for a number; `zero` is `0.0`. -/
def decodedConfidence (toFloat : Int → Except String F) (zero : F) : PyValue F → Except String F
  | .int n => toFloat n
  | .float x => .ok x
  | _ => .ok zero

/-- One turn of the loop over the records. -/
def decodeRecord (toFloat : Int → Except String F) (zero : F) :
    PyValue F → Except String (DecodedEvidence F)
  | .mapping record =>
    match Entries.read record "content", Entries.read record "source_filename" with
    | .str content, .str source => do
      let confidence ← decodedConfidence toFloat zero (Entries.read record "similarity_score")
      let metadata :=
        match Entries.read record "metadata" with
        | .mapping entries => entries
        | _ => []
      let company :=
        match Entries.read record "company" with
        | .str company => company
        | _ => ""
      return { content := content, source := source, company := company, confidence := confidence,
               metadata := ["document_id", "chunk_id", "page", "rank"].foldl (copyIntoMetadata record)
                 metadata }
    | _, _ => .error "retrieval tool returned incomplete evidence"
  | _ => .error "retrieval tool returned an invalid evidence record"

/-- `evidence_from_tool_output`. -/
def evidenceFromToolOutput (toFloat : Int → Except String F) (zero : F) :
    PyValue F → Except String (List (DecodedEvidence F))
  | .mapping output =>
    match Entries.read output "evidence" with
    | .list records => records.mapM (decodeRecord toFloat zero)
    | _ => .error "retrieval tool output is missing evidence records"
  | _ => .error "retrieval tool returned a non-mapping output"

end FinancialRag.Agent
