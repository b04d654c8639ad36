/-
  The corpus for supervised fine-tuning (`training/dataset.py`).

  A document is validated as it was decoded from JSON: the first check that fails is reported with the path of
  the field.  What a successful validation says about the records is at the end (`Checks`,
  `checks_of_parseRecord`).

  A JSON text has no lone surrogates here, so that it can be matched by the patterns.
-/
import FinancialRag.Lib.Dict
import FinancialRag.Lib.Json
import FinancialRag.Lib.PyList
import FinancialRag.Lib.PyText
import FinancialRag.Lib.Regex

set_option linter.unusedVariables false

namespace FinancialRag.Training

/-! ## Documents -/

/-- A decoded value. -/
inductive Value where
  | none
  | bool (b : Bool)
  | int (n : Int)
  | float (x : Double)
  | str (s : String)
  | list (items : List Value)
  | dict (members : List (String × Value))

/-- `d.get(key)`. -/
def get (members : List (String × Value)) (key : String) : Value := (members.lookup key).getD .none

/-- What depends on the interpreter: the text tables, `repr`, `str.isdigit` and `int` of a digit. -/
structure Interpreter where
  text : PyText
  repr : Value → String
  isDigit : Char → Bool
  digitValue : Char → Nat

/-- `TrainingDatasetValidationError`, and the `TypeError` of a value that cannot be a set element. -/
inductive DatasetError where
  | validation (message : String)
  | unhashable
  deriving DecidableEq, Repr

abbrev Checked := Except DatasetError

def invalid {α : Type} (message : String) : Checked α := .error (.validation message)

/-! ## Sensitive texts -/

section Patterns

variable (T : PyText)

def upperLetters : String := "ABCDEFGHIJKLMNOPQRSTUVWXYZ"

def lowerLetters : String := "abcdefghijklmnopqrstuvwxyz"

def asciiDigits : String := "0123456789"

/-- A class without flags. -/
def among (characters : String) (c : Char) : Bool := characters.toList.contains c

/-- A class under `re.IGNORECASE`. -/
def amongCaseless (characters : String) (c : Char) : Bool := characters.toList.any fun x => T.sameCaseless x c

def exactly (s : String) : Re := Re.lit (· == ·) s

def caseless (s : String) : Re := Re.lit T.sameCaseless s

/-- `\b` -/
def wordBoundary : Re := .boundary T.isWord

/-- `p{n}` -/
def times (p : Char → Bool) (n : Nat) : Re := .rep p n (some n) true

/-- `p{n,}` -/
def atLeast (p : Char → Bool) (n : Nat) : Re := .rep p n none true

def privateKeyPattern : Re :=
  .seqs [exactly "-----BEGIN ", .opt (.seq (atLeast (among (upperLetters ++ " ")) 1) (exactly " ")),
    exactly "PRIVATE KEY-----"]

def cloudAccessKeyPattern : Re :=
  .seqs [wordBoundary T, .alt (exactly "AKIA") (exactly "ASIA"), times (among (upperLetters ++ asciiDigits)) 16,
    wordBoundary T]

def githubTokenPattern : Re :=
  .seqs [wordBoundary T, exactly "gh", .oneOf "pousr", exactly "_",
    atLeast (among (upperLetters ++ lowerLetters ++ asciiDigits ++ "_")) 20, wordBoundary T]

def openaiKeyPattern : Re :=
  .seqs [wordBoundary T, exactly "sk-", atLeast (among (upperLetters ++ lowerLetters ++ asciiDigits ++ "_-")) 16,
    wordBoundary T]

/-- `[_-]?` -/
def joiner : Re := .opt (.cls (amongCaseless T "_-"))

def credentialPattern : Re :=
  .seqs [wordBoundary T,
    .alt (.seqs [caseless T "api", joiner T, caseless T "key"])
      (.alt (caseless T "secret")
        (.alt (caseless T "password")
          (.alt (.seqs [caseless T "access", joiner T, caseless T "token"])
            (.seqs [caseless T "auth", joiner T, caseless T "token"])))),
    wordBoundary T, atLeast T.isSpace 0, .cls (amongCaseless T ":="), atLeast T.isSpace 0,
    .cls fun c => !(T.isSpace c || amongCaseless T "<" c), atLeast (fun c => !T.isSpace c) 5]

def bearerPattern : Re :=
  .seqs [wordBoundary T, caseless T "Bearer", atLeast T.isSpace 1,
    atLeast (amongCaseless T (upperLetters ++ lowerLetters ++ asciiDigits ++ "._~-")) 12, wordBoundary T]

/-- `_SENSITIVE_PATTERNS` -/
def sensitivePatterns : List (String × Re) :=
  [("private key", privateKeyPattern), ("cloud access key", cloudAccessKeyPattern T),
    ("GitHub token", githubTokenPattern T), ("OpenAI-style API key", openaiKeyPattern T),
    ("credential assignment", credentialPattern T), ("authorization header", bearerPattern T)]

def emailPattern : Re :=
  .seqs [wordBoundary T, atLeast (amongCaseless T (upperLetters ++ asciiDigits ++ "._%+-")) 1,
    .cls (amongCaseless T "@"), atLeast (amongCaseless T (upperLetters ++ asciiDigits ++ ".-")) 1,
    .cls (amongCaseless T "."), atLeast (amongCaseless T upperLetters) 2, wordBoundary T]

def usSsnPattern : Re :=
  .seqs [.notBehind T.isDecimal, times T.isDecimal 3, exactly "-", times T.isDecimal 2, exactly "-",
    times T.isDecimal 4, .notAhead T.isDecimal]

def cnIdPattern : Re :=
  .seqs [.notBehind (among (asciiDigits ++ upperLetters ++ lowerLetters)), .oneOf "123456789", times T.isDecimal 16,
    .cls fun c => T.isDecimal c || among "Xx" c,
    .notAhead (among (asciiDigits ++ upperLetters ++ lowerLetters))]

def cnPhonePattern : Re :=
  .seqs [.notBehind T.isDecimal, exactly "1", .oneOf "3456789", times T.isDecimal 9, .notAhead T.isDecimal]

/-- `[ .-]?\d{3,4}` -/
def phoneGroup : Re := .seq (.opt (.oneOf " .-")) (.rep T.isDecimal 3 (some 4) true)

def internationalPhonePattern : Re :=
  .seqs [.notBehind T.isWord, exactly "+", .rep T.isDecimal 1 (some 3) true, phoneGroup T, phoneGroup T, phoneGroup T,
    .notAhead T.isWord]

/-- `\d[ -]?` -/
def cardDigit : Re := .seq (.cls T.isDecimal) (.opt (.oneOf " -"))

def cardCandidatePattern : Re :=
  .seqs [.notBehind T.isDecimal, .between (cardDigit T) 6 12, .cls T.isDecimal, .notAhead T.isDecimal]

end Patterns

section Scan

variable (py : Interpreter)

/-- `_digits` -/
def digits (value : List Char) : List Char := value.filter py.isDigit

/-- What the digit at a place from the right adds to the checksum. -/
def luhnTerm (index number : Nat) : Nat :=
  if index % 2 = 1 then if 9 < number * 2 then number * 2 - 9 else number * 2 else number

/-- `_passes_luhn` -/
def passesLuhn (value : List Char) : Bool :=
  decide (13 ≤ value.length ∧ value.length ≤ 19) &&
    decide ((value.reverse.zipIdx.foldl (fun total digit => total + luhnTerm digit.2 (py.digitValue digit.1)) 0) % 10 = 0)

/-- `_CARD_CANDIDATE_PATTERN.findall`. -/
def cardCandidates (value : List Char) : List (List Char) := (cardCandidatePattern py.text).findallFrom none 0 value

/-- `_scan_sensitive_text`. -/
def scanSensitiveText (value path : String) : Checked Unit :=
  if value = "" then .ok ()
  else
    match (sensitivePatterns py.text).find? fun labelled => labelled.2.search value with
    | some labelled => invalid (path ++ " contains prohibited " ++ labelled.1 ++ "; redact it before training")
    | none =>
      if (emailPattern py.text).search value then
        invalid (path ++ " contains an email address; redact it before training")
      else if (usSsnPattern py.text).search value || (cnIdPattern py.text).search value then
        invalid (path ++ " contains a government identifier; redact it before training")
      else if (cnPhonePattern py.text).search value || (internationalPhonePattern py.text).search value then
        invalid (path ++ " contains a phone number; redact it before training")
      else if (cardCandidates py value.toList).any fun candidate => passesLuhn py (digits py candidate) then
        invalid (path ++ " contains a payment card number; redact it before training")
      else .ok ()

end Scan

/-! ## Records -/

/-- `TrainingMessage`. -/
structure TrainingMessage where
  role : String
  content : String
  deriving DecidableEq

/-- `TrainingExample`. -/
structure TrainingExample where
  id : String
  messages : List TrainingMessage
  metadata : List (String × Value)

/-- `SupervisedDataset`. -/
structure SupervisedDataset where
  schemaVersion : String
  datasetId : String
  records : List TrainingExample
  description : String
  license : String
  metadata : List (String × Value)

/-- `TrainingExample.format_for_causal_lm` -/
def TrainingExample.formatForCausalLm (r : TrainingExample) : String :=
  PyText.join "\n\n" (r.messages.map fun message => "<|" ++ message.role ++ "|>\n" ++ message.content) ++ "\n<|end|>"

/-- `value == name`, for a name. -/
def Value.isText (value : Value) (name : String) : Bool :=
  match value with
  | .str s => decide (s = name)
  | _ => false

/-- `SupervisedDataset.split` -/
def SupervisedDataset.split (dataset : SupervisedDataset) (name : String) : List TrainingExample :=
  dataset.records.filter fun record => (get record.metadata "split").isText name

def allowedTopLevelFields : List String :=
  ["schema_version", "dataset_id", "description", "license", "metadata", "records"]

def allowedRecordFields : List String := ["id", "messages", "metadata"]

def allowedMessageFields : List String := ["role", "content"]

def allowedRoles : List String := ["system", "user", "assistant"]

def allowedSplits : List String := ["train", "validation", "test"]

/-- `_reject_unknown_fields` -/
def rejectUnknownFields (members : List (String × Value)) (allowed : List String) (path : String) : Checked Unit :=
  let unknown := PyList.sorted (fun a b => decide (a < b)) ((members.map Prod.fst).filter fun key => !allowed.contains key)
  if unknown = [] then .ok () else invalid (path ++ " contains unsupported fields: " ++ PyText.join ", " unknown)

/-- `_IDENTIFIER_PATTERN.fullmatch`. -/
def isIdentifier (value : List Char) : Bool :=
  match value with
  | [] => false
  | first :: rest =>
    among (lowerLetters ++ asciiDigits) first && decide (2 ≤ rest.length ∧ rest.length ≤ 127) &&
      rest.all (among (lowerLetters ++ asciiDigits ++ "._-"))

section Records

variable (py : Interpreter)

/-- `_require_identifier` -/
def requireIdentifier (value : Value) (path : String) : Checked String :=
  match value with
  | .str s =>
    if isIdentifier (py.text.strip s).toList then .ok (py.text.strip s)
    else invalid (path ++ " must match '^[a-z0-9][a-z0-9._-]\x7b2,127\x7d$'")
  | _ => invalid (path ++ " must match '^[a-z0-9][a-z0-9._-]\x7b2,127\x7d$'")

/-- `_optional_text` -/
def optionalText (value : Value) (path : String) : Checked String :=
  match value with
  | .str s => if 16000 < s.length then invalid (path ++ " exceeds 16000 characters") else .ok s
  | _ => invalid (path ++ " must be a string")

/-- A string of at most 1000 characters. -/
def isShortString : Value → Bool
  | .str s => decide (s.length ≤ 1000)
  | _ => false

/-- `_validate_json_scalar_or_string_list` -/
def validateScalarOrStringList (value : Value) (path : String) : Checked Value :=
  match value with
  | .none | .bool _ | .int _ | .float _ => .ok value
  | .str s => if 4000 < s.length then invalid (path ++ " exceeds 4000 characters") else .ok value
  | .list items =>
    if items.all isShortString then .ok value
    else invalid (path ++ " must be a JSON scalar or an array of short strings")
  | .dict _ => invalid (path ++ " must be a JSON scalar or an array of short strings")

/-- `_validate_metadata` -/
def validateMetadata (rawMetadata : Value) (path : String) : Checked (List (String × Value)) :=
  match rawMetadata with
  | .dict members =>
    members.mapM fun member =>
      if member.1 = "" ∨ 64 < member.1.length then
        invalid (path ++ " keys must be non-empty strings up to 64 characters")
      else do
        let value ← validateScalarOrStringList member.2 (path ++ "." ++ member.1)
        return (member.1, value)
  | _ => invalid (path ++ " must be an object")

/-- `_scan_metadata_for_sensitive_values` -/
def scanMetadata (metadata : List (String × Value)) (path : String) : Checked Unit :=
  metadata.forM fun member =>
    match member.2 with
    | .str s => scanSensitiveText py s (path ++ "." ++ member.1)
    | .list items =>
      items.zipIdx.forM fun item =>
        match item.1 with
        | .str s => scanSensitiveText py s (path ++ "." ++ member.1 ++ "[" ++ toString item.2 ++ "]")
        | _ => .ok ()
    | _ => .ok ()

/-- One message of `_parse_record`. -/
def parseMessage (rawMessage : Value) (messagePath : String) : Checked TrainingMessage :=
  match rawMessage with
  | .dict members => do
    rejectUnknownFields members allowedMessageFields messagePath
    match get members "role" with
    | .str role =>
      if role ∈ allowedRoles then
        match get members "content" with
        | .str content =>
          if py.text.strip content = "" then invalid (messagePath ++ ".content must be a non-empty string")
          else if 16000 < content.length then invalid (messagePath ++ ".content exceeds 16000 characters")
          else do
            scanSensitiveText py content messagePath
            return ⟨role, content⟩
        | _ => invalid (messagePath ++ ".content must be a non-empty string")
      else invalid (messagePath ++ ".role must be one of ['system', 'user', 'assistant']")
    | _ => invalid (messagePath ++ ".role must be one of ['system', 'user', 'assistant']")
  | _ => invalid (messagePath ++ " must be an object")

/-- The roles that `_validate_conversation_shape` expects one after the other. -/
def alternates (expectedRole : String) : List TrainingMessage → Bool
  | [] => true
  | message :: messages =>
    decide (message.role = expectedRole) && alternates (if expectedRole = "user" then "assistant" else "user") messages

/-- `_validate_conversation_shape` of at least one message. -/
def validateConversationShape (messages : List TrainingMessage) (path : String) : Checked Unit :=
  let firstNonSystem := if (messages.head?.map TrainingMessage.role) = some "system" then 1 else 0
  let turns := messages.drop firstNonSystem
  if turns.any fun message => decide (message.role = "system") then
    invalid (path ++ ".messages may contain a system message only at position 0")
  else if turns.length < 2 then
    invalid (path ++ ".messages must include a user request and assistant target")
  else if !alternates "user" turns then
    invalid (path ++ ".messages must alternate user and assistant messages and end with assistant")
  else if (messages.getLast?.map TrainingMessage.role) ≠ some "assistant" then
    invalid (path ++ ".messages must end with an assistant target")
  else .ok ()

/-- The check of `metadata.split` in `_parse_record`. -/
def checkSplit (metadata : List (String × Value)) (path : String) : Checked Unit :=
  match (metadata.lookup "split").getD (.str "train") with
  | .str split =>
    if split ∈ allowedSplits then .ok ()
    else invalid (path ++ ".metadata.split must be one of ['test', 'train', 'validation']")
  | .list _ | .dict _ => .error .unhashable
  | _ => invalid (path ++ ".metadata.split must be one of ['test', 'train', 'validation']")

/-- `_parse_record` -/
def parseRecord (rawRecord : Value) (index : Nat) : Checked TrainingExample :=
  let path := "records[" ++ toString index ++ "]"
  match rawRecord with
  | .dict members => do
    rejectUnknownFields members allowedRecordFields path
    let recordId ← requireIdentifier py (get members "id") (path ++ ".id")
    let metadata ← validateMetadata ((members.lookup "metadata").getD (.dict [])) (path ++ ".metadata")
    checkSplit metadata path
    match get members "messages" with
    | .list rawMessages =>
      if 2 ≤ rawMessages.length ∧ rawMessages.length ≤ 32 then do
        let messages ← rawMessages.zipIdx.mapM fun rawMessage =>
          parseMessage py rawMessage.1 (path ++ ".messages[" ++ toString rawMessage.2 ++ "]")
        validateConversationShape messages path
        scanMetadata py metadata (path ++ ".metadata")
        return ⟨recordId, messages, metadata⟩
      else invalid (path ++ ".messages must contain between 2 and 32 messages")
    | _ => invalid (path ++ ".messages must be an array")
  | _ => invalid (path ++ " must be an object")

/-- The loop over the records: no id comes twice. -/
def parseRecords (seenIds : List String) : List (Value × Nat) → Checked (List TrainingExample)
  | [] => .ok []
  | rawRecord :: rawRecords => do
    let record ← parseRecord py rawRecord.1 rawRecord.2
    if record.id ∈ seenIds then invalid ("Duplicate record id: " ++ record.id)
    else do
      let records ← parseRecords (record.id :: seenIds) rawRecords
      return record :: records

/-- `parse_supervised_dataset` -/
def parseSupervisedDataset (rawData : Value) (datasetIdHint : String) : Checked SupervisedDataset :=
  match rawData with
  | .dict members => do
    rejectUnknownFields members allowedTopLevelFields "dataset"
    match get members "schema_version" with
    | .str "1.0" => do
      let datasetId ← requireIdentifier py ((members.lookup "dataset_id").getD (.str datasetIdHint)) "dataset_id"
      let description ← optionalText ((members.lookup "description").getD (.str "")) "description"
      let licenseName ← optionalText ((members.lookup "license").getD (.str "")) "license"
      let metadata ← validateMetadata ((members.lookup "metadata").getD (.dict [])) "metadata"
      match get members "records" with
      | .list rawRecords =>
        if rawRecords = [] then invalid "records must contain at least one example"
        else if 100000 < rawRecords.length then invalid "records exceeds the supported maximum of 100000"
        else do
          let records ← parseRecords py [] rawRecords.zipIdx
          scanSensitiveText py description "description"
          scanSensitiveText py licenseName "license"
          scanMetadata py metadata "metadata"
          return ⟨"1.0", datasetId, records, description, licenseName, metadata⟩
      | _ => invalid "records must be a JSON array"
    | schemaVersion =>
      invalid ("Unsupported training dataset schema_version " ++ py.repr schemaVersion ++ "; expected '1.0'")
  | _ => invalid "Training dataset must be a JSON object"

end Records

/-! ## What was accepted -/

section Accepted

variable {py : Interpreter}

theorem not_invalid {α : Type} {message : String} {a : α} : (invalid message : Checked α) ≠ .ok a := by
  intro h
  cases h

/-- A message that was accepted has visible content. -/
theorem content_of_parseMessage {rawMessage : Value} {path : String} {message : TrainingMessage}
    (h : parseMessage py rawMessage path = .ok message) : py.text.strip message.content ≠ "" := by
  unfold parseMessage at h
  split at h
  · obtain ⟨_, -, h⟩ := PyList.bind_eq_ok.mp h
    split at h
    · split at h
      · split at h
        · split at h
          · exact absurd h not_invalid
          · rename_i hvisible
            split at h
            · exact absurd h not_invalid
            · obtain ⟨_, -, h⟩ := PyList.bind_eq_ok.mp h
              obtain rfl := Except.ok.inj h
              exact hvisible
        · exact absurd h not_invalid
      · exact absurd h not_invalid
    · exact absurd h not_invalid
  · exact absurd h not_invalid

/-- **What `_parse_record` has checked** of an example. -/
structure Checks (py : Interpreter) (r : TrainingExample) : Prop where
  split : ∃ path, checkSplit r.metadata path = .ok ()
  visible : ∀ message ∈ r.messages, py.text.strip message.content ≠ ""
  shape : ∃ path, validateConversationShape r.messages path = .ok ()

theorem checks_of_parseRecord {rawRecord : Value} {index : Nat} {r : TrainingExample}
    (h : parseRecord py rawRecord index = .ok r) : Checks py r := by
  unfold parseRecord at h
  simp only at h
  split at h
  · obtain ⟨_, -, h⟩ := PyList.bind_eq_ok.mp h
    obtain ⟨recordId, -, h⟩ := PyList.bind_eq_ok.mp h
    obtain ⟨metadata, -, h⟩ := PyList.bind_eq_ok.mp h
    obtain ⟨_, hsplit, h⟩ := PyList.bind_eq_ok.mp h
    split at h
    · split at h
      · obtain ⟨messages, hmessages, h⟩ := PyList.bind_eq_ok.mp h
        obtain ⟨_, hshape, h⟩ := PyList.bind_eq_ok.mp h
        obtain ⟨_, -, h⟩ := PyList.bind_eq_ok.mp h
        obtain rfl := Except.ok.inj h
        refine ⟨⟨_, hsplit⟩, ?_, ⟨_, hshape⟩⟩
        intro message hmessage
        obtain ⟨rawMessage, -, hparse⟩ := PyList.exists_of_mem_mapM_eq_ok hmessages hmessage
        exact content_of_parseMessage hparse
      · exact absurd h not_invalid
    · exact absurd h not_invalid
  · exact absurd h not_invalid

theorem exists_parseRecord_of_mem {rawRecords : List (Value × Nat)} {seenIds : List String}
    {records : List TrainingExample} (h : parseRecords py seenIds rawRecords = .ok records)
    {r : TrainingExample} (hr : r ∈ records) : ∃ rawRecord index, parseRecord py rawRecord index = .ok r := by
  induction rawRecords generalizing seenIds records with
  | nil =>
    obtain rfl := Except.ok.inj h
    cases hr
  | cons rawRecord rawRecords ih =>
    obtain ⟨record, hrecord, h⟩ := PyList.bind_eq_ok.mp h
    split at h
    · exact absurd h not_invalid
    · obtain ⟨rest, hrest, h⟩ := PyList.bind_eq_ok.mp h
      obtain rfl := Except.ok.inj h
      rcases List.mem_cons.mp hr with rfl | hr
      · exact ⟨_, _, hrecord⟩
      · exact ih hrest hr

/-- **Every record of an accepted dataset has been checked.** -/
theorem checks_of_mem_records {rawData : Value} {hint : String} {dataset : SupervisedDataset}
    (h : parseSupervisedDataset py rawData hint = .ok dataset) {r : TrainingExample} (hr : r ∈ dataset.records) :
    Checks py r := by
  unfold parseSupervisedDataset at h
  split at h
  · obtain ⟨_, -, h⟩ := PyList.bind_eq_ok.mp h
    split at h
    · obtain ⟨_, -, h⟩ := PyList.bind_eq_ok.mp h
      obtain ⟨_, -, h⟩ := PyList.bind_eq_ok.mp h
      obtain ⟨_, -, h⟩ := PyList.bind_eq_ok.mp h
      obtain ⟨_, -, h⟩ := PyList.bind_eq_ok.mp h
      split at h
      · split at h
        · exact absurd h not_invalid
        · split at h
          · exact absurd h not_invalid
          · obtain ⟨records, hrecords, h⟩ := PyList.bind_eq_ok.mp h
            obtain ⟨_, -, h⟩ := PyList.bind_eq_ok.mp h
            obtain ⟨_, -, h⟩ := PyList.bind_eq_ok.mp h
            obtain ⟨_, -, h⟩ := PyList.bind_eq_ok.mp h
            obtain rfl := Except.ok.inj h
            obtain ⟨rawRecord, index, hparse⟩ := exists_parseRecord_of_mem hrecords hr
            exact checks_of_parseRecord hparse
      · exact absurd h not_invalid
    · exact absurd h not_invalid
  · exact absurd h not_invalid

end Accepted

end FinancialRag.Training
