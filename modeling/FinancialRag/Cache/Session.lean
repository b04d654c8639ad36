/-
  The session cache (`cache/session.py`), and the check of thread ids at the API
  (`api/schemas/thread.py`).

  SHA-256 and the JSON codec are parameters; of the first only the alphabet of a hex digest is known.
  Each call takes whether a client could be connected at all (`is_redis_available`), and how each of its
  commands goes.
-/
import FinancialRag.Cache.Redis

set_option linter.unusedVariables false

namespace FinancialRag.Cache

/-- `sha256(s.encode("utf-8")).hexdigest()`. -/
structure Sha256 where
  hexdigest : PyStr → PyStr
  isHex : ∀ s, ∀ c ∈ hexdigest s, ∃ d : Char, c = d.codePoint ∧ d ∈ "0123456789abcdef".toList

/-- The digests of some texts, and zeros for every other one. -/
def Sha256.ofTable (table : List (String × String))
    (htable : ∀ row ∈ table, ∀ d ∈ row.2.toList, d ∈ "0123456789abcdef".toList) : Sha256 where
  hexdigest s :=
    match table.find? fun row => decide (PyStr.ofString row.1 = s) with
    | some row => PyStr.ofString row.2
    | none => List.replicate 64 '0'.codePoint
  isHex := by
    intro s c hc
    split at hc
    · rename_i row hrow
      obtain ⟨d, hd, rfl⟩ := List.mem_map.mp hc
      exact ⟨d, rfl, htable row (List.mem_of_find?_eq_some hrow) d hd⟩
    · rw [List.eq_of_mem_replicate hc]
      exact ⟨'0', rfl, by decide⟩

/-- The digits of a table, one after the other. -/
theorem hex_of_all {table : List (String × String)}
    (h : (table.all fun row => row.2.toList.all fun d => "0123456789abcdef".toList.contains d) = true) :
    ∀ row ∈ table, ∀ d ∈ row.2.toList, d ∈ "0123456789abcdef".toList := by
  intro row hrow d hd
  have hdigits := List.all_eq_true.mp h row hrow
  exact List.contains_iff_mem.mp (List.all_eq_true.mp hdigits d hd)

/-- `json.dumps(state, ensure_ascii=False, default=str)` and `json.loads`. -/
structure Codec (S : Type) where
  dumps : S → Except String PyStr
  loads : PyStr → Except String S

def colon : CodePoint := ':'.codePoint

/-- `SESSION_PREFIX`. -/
def sessionPrefix : PyStr := PyStr.ofString "agent:session:"

/-- `f"{SESSION_PREFIX}{tenant_id}:{user_id}:"`. -/
def principalPrefix (p : Principal) : PyStr :=
  sessionPrefix ++ PyStr.ofInt p.tenantId ++ colon :: PyStr.ofInt p.userId ++ [colon]

variable (sha : Sha256)

/-- The key of one request variant of a thread. -/
def variantKey (p : Principal) (threadId : PyStr) : Option PyStr → PyStr
  | none => principalPrefix p ++ threadId
  | some requestKey =>
    principalPrefix p ++ threadId ++ colon :: (sha.hexdigest requestKey).take 16

/-- `_key`. -/
def key (p : Principal) (threadId : PyStr) (requestKey : Option PyStr) : Except String PyStr :=
  if requestKey.all PyStr.encodable then .ok (variantKey sha p threadId requestKey)
  else .error surrogatesNotAllowed

/-- The key of the set that lists the variants of a thread. -/
def indexName (p : Principal) (threadId : PyStr) : PyStr :=
  sessionPrefix ++ PyStr.ofString "index:" ++ PyStr.ofInt p.tenantId ++ colon :: PyStr.ofInt p.userId ++
    colon :: sha.hexdigest threadId

/-- `_index_key`. -/
def indexKey (p : Principal) (threadId : PyStr) : Except String PyStr :=
  if threadId.encodable then .ok (indexName sha p threadId) else .error surrogatesNotAllowed

/-- `_escape_match`. -/
def escapeMatch (value : PyStr) : PyStr :=
  let escaped := PyStr.replaceChar '\\'.codePoint (PyStr.ofString "\\\\") value
  ['*', '?', '['].foldl
    (fun escaped c => PyStr.replaceChar c.codePoint (PyStr.ofString ("\\" ++ c.toString)) escaped) escaped

structure ThreadCacheDeletion where
  successful : Bool
  keysDeleted : Nat
  deriving DecidableEq

/-- `try: ... except Exception: return default`. -/
def attempt {α : Type} (default : α) (call : Redis α) : StateM Keyspace α := fun ks =>
  match call ks with
  | (.ok a, ks') => (a, ks')
  | (.error _, ks') => (default, ks')

variable {S : Type} (codec : Codec S)

/-- `get_session`. -/
def getSession (available : Bool) (wire : Nat → Wire) (p : Principal) (threadId : PyStr)
    (requestKey : Option PyStr) : StateM Keyspace (Option S) :=
  if !available then pure none
  else attempt none do
    let data ← get (wire 0) (← key sha p threadId requestKey)
    match data with
    | some (c :: rest) => return some (← codec.loads (c :: rest))
    | _ => return none

/-- `save_session`; `savedAt` is for the statements only. -/
def saveSession (available : Bool) (wire : Nat → Wire) (p : Principal) (threadId : PyStr) (state : S)
    (requestKey : Option PyStr) (savedAt : Nat) : StateM Keyspace Bool :=
  if !available then pure false
  else attempt false do
    let key ← key sha p threadId requestKey
    setex (wire 0) key ⟨← codec.dumps state, p, threadId, requestKey, savedAt⟩
    let indexKey ← indexKey sha p threadId
    let _ ← sadd (wire 1) indexKey key
    let _ ← expire (wire 2) indexKey
    return true

/-- `delete_session`. -/
def deleteSession (available : Bool) (wire : Nat → Wire) (p : Principal) (threadId : PyStr)
    (requestKey : Option PyStr) : StateM Keyspace Bool :=
  if !available then pure false
  else attempt false do
    let key ← key sha p threadId requestKey
    let _ ← delete (wire 0) [key]
    let _ ← srem (wire 1) (← indexKey sha p threadId) key
    return true

/-- The `try` of `delete_thread`: base key, indexed keys and scanned keys. -/
def deleteVariants (wire : Nat → Wire) (baseKey indexKey : PyStr) : Redis ThreadCacheDeletion := do
  let below := baseKey ++ [colon]
  let indexed ← smembers (wire 0) indexKey
  let indexed := indexed.filter fun k => k == baseKey || k.startsWith below
  let matched ← scanIter (wire 1) (escapeMatch baseKey ++ PyStr.ofString ":*")
  let matched := matched.filter fun k => k.startsWith below
  let deleted ← delete (wire 2) (baseKey :: indexed ++ matched).dedup
  let _ ← delete (wire 3) [indexKey]
  return ⟨true, deleted⟩

/-- `delete_thread`; the index key is computed outside the `try`. -/
def deleteThread (available : Bool) (wire : Nat → Wire) (p : Principal) (threadId : PyStr) :
    StateM Keyspace (Except String ThreadCacheDeletion) :=
  if !available then pure (.ok ⟨true, 0⟩)
  else
    match indexKey sha p threadId with
    | .error e => pure (.error e)
    | .ok indexKey => do
      let deletion ← attempt ⟨false, 0⟩ (deleteVariants wire (variantKey sha p threadId none) indexKey)
      return .ok deletion

/-- `exists`. -/
def existsSession (available : Bool) (wire : Nat → Wire) (p : Principal) (threadId : PyStr)
    (requestKey : Option PyStr) : StateM Keyspace Bool :=
  if !available then pure false
  else attempt false do
    exists_ (wire 0) (← key sha p threadId requestKey)

/-- The id is none of the blank ones, and has no white space around it. -/
def validateThreadId (value : PyStr) : Bool := value.strip != [] && value == value.strip

/-- A thread id that the API accepts: between 1 and 256 characters of Unicode text. -/
def acceptedThreadId (value : PyStr) : Bool :=
  decide (1 ≤ value.length) && decide (value.length ≤ 256) && validateThreadId value && value.encodable

end FinancialRag.Cache
