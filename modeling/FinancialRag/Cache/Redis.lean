/-
  The Redis commands that the session cache sends, and what they do to the keyspace.

  A client call is a sequence of commands on ONE connection.  Each command may be answered, may be lost
  before the server sees it, or may be executed without its answer ever arriving; in the last two
  cases, and when the server answers with an error, the client raises.  A command whose arguments UTF-8
  cannot encode is never sent.  The keyspace outlives the exception: `Redis` is a state UNDER an error.

  Time to live is left to the environment: an entry may vanish between any two calls.
-/
import FinancialRag.Lib.Dict
import FinancialRag.Lib.Glob

set_option linter.unusedVariables false

namespace FinancialRag.Cache

/-- A tenant's user. -/
structure Principal where
  tenantId : Int
  userId : Int
  deriving DecidableEq

/-- A string value: its text, and FOR THE STATEMENTS ONLY which call saved it and when.  No command reads
    the last four. -/
structure Entry where
  data : PyStr
  savedBy : Principal
  threadId : PyStr
  requestKey : Option PyStr
  savedAt : Nat
  deriving DecidableEq

inductive Value where
  | string (entry : Entry)
  | set (members : List PyStr)
  deriving DecidableEq

abbrev Keyspace : Type := Dict PyStr Value

/-- How the exchange of one command goes. -/
inductive Wire where
  | answered
  | lost
  | unanswered
  deriving DecidableEq

abbrev Redis : Type → Type := ExceptT String (StateM Keyspace)

/-- `UnicodeEncodeError`. -/
def surrogatesNotAllowed : String := "'utf-8' codec can't encode character: surrogates not allowed"

def connectionError : String := "Error while reading from socket"

def wrongType : String := "WRONGTYPE Operation against a key holding the wrong kind of value"

/-- One command: its arguments, and what the server does. -/
def command {α : Type} (wire : Wire) (arguments : List PyStr)
    (effect : Keyspace → Except String (α × Keyspace)) : Redis α := fun ks =>
  if arguments.all PyStr.encodable then
    match wire, effect ks with
    | .lost, _ => (.error connectionError, ks)
    | .answered, .ok (a, ks') => (.ok a, ks')
    | .answered, .error e => (.error e, ks)
    | .unanswered, .ok (_, ks') => (.error connectionError, ks')
    | .unanswered, .error _ => (.error connectionError, ks)
  else (.error surrogatesNotAllowed, ks)

/-- `GET`. -/
def get (wire : Wire) (key : PyStr) : Redis (Option PyStr) :=
  command wire [key] fun ks =>
    match ks.get key with
    | none => .ok (none, ks)
    | some (.string entry) => .ok (some entry.data, ks)
    | some (.set _) => .error wrongType

/-- `SETEX`, whatever the key held. -/
def setex (wire : Wire) (key : PyStr) (entry : Entry) : Redis Unit :=
  command wire [key, entry.data] fun ks => .ok ((), ks.set key (.string entry))

/-- `SADD` of one member. -/
def sadd (wire : Wire) (key member : PyStr) : Redis Nat :=
  command wire [key, member] fun ks =>
    match ks.get key with
    | none => .ok (1, ks.set key (.set [member]))
    | some (.set members) =>
      if member ∈ members then .ok (0, ks)
      else .ok (1, ks.set key (.set (members ++ [member])))
    | some (.string _) => .error wrongType

/-- `EXPIRE`. -/
def expire (wire : Wire) (key : PyStr) : Redis Bool :=
  command wire [key] fun ks => .ok ((ks.get key).isSome, ks)

/-- `SREM` of one member; an empty set is no key. -/
def srem (wire : Wire) (key member : PyStr) : Redis Nat :=
  command wire [key, member] fun ks =>
    match ks.get key with
    | none => .ok (0, ks)
    | some (.set members) =>
      if member ∈ members then
        let rest := members.filter fun m => decide (m ≠ member)
        .ok (1, if rest = [] then ks.erase key else ks.set key (.set rest))
      else .ok (0, ks)
    | some (.string _) => .error wrongType

/-- `SMEMBERS`. -/
def smembers (wire : Wire) (key : PyStr) : Redis (List PyStr) :=
  command wire [key] fun ks =>
    match ks.get key with
    | none => .ok ([], ks)
    | some (.set members) => .ok (members, ks)
    | some (.string _) => .error wrongType

/-- `scan_iter(match=pattern)`, over a keyspace that nobody else changes meanwhile. -/
def scanIter (wire : Wire) (pattern : PyStr) : Redis (List PyStr) :=
  command wire [pattern] fun ks => .ok (ks.keys.filter (Glob.glob pattern), ks)

/-- `DEL` of several keys: how many there were. -/
def delete (wire : Wire) (keys : List PyStr) : Redis Nat :=
  command wire keys fun ks =>
    .ok ((keys.filter fun k => (ks.get k).isSome).length, keys.foldl Dict.erase ks)

/-- `EXISTS`. -/
def exists_ (wire : Wire) (key : PyStr) : Redis Bool :=
  command wire [key] fun ks => .ok ((ks.get key).isSome, ks)

/-- A command that succeeds has been executed. -/
theorem command_eq_ok {α : Type} {wire : Wire} {arguments : List PyStr}
    {effect : Keyspace → Except String (α × Keyspace)} {ks : Keyspace} {a : α}
    (h : (command wire arguments effect ks).1 = .ok a) :
    effect ks = .ok (a, (command wire arguments effect ks).2) := by
  unfold command at h ⊢
  split
  · rename_i hencodable
    rw [if_pos hencodable] at h
    split at h
    · cases h
    · rename_i heffect
      cases h
      exact heffect
    · cases h
    · cases h
    · cases h
  · rename_i hencodable
    rw [if_neg hencodable] at h
    cases h

/-- Only an answered command succeeds. -/
theorem command_wire {α : Type} {wire : Wire} {arguments : List PyStr}
    {effect : Keyspace → Except String (α × Keyspace)} {ks : Keyspace} {a : α}
    (h : (command wire arguments effect ks).1 = .ok a) : wire = .answered := by
  unfold command at h
  split at h
  · split at h
    · cases h
    · rfl
    · rfl
    · cases h
    · cases h
  · cases h

/-- A command with its answer does what the server does. -/
theorem command_answered {α : Type} {arguments : List PyStr}
    {effect : Keyspace → Except String (α × Keyspace)} {ks ks' : Keyspace} {a : α}
    (hencodable : arguments.all PyStr.encodable = true) (heffect : effect ks = .ok (a, ks')) :
    command .answered arguments effect ks = (.ok a, ks') := by
  unfold command
  rw [if_pos hencodable, heffect]

/-- A sequence of commands succeeds when each does. -/
theorem redis_bind_eq_ok {α β : Type} {call : Redis α} {next : α → Redis β} {ks : Keyspace} {b : β}
    (h : ((call >>= next) ks).1 = .ok b) :
    ∃ a, (call ks).1 = .ok a ∧ (next a (call ks).2).1 = .ok b := by
  have hcont : ((ExceptT.bindCont next (call ks).1) (call ks).2).1 = .ok b := h
  cases hresult : (call ks).1 with
  | ok a =>
    rw [hresult] at hcont
    exact ⟨a, rfl, hcont⟩
  | error e =>
    rw [hresult] at hcont
    cases hcont

/-- And goes on where the first has left the keyspace. -/
theorem redis_bind {α β : Type} {call : Redis α} {next : α → Redis β} {ks ks' : Keyspace} {a : α}
    (h : call ks = (.ok a, ks')) : (call >>= next) ks = next a ks' := by
  show (ExceptT.bindCont next (call ks).1) (call ks).2 = _
  rw [h]
  rfl

/-! ## What a call may do -/

/-- From `ks` to `ks'` only the keys of `own` have changed, and a string there was either there before
    or is one that was `written`; every key is encodable if it was before. -/
structure Confined (own : PyStr → Prop) (written : PyStr → Entry → Prop) (ks ks' : Keyspace) : Prop where
  spares : ∀ k, ¬ own k → ks'.get k = ks.get k
  strings : ∀ k entry, ks'.get k = some (.string entry) →
    ks.get k = some (.string entry) ∨ written k entry
  sets : ∀ k members, ks'.get k = some (.set members) → ∀ member ∈ members,
    (∃ members₀, ks.get k = some (.set members₀) ∧ member ∈ members₀) ∨ member.encodable = true
  keys : (∀ k ∈ ks.keys, k.encodable = true) → ∀ k ∈ ks'.keys, k.encodable = true

namespace Confined

variable {own : PyStr → Prop} {written : PyStr → Entry → Prop} {ks ks' ks'' : Keyspace}

theorem refl (ks : Keyspace) : Confined own written ks ks where
  spares := fun _ _ => rfl
  strings := fun _ _ h => Or.inl h
  sets := fun _ members h member hmember => Or.inl ⟨members, h, hmember⟩
  keys := fun h => h

theorem trans (h : Confined own written ks ks') (h' : Confined own written ks' ks'') :
    Confined own written ks ks'' where
  spares := fun k hk => (h'.spares k hk).trans (h.spares k hk)
  strings := by
    intro k entry hget
    rcases h'.strings k entry hget with hbefore | hnew
    · exact h.strings k entry hbefore
    · exact Or.inr hnew
  sets := by
    intro k members hget member hmember
    rcases h'.sets k members hget member hmember with ⟨members₁, hget₁, hmember₁⟩ | hnew
    · exact h.sets k members₁ hget₁ member hmember₁
    · exact Or.inr hnew
  keys := fun hks => h'.keys (h.keys hks)

/-- One key of `own` is set. -/
theorem set {k : PyStr} {v : Value} (hown : own k) (hencodable : k.encodable = true)
    (hwritten : ∀ entry, v = .string entry → written k entry)
    (hmembers : ∀ members, v = .set members → ∀ member ∈ members,
      (∃ members₀, ks.get k = some (.set members₀) ∧ member ∈ members₀) ∨ member.encodable = true) :
    Confined own written ks (ks.set k v) where
  spares := by
    intro k' hk'
    have hne : k' ≠ k := by
      rintro rfl
      exact hk' hown
    rw [Dict.get_set, if_neg hne]
  strings := by
    intro k' entry hget
    rw [Dict.get_set] at hget
    split at hget
    · rename_i heq
      subst heq
      exact Or.inr (hwritten entry (Option.some.inj hget))
    · exact Or.inl hget
  sets := by
    intro k' members hget member hmember
    rw [Dict.get_set] at hget
    split at hget
    · rename_i heq
      subst heq
      exact hmembers members (Option.some.inj hget) member hmember
    · exact Or.inl ⟨members, hget, hmember⟩
  keys := by
    intro hks k' hk'
    obtain ⟨v', hv'⟩ := Dict.mem_keys_iff.mp hk'
    rw [Dict.get_set] at hv'
    split at hv'
    · rename_i heq
      rw [heq]
      exact hencodable
    · exact hks k' (Dict.mem_keys_iff.mpr ⟨v', hv'⟩)

/-- One key of `own` is removed. -/
theorem erase {k : PyStr} (hown : own k) : Confined own written ks (ks.erase k) where
  spares := by
    intro k' hk'
    have hne : k' ≠ k := by
      rintro rfl
      exact hk' hown
    rw [Dict.get_erase, if_neg hne]
  strings := by
    intro k' entry hget
    rw [Dict.get_erase] at hget
    split at hget
    · cases hget
    · exact Or.inl hget
  sets := by
    intro k' members hget member hmember
    rw [Dict.get_erase] at hget
    split at hget
    · cases hget
    · exact Or.inl ⟨members, hget, hmember⟩
  keys := by
    intro hks k' hk'
    obtain ⟨v', hv'⟩ := Dict.mem_keys_iff.mp hk'
    rw [Dict.get_erase] at hv'
    split at hv'
    · cases hv'
    · exact hks k' (Dict.mem_keys_iff.mpr ⟨v', hv'⟩)

theorem foldl_erase {keys : List PyStr} (hown : ∀ k ∈ keys, own k) (ks : Keyspace) :
    Confined own written ks (keys.foldl Dict.erase ks) := by
  induction keys generalizing ks with
  | nil => exact .refl ks
  | cons k keys ih =>
    refine (Confined.erase (hown k List.mem_cons_self)).trans ?_
    exact ih (fun k' hk' => hown k' (List.mem_cons_of_mem _ hk')) (ks.erase k)

end Confined

/-- What is left after several removals. -/
theorem get_foldl_erase (keys : List PyStr) (ks : Keyspace) (k : PyStr) :
    (keys.foldl Dict.erase ks).get k = if k ∈ keys then none else ks.get k := by
  induction keys generalizing ks with
  | nil => rfl
  | cons k' keys ih =>
    rw [List.foldl_cons, ih, Dict.get_erase]
    by_cases hmem : k ∈ keys
    · rw [if_pos hmem, if_pos (List.mem_cons_of_mem _ hmem)]
    · rw [if_neg hmem]
      by_cases hk : k = k'
      · rw [if_pos hk, if_pos (hk ▸ List.mem_cons_self)]
      · rw [if_neg hk, if_neg (List.not_mem_cons_of_ne_of_not_mem hk hmem)]

/-- However the call goes, it keeps to its own keys. -/
def Obeys (own : PyStr → Prop) (written : PyStr → Entry → Prop) {α : Type} (call : Redis α) : Prop :=
  ∀ ks, Confined own written ks (call ks).2

namespace Obeys

variable {own : PyStr → Prop} {written : PyStr → Entry → Prop} {α β : Type}

theorem pure (a : α) : Obeys own written (Pure.pure a : Redis α) := fun ks => .refl ks

theorem throw (e : String) : Obeys own written (MonadExcept.throw e : Redis α) := fun ks => .refl ks

theorem bind {call : Redis α} {next : α → Redis β} (h : Obeys own written call)
    (hnext : ∀ a, Obeys own written (next a)) : Obeys own written (call >>= next) := by
  intro ks
  show Confined own written ks ((ExceptT.bindCont next (call ks).1) (call ks).2).2
  cases hresult : (call ks).1 with
  | ok a => exact (h ks).trans (hnext a (call ks).2)
  | error e => exact h ks

/-- A command that keeps to its own keys when executed. -/
theorem command {wire : Wire} {arguments : List PyStr}
    {effect : Keyspace → Except String (α × Keyspace)}
    (heffect : arguments.all PyStr.encodable = true →
      ∀ ks a ks', effect ks = .ok (a, ks') → Confined own written ks ks') :
    Obeys own written (Cache.command wire arguments effect) := by
  intro ks
  unfold Cache.command
  split
  · rename_i hencodable
    split
    · exact .refl ks
    · rename_i h
      exact heffect hencodable ks _ _ h
    · exact .refl ks
    · rename_i h
      exact heffect hencodable ks _ _ h
    · exact .refl ks
  · exact .refl ks

/-- A command that only reads. -/
theorem reads {wire : Wire} {arguments : List PyStr} {effect : Keyspace → Except String (α × Keyspace)}
    (heffect : ∀ ks a ks', effect ks = .ok (a, ks') → ks' = ks) :
    Obeys own written (Cache.command wire arguments effect) :=
  command fun _ ks a ks' h => heffect ks a ks' h ▸ .refl _

theorem get (wire : Wire) (key : PyStr) : Obeys own written (Cache.get wire key) := by
  refine reads fun ks a ks' h => ?_
  split at h
  · cases h; rfl
  · cases h; rfl
  · cases h

theorem setex {key : PyStr} {entry : Entry} (hown : own key) (hwritten : written key entry)
    (wire : Wire) : Obeys own written (Cache.setex wire key entry) := by
  refine command fun hencodable ks a ks' h => ?_
  cases h
  have hkey : key.encodable = true := by
    rw [List.all_cons, Bool.and_eq_true] at hencodable
    exact hencodable.1
  refine .set hown hkey ?_ ?_
  · rintro entry' ⟨⟩
    exact hwritten
  · intro members habs
    cases habs

theorem sadd {key : PyStr} (hown : own key) (wire : Wire) (member : PyStr) :
    Obeys own written (Cache.sadd wire key member) := by
  refine command fun hencodable ks a ks' h => ?_
  simp only [List.all_cons, List.all_nil, Bool.and_true, Bool.and_eq_true] at hencodable
  split at h
  · cases h
    refine .set hown hencodable.1 (fun _ habs => by cases habs) ?_
    rintro members ⟨⟩ m hm
    rw [List.mem_singleton.mp hm]
    exact Or.inr hencodable.2
  · rename_i members hget
    split at h
    · cases h
      exact .refl ks
    · cases h
      refine .set hown hencodable.1 (fun _ habs => by cases habs) ?_
      rintro members' ⟨⟩ m hm
      rcases List.mem_append.mp hm with hold | hnew
      · exact Or.inl ⟨members, hget, hold⟩
      · rw [List.mem_singleton.mp hnew]
        exact Or.inr hencodable.2
  · cases h

theorem expire (wire : Wire) (key : PyStr) : Obeys own written (Cache.expire wire key) :=
  reads fun ks a ks' h => by cases h; rfl

theorem srem {key : PyStr} (hown : own key) (wire : Wire) (member : PyStr) :
    Obeys own written (Cache.srem wire key member) := by
  refine command fun hencodable ks a ks' h => ?_
  simp only [List.all_cons, List.all_nil, Bool.and_true, Bool.and_eq_true] at hencodable
  split at h
  · cases h
    exact .refl ks
  · rename_i members hget
    split at h
    · cases h
      split
      · exact .erase hown
      · refine .set hown hencodable.1 (fun _ habs => by cases habs) ?_
        rintro members' ⟨⟩ m hm
        exact Or.inl ⟨members, hget, (List.mem_filter.mp hm).1⟩
    · cases h
      exact .refl ks
  · cases h

theorem smembers (wire : Wire) (key : PyStr) : Obeys own written (Cache.smembers wire key) := by
  refine reads fun ks a ks' h => ?_
  split at h
  · cases h; rfl
  · cases h; rfl
  · cases h

theorem scanIter (wire : Wire) (pattern : PyStr) : Obeys own written (Cache.scanIter wire pattern) :=
  reads fun ks a ks' h => by cases h; rfl

theorem delete {keys : List PyStr} (hown : ∀ k ∈ keys, own k) (wire : Wire) :
    Obeys own written (Cache.delete wire keys) := by
  refine command fun _ ks a ks' h => ?_
  cases h
  exact .foldl_erase hown ks

theorem exists_ (wire : Wire) (key : PyStr) : Obeys own written (Cache.exists_ wire key) :=
  reads fun ks a ks' h => by cases h; rfl

end Obeys

end FinancialRag.Cache
