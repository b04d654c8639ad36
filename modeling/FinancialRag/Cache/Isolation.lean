/-
  What one principal's calls of the session cache can see and touch.

  A call reads and writes only keys that begin with ITS tenant and user, each written as a number and
  closed by a colon, whatever follows.  So `principal_isolation` needs nothing of SHA-256: the user's
  part of a key may be any text, a digest or a forged one.
-/
import Mathlib.Data.List.Dedup
import FinancialRag.Cache.Session

set_option linter.unusedVariables false

namespace FinancialRag.Cache

/-! ## Whose keys they are -/

section Keys

variable (sha : Sha256)

/-- The keys that calls of `p` read and write. -/
def Own (p : Principal) (k : PyStr) : Prop :=
  (∃ threadId requestKey, k = variantKey sha p threadId requestKey) ∨
    ∃ threadId, k = indexName sha p threadId

theorem colon_notMem_ofInt (n : Int) : colon ∉ PyStr.ofInt n :=
  PyStr.notMem_ofInt (by decide) (by decide) n

/-- The principal is written at the start of each of its cache keys. -/
theorem variantKey_eq (p : Principal) (threadId : PyStr) (requestKey : Option PyStr) :
    ∃ rest, variantKey sha p threadId requestKey =
      sessionPrefix ++ (PyStr.ofInt p.tenantId ++ colon :: (PyStr.ofInt p.userId ++ colon :: rest)) := by
  cases requestKey with
  | none => exact ⟨threadId, by simp [variantKey, principalPrefix]⟩
  | some requestKey =>
    exact ⟨threadId ++ colon :: (sha.hexdigest requestKey).take 16,
      by simp [variantKey, principalPrefix]⟩

theorem indexName_eq (p : Principal) (threadId : PyStr) :
    indexName sha p threadId = sessionPrefix ++ (PyStr.ofString "index" ++ colon ::
      (PyStr.ofInt p.tenantId ++ colon :: (PyStr.ofInt p.userId ++ colon :: sha.hexdigest threadId))) := by
  simp [indexName]
  rfl

theorem colon_notMem_index : colon ∉ PyStr.ofString "index" := by decide

/-- No tenant is called `index`. -/
theorem ofInt_ne_index (n : Int) : PyStr.ofInt n ≠ PyStr.ofString "index" := by
  intro h
  have hmem : 'i'.codePoint ∈ PyStr.ofInt n := by
    rw [h]
    decide
  exact PyStr.notMem_ofInt (by decide) (by decide) n hmem

/-- A tenant and a user written as numbers are read back in one way. -/
theorem principal_inj {p q : Principal} {rest rest' : PyStr}
    (h : PyStr.ofInt p.tenantId ++ colon :: (PyStr.ofInt p.userId ++ colon :: rest) =
      PyStr.ofInt q.tenantId ++ colon :: (PyStr.ofInt q.userId ++ colon :: rest')) :
    p = q ∧ rest = rest' := by
  obtain ⟨htenant, hafter⟩ :=
    PyText.append_cons_inj (colon_notMem_ofInt p.tenantId) (colon_notMem_ofInt q.tenantId) h
  obtain ⟨huser, hrest⟩ :=
    PyText.append_cons_inj (colon_notMem_ofInt p.userId) (colon_notMem_ofInt q.userId) hafter
  refine ⟨?_, hrest⟩
  obtain ⟨tenant, user⟩ := p
  obtain ⟨tenant', user'⟩ := q
  have htenant' : tenant = tenant' := PyStr.ofInt_injective htenant
  have huser' : user = user' := PyStr.ofInt_injective huser
  rw [htenant', huser']

/-- A cache key and an index key are never the same. -/
theorem variantKey_ne_indexName (p q : Principal) (threadId threadId' : PyStr)
    (requestKey : Option PyStr) : variantKey sha p threadId requestKey ≠ indexName sha q threadId' := by
  intro h
  obtain ⟨rest, hrest⟩ := variantKey_eq sha p threadId requestKey
  rw [hrest, indexName_eq] at h
  have hafter := List.append_cancel_left h
  obtain ⟨htenant, _⟩ := PyText.append_cons_inj (colon_notMem_ofInt p.tenantId) colon_notMem_index hafter
  exact ofInt_ne_index p.tenantId htenant

/-- A cache key tells its principal. -/
theorem variantKey_principal {p q : Principal} {threadId threadId' : PyStr}
    {requestKey requestKey' : Option PyStr}
    (h : variantKey sha p threadId requestKey = variantKey sha q threadId' requestKey') : p = q := by
  obtain ⟨rest, hrest⟩ := variantKey_eq sha p threadId requestKey
  obtain ⟨rest', hrest'⟩ := variantKey_eq sha q threadId' requestKey'
  rw [hrest, hrest'] at h
  exact (principal_inj (List.append_cancel_left h)).1

/-- An index key tells its principal. -/
theorem indexName_principal {p q : Principal} {threadId threadId' : PyStr}
    (h : indexName sha p threadId = indexName sha q threadId') : p = q := by
  rw [indexName_eq, indexName_eq] at h
  have hafter := (PyText.append_cons_inj colon_notMem_index colon_notMem_index
    (List.append_cancel_left h)).2
  exact (principal_inj hafter).1

/-- **No key belongs to two principals.** -/
theorem Own.unique {p q : Principal} {k : PyStr} (hp : Own sha p k) (hq : Own sha q k) : p = q := by
  rcases hp with ⟨t, r, rfl⟩ | ⟨t, rfl⟩ <;> rcases hq with ⟨t', r', h⟩ | ⟨t', h⟩
  · exact variantKey_principal sha h
  · exact absurd h (variantKey_ne_indexName sha p q t t' r)
  · exact absurd h.symm (variantKey_ne_indexName sha q p t' t r')
  · exact indexName_principal sha h

/-- Whatever is found below a base key is a cache key of the same principal. -/
theorem own_of_below {p : Principal} {threadId k : PyStr}
    (h : variantKey sha p threadId none ++ [colon] <+: k) : Own sha p k := by
  obtain ⟨rest, rfl⟩ := h
  refine Or.inl ⟨threadId ++ [colon] ++ rest, none, ?_⟩
  simp [variantKey]

end Keys

/-! ## What a call writes -/

section Calls

variable {sha : Sha256} {S : Type} {codec : Codec S} {p : Principal}
  {written : PyStr → Entry → Prop}

theorem obeys_key (threadId : PyStr) (requestKey : Option PyStr) {α : Type} {next : PyStr → Redis α}
    (hnext : Obeys (Own sha p) written (next (variantKey sha p threadId requestKey))) :
    Obeys (Own sha p) written ((key sha p threadId requestKey : Redis PyStr) >>= next) := by
  unfold key
  split
  · exact hnext
  · exact .throw surrogatesNotAllowed

theorem obeys_indexKey (threadId : PyStr) {α : Type} {next : PyStr → Redis α}
    (hnext : Obeys (Own sha p) written (next (indexName sha p threadId))) :
    Obeys (Own sha p) written ((indexKey sha p threadId : Redis PyStr) >>= next) := by
  unfold indexKey
  split
  · exact hnext
  · exact .throw surrogatesNotAllowed

theorem confined_attempt {own : PyStr → Prop} {α : Type} {call : Redis α} (h : Obeys own written call)
    (default : α) (ks : Keyspace) : Confined own written ks (attempt default call ks).2 := by
  have hks := h ks
  unfold attempt
  split
  · rename_i heq
    rw [heq] at hks
    exact hks
  · rename_i heq
    rw [heq] at hks
    exact hks

end Calls

/-- A call of the cache. -/
inductive Operation (S : Type) where
  | get (threadId : PyStr) (requestKey : Option PyStr)
  | save (threadId : PyStr) (state : S) (requestKey : Option PyStr) (savedAt : Nat)
  | deleteSession (threadId : PyStr) (requestKey : Option PyStr)
  | deleteThread (threadId : PyStr)
  | exists_ (threadId : PyStr) (requestKey : Option PyStr)

inductive Reply (S : Type) where
  | session (state : Option S)
  | flag (value : Bool)
  | deletion (value : Except String ThreadCacheDeletion)

/-- A call of a principal, or an entry that expires. -/
inductive CacheEvent (S : Type) where
  | call (p : Principal) (available : Bool) (wire : Nat → Wire) (operation : Operation S)
  | expires (k : PyStr)

section History

variable (sha : Sha256) {S : Type} (codec : Codec S)

def perform (p : Principal) (available : Bool) (wire : Nat → Wire) :
    Operation S → StateM Keyspace (Reply S)
  | .get threadId requestKey => Reply.session <$> getSession sha codec available wire p threadId requestKey
  | .save threadId state requestKey savedAt =>
    Reply.flag <$> saveSession sha codec available wire p threadId state requestKey savedAt
  | .deleteSession threadId requestKey => Reply.flag <$> deleteSession sha available wire p threadId requestKey
  | .deleteThread threadId => Reply.deletion <$> deleteThread sha available wire p threadId
  | .exists_ threadId requestKey => Reply.flag <$> existsSession sha available wire p threadId requestKey

def applyEvent (ks : Keyspace) : CacheEvent S → Keyspace
  | .call p available wire operation => (perform sha codec p available wire operation ks).2
  | .expires k => ks.erase k

/-- The keyspace after a history. -/
def keyspaceAfter (es : List (CacheEvent S)) : Keyspace := es.foldl (applyEvent sha codec) Dict.empty

/-- What a call may write: a save, its own entry. -/
def Wrote (p : Principal) (operation : Operation S) (k : PyStr) (entry : Entry) : Prop :=
  ∃ threadId state requestKey savedAt data, operation = .save threadId state requestKey savedAt ∧
    codec.dumps state = .ok data ∧ k = variantKey sha p threadId requestKey ∧
    entry = ⟨data, p, threadId, requestKey, savedAt⟩

variable {sha codec}

theorem confined_getSession {written : PyStr → Entry → Prop} {p : Principal} (available : Bool)
    (wire : Nat → Wire) (threadId : PyStr) (requestKey : Option PyStr) (ks : Keyspace) :
    Confined (Own sha p) written ks
      (getSession sha codec available wire p threadId requestKey ks).2 := by
  cases available with
  | false => exact .refl ks
  | true =>
    refine confined_attempt (obeys_key threadId requestKey ?_) none ks
    refine (Obeys.get _ _).bind ?_
    intro data
    split
    · rename_i c rest
      show Obeys _ _ ((codec.loads (c :: rest) : Redis S) >>= _)
      cases codec.loads (c :: rest) with
      | ok state => exact .pure _
      | error e => exact .throw e
    · exact .pure none

theorem confined_saveSession {p : Principal} (available : Bool) (wire : Nat → Wire)
    (threadId : PyStr) (state : S) (requestKey : Option PyStr) (savedAt : Nat) (ks : Keyspace) :
    Confined (Own sha p) (Wrote sha codec p (.save threadId state requestKey savedAt)) ks
      (saveSession sha codec available wire p threadId state requestKey savedAt ks).2 := by
  cases available with
  | false => exact .refl ks
  | true =>
    refine confined_attempt (obeys_key threadId requestKey ?_) false ks
    show Obeys _ _ ((codec.dumps state : Redis PyStr) >>= _)
    cases hdumps : codec.dumps state with
    | error e => exact .throw e
    | ok data =>
      show Obeys _ _ (setex (wire 0) _ ⟨data, p, threadId, requestKey, savedAt⟩ >>= _)
      have hown : Own sha p (variantKey sha p threadId requestKey) := Or.inl ⟨_, _, rfl⟩
      have hindex : Own sha p (indexName sha p threadId) := Or.inr ⟨_, rfl⟩
      refine (Obeys.setex hown ⟨threadId, state, requestKey, savedAt, data, rfl, hdumps, rfl, rfl⟩ _).bind ?_
      intro _
      refine obeys_indexKey threadId ?_
      refine (Obeys.sadd hindex _ _).bind ?_
      intro _
      refine (Obeys.expire _ _).bind ?_
      intro _
      exact .pure true

theorem confined_deleteSession {written : PyStr → Entry → Prop} {p : Principal} (available : Bool)
    (wire : Nat → Wire) (threadId : PyStr) (requestKey : Option PyStr) (ks : Keyspace) :
    Confined (Own sha p) written ks (deleteSession sha available wire p threadId requestKey ks).2 := by
  cases available with
  | false => exact .refl ks
  | true =>
    refine confined_attempt (obeys_key threadId requestKey ?_) false ks
    have hown : ∀ k ∈ [variantKey sha p threadId requestKey], Own sha p k := by
      intro k hk
      rw [List.mem_singleton.mp hk]
      exact Or.inl ⟨_, _, rfl⟩
    refine (Obeys.delete hown _).bind ?_
    intro _
    refine obeys_indexKey threadId ?_
    refine (Obeys.srem (Or.inr ⟨_, rfl⟩) _ _).bind ?_
    intro _
    exact .pure true

/-- What is found for deletion belongs to the principal, whoever wrote it. -/
theorem obeys_deleteVariants {written : PyStr → Entry → Prop} {p : Principal} (wire : Nat → Wire)
    (threadId : PyStr) :
    Obeys (Own sha p) written
      (deleteVariants wire (variantKey sha p threadId none) (indexName sha p threadId)) := by
  refine (Obeys.smembers _ _).bind ?_
  intro indexed
  refine (Obeys.scanIter _ _).bind ?_
  intro found
  refine (Obeys.delete ?_ _).bind ?_
  · intro k hk
    rw [List.mem_dedup, List.mem_append, List.mem_cons] at hk
    rcases hk with (rfl | hindexed) | hmatched
    · exact Or.inl ⟨_, _, rfl⟩
    · have htest := (List.mem_filter.mp hindexed).2
      rw [Bool.or_eq_true, beq_iff_eq, PyStr.startsWith_iff] at htest
      rcases htest with rfl | hbelow
      · exact Or.inl ⟨_, _, rfl⟩
      · exact own_of_below sha hbelow
    · exact own_of_below sha (PyStr.startsWith_iff.mp (List.mem_filter.mp hmatched).2)
  · intro _
    refine (Obeys.delete ?_ _).bind ?_
    · intro k hk
      rw [List.mem_singleton.mp hk]
      exact Or.inr ⟨_, rfl⟩
    · intro _
      exact .pure _

theorem confined_deleteThread {written : PyStr → Entry → Prop} {p : Principal} (available : Bool)
    (wire : Nat → Wire) (threadId : PyStr) (ks : Keyspace) :
    Confined (Own sha p) written ks (deleteThread sha available wire p threadId ks).2 := by
  cases available with
  | false => exact .refl ks
  | true =>
    unfold deleteThread indexKey
    simp only [Bool.not_true, Bool.false_eq_true, if_false]
    cases threadId.encodable with
    | false => exact .refl ks
    | true => exact confined_attempt (obeys_deleteVariants wire threadId) _ ks

theorem confined_existsSession {written : PyStr → Entry → Prop} {p : Principal} (available : Bool)
    (wire : Nat → Wire) (threadId : PyStr) (requestKey : Option PyStr) (ks : Keyspace) :
    Confined (Own sha p) written ks (existsSession sha available wire p threadId requestKey ks).2 := by
  cases available with
  | false => exact .refl ks
  | true => exact confined_attempt (obeys_key threadId requestKey (Obeys.exists_ _ _)) false ks

/-- **The call lemma.**  However a call goes, it changes only keys of its principal, and writes at most
    the entry it was told to save. -/
theorem confined_perform (sha : Sha256) (codec : Codec S) (p : Principal) (available : Bool) (wire : Nat → Wire)
    (operation : Operation S) (ks : Keyspace) :
    Confined (Own sha p) (Wrote sha codec p operation) ks
      (perform sha codec p available wire operation ks).2 := by
  cases operation with
  | get threadId requestKey => exact confined_getSession available wire threadId requestKey ks
  | save threadId state requestKey savedAt =>
    exact confined_saveSession available wire threadId state requestKey savedAt ks
  | deleteSession threadId requestKey => exact confined_deleteSession available wire threadId requestKey ks
  | deleteThread threadId => exact confined_deleteThread available wire threadId ks
  | exists_ threadId requestKey => exact confined_existsSession available wire threadId requestKey ks

/-- Each entry stands at the key of the call that saved it, and what is in the keyspace can be sent. -/
structure Placed (sha : Sha256) (ks : Keyspace) : Prop where
  entries : ∀ k entry, ks.get k = some (.string entry) →
    k = variantKey sha entry.savedBy entry.threadId entry.requestKey
  keys : ∀ k ∈ ks.keys, k.encodable = true
  members : ∀ k members, ks.get k = some (.set members) → ∀ member ∈ members, member.encodable = true

theorem Placed.empty : Placed sha Dict.empty where
  entries := by
    intro k entry habs
    cases habs
  keys := by
    intro k habs
    cases habs
  members := by
    intro k members habs
    cases habs

/-- A confined call that writes entries at their own keys keeps them in place. -/
theorem Placed.of_confined {own : PyStr → Prop} {written : PyStr → Entry → Prop} {ks ks' : Keyspace}
    (h : Placed sha ks) (hconfined : Confined own written ks ks')
    (hwritten : ∀ k entry, written k entry →
      k = variantKey sha entry.savedBy entry.threadId entry.requestKey) : Placed sha ks' := by
  refine ⟨?_, hconfined.keys h.keys, ?_⟩
  · intro k entry hget
    rcases hconfined.strings k entry hget with hold | hnew
    · exact h.entries k entry hold
    · exact hwritten k entry hnew
  · intro k members hget member hmember
    rcases hconfined.sets k members hget member hmember with ⟨members₀, hget₀, hmember₀⟩ | hnew
    · exact h.members k members₀ hget₀ member hmember₀
    · exact hnew

theorem Placed.call {ks : Keyspace} (h : Placed sha ks) (p : Principal) (available : Bool)
    (wire : Nat → Wire) (operation : Operation S) :
    Placed sha (perform sha codec p available wire operation ks).2 := by
  refine h.of_confined (confined_perform sha codec p available wire operation ks) ?_
  rintro k entry ⟨threadId, state, requestKey, savedAt, data, _, _, rfl, rfl⟩
  rfl

theorem Placed.erase {ks : Keyspace} (h : Placed sha ks) (k : PyStr) : Placed sha (ks.erase k) := by
  have hconfined : Confined (fun _ => True) (fun _ _ => False) ks (ks.erase k) := .erase trivial
  exact h.of_confined hconfined fun _ _ habs => habs.elim

/-- The entries were saved by calls of the history. -/
def Saved (codec : Codec S) (es : List (CacheEvent S)) (ks : Keyspace) : Prop :=
  ∀ k entry, ks.get k = some (.string entry) →
    ∃ available wire state, codec.dumps state = .ok entry.data ∧
      .call entry.savedBy available wire
        (.save entry.threadId state entry.requestKey entry.savedAt) ∈ es

theorem Saved.call {es : List (CacheEvent S)} {ks : Keyspace} (h : Saved codec es ks) (p : Principal)
    (available : Bool) (wire : Nat → Wire) (operation : Operation S) :
    Saved codec (es ++ [.call p available wire operation])
      (perform sha codec p available wire operation ks).2 := by
  have hconfined := confined_perform sha codec p available wire operation ks
  intro k entry hget
  rcases hconfined.strings k entry hget with
    hold | ⟨threadId, state, requestKey, savedAt, data, rfl, hdumps, rfl, rfl⟩
  · obtain ⟨available', wire', state, hdumps, hmem⟩ := h k entry hold
    exact ⟨available', wire', state, hdumps, List.mem_append_left _ hmem⟩
  · exact ⟨available, wire, state, hdumps, List.mem_append_right _ List.mem_cons_self⟩

theorem Saved.expires {es : List (CacheEvent S)} {ks : Keyspace} (h : Saved codec es ks) (k : PyStr) :
    Saved codec (es ++ [.expires k]) (ks.erase k) := by
  intro k' entry hget
  rw [Dict.get_erase] at hget
  split at hget
  · cases hget
  · obtain ⟨available, wire, state, hdumps, hmem⟩ := h k' entry hget
    exact ⟨available, wire, state, hdumps, List.mem_append_left _ hmem⟩

/-- What is true of the keyspace after any history. -/
theorem placed_keyspaceAfter (sha : Sha256) (codec : Codec S) (es : List (CacheEvent S)) :
    Placed sha (keyspaceAfter sha codec es) ∧ Saved codec es (keyspaceAfter sha codec es) := by
  unfold keyspaceAfter
  induction es using List.reverseRecOn with
  | nil =>
    refine ⟨.empty, ?_⟩
    intro k entry habs
    cases habs
  | append_singleton es e ih =>
    rw [List.foldl_append]
    obtain ⟨hplaced, hsaved⟩ := ih
    cases e with
    | call p available wire operation =>
      exact ⟨hplaced.call p available wire operation, hsaved.call p available wire operation⟩
    | expires k => exact ⟨hplaced.erase k, hsaved.expires k⟩

/-- A result that is not the default is that of the call. -/
theorem attempt_eq_some {α : Type} {call : Redis (Option α)} {ks : Keyspace} {a : α}
    (h : (attempt none call ks).1 = some a) : (call ks).1 = .ok (some a) := by
  unfold attempt at h
  split at h
  · rename_i heq
    rw [← h]
    exact congrArg Prod.fst heq
  · cases h

/-- What `get_session` returns was read at the key of the call. -/
theorem getSession_eq_some {p : Principal} {available : Bool} {wire : Nat → Wire} {threadId : PyStr}
    {requestKey : Option PyStr} {ks : Keyspace} {state : S}
    (h : (getSession sha codec available wire p threadId requestKey ks).1 = some state) :
    ∃ entry, ks.get (variantKey sha p threadId requestKey) = some (.string entry) ∧
      codec.loads entry.data = .ok state := by
  cases available with
  | false => cases h
  | true =>
    obtain ⟨k, hk, hok⟩ := redis_bind_eq_ok (attempt_eq_some h)
    have hkey : k = variantKey sha p threadId requestKey := by
      unfold key at hk
      split at hk
      · exact (Except.ok.inj hk).symm
      · cases hk
    have hks : ((key sha p threadId requestKey : Redis PyStr) ks).2 = ks := rfl
    rw [hks] at hok
    obtain ⟨data, hget, hok⟩ := redis_bind_eq_ok hok
    have heffect := command_eq_ok hget
    rw [← hkey]
    split at heffect
    · obtain ⟨rfl, _⟩ := Prod.mk.inj (Except.ok.inj heffect)
      cases hok
    · rename_i entry hentry
      obtain ⟨rfl, _⟩ := Prod.mk.inj (Except.ok.inj heffect)
      refine ⟨entry, hentry, ?_⟩
      cases hdata : entry.data with
      | nil =>
        rw [hdata] at hok
        cases hok
      | cons c rest =>
        rw [hdata] at hok
        obtain ⟨state', hloads, hok⟩ := redis_bind_eq_ok hok
        cases hok
        exact hloads
    · cases heffect

/-- **No value and no key crosses from one principal to another.**  After any history, what a call
    returns was saved by an earlier call of the SAME principal, and whatever else the call does, every
    entry and every index of every other principal is as it was. -/
theorem principal_isolation (sha : Sha256) (codec : Codec S) (es : List (CacheEvent S)) (p : Principal)
    (available : Bool) (wire : Nat → Wire) (operation : Operation S) :
    let ks := keyspaceAfter sha codec es
    let outcome := perform sha codec p available wire operation ks
    (∀ state, outcome.1 = .session (some state) →
        ∃ available' wire' threadId saved requestKey savedAt data,
          .call p available' wire' (.save threadId saved requestKey savedAt) ∈ es ∧
          codec.dumps saved = .ok data ∧ codec.loads data = .ok state) ∧
      ∀ q, q ≠ p → ∀ threadId requestKey,
        outcome.2.get (variantKey sha q threadId requestKey) =
            ks.get (variantKey sha q threadId requestKey) ∧
          outcome.2.get (indexName sha q threadId) = ks.get (indexName sha q threadId) := by
  intro ks outcome
  constructor
  · intro state hstate
    cases operation with
    | get threadId requestKey =>
      have hget : (getSession sha codec available wire p threadId requestKey ks).1 = some state := by
        injection hstate
      obtain ⟨entry, hentry, hloads⟩ := getSession_eq_some hget
      obtain ⟨hplaced, hsaved⟩ := placed_keyspaceAfter sha codec es
      obtain ⟨available', wire', saved, hdumps, hmem⟩ := hsaved _ entry hentry
      have hp : p = entry.savedBy := variantKey_principal sha (hplaced.entries _ entry hentry)
      exact ⟨available', wire', entry.threadId, saved, entry.requestKey, entry.savedAt, entry.data,
        hp ▸ hmem, hdumps, hloads⟩
    | save threadId saved requestKey savedAt => cases hstate
    | deleteSession threadId requestKey => cases hstate
    | deleteThread threadId => cases hstate
    | exists_ threadId requestKey => cases hstate
  · intro q hq threadId requestKey
    have hconfined := confined_perform sha codec p available wire operation ks
    have hother : ∀ k, Own sha q k → ¬ Own sha p k := by
      intro k hk habs
      exact hq (Own.unique sha hk habs)
    exact ⟨hconfined.spares _ (hother _ (Or.inl ⟨_, _, rfl⟩)),
      hconfined.spares _ (hother _ (Or.inr ⟨_, rfl⟩))⟩

end History

end FinancialRag.Cache
