/-
  Which entries `delete_thread` removes.

  Entries are found by their keys alone: the base key of the thread, and whatever lies below it, that is
  begins with the base key and a colon.  The scan is exact (`deleteThread_get`), the pattern being
  escaped; but a thread id may itself hold colons, and then the entries of ANOTHER thread lie below the
  base key too, or one of them stands at it.  `delete_thread_exact_iff` says when none does.
-/
import FinancialRag.Cache.Isolation

set_option linter.unusedVariables false

namespace FinancialRag.Cache

/-! ## The pattern -/

theorem escapeMatch_append (s t : PyStr) : escapeMatch (s ++ t) = escapeMatch s ++ escapeMatch t := by
  unfold escapeMatch
  simp only [List.foldl_cons, List.foldl_nil, PyStr.replaceChar_append]

/-- The four replacements put a backslash before each special character, and before nothing else. -/
theorem escapeMatch_eq (s : PyStr) : escapeMatch s = Glob.escape s := by
  induction s with
  | nil => rfl
  | cons c s ih =>
    have hone : escapeMatch [c] = if Glob.isSpecial c then [Glob.backslash, c] else [c] := by
      by_cases hbackslash : c = '\\'.codePoint
      · subst hbackslash
        decide
      by_cases hstar : c = '*'.codePoint
      · subst hstar
        decide
      by_cases hquestion : c = '?'.codePoint
      · subst hquestion
        decide
      by_cases hbracket : c = '['.codePoint
      · subst hbracket
        decide
      have hplain : Glob.isSpecial c = false := by
        simp [Glob.isSpecial, Glob.backslash, Glob.asterisk, Glob.question, Glob.bracket, hbackslash,
          hstar, hquestion, hbracket]
      rw [hplain]
      simp [escapeMatch, PyStr.replaceChar, hbackslash, hstar, hquestion, hbracket]
    rw [Glob.escape_cons, ← hone, ← ih, ← escapeMatch_append]
    rfl

theorem encodable_escape {s : PyStr} (h : s.encodable = true) : (Glob.escape s).encodable = true := by
  induction s with
  | nil => rfl
  | cons c s ih =>
    have hboth : PyStr.encodable [c] = true ∧ PyStr.encodable s = true := by
      rw [← Bool.and_eq_true, ← PyStr.encodable_append]
      exact h
    rw [Glob.escape_cons, PyStr.encodable_append, ih hboth.2, Bool.and_true]
    split
    · have hpair : PyStr.encodable ([Glob.backslash] ++ [c]) = true := by
        rw [PyStr.encodable_append, hboth.1]
        decide
      exact hpair
    · exact hboth.1

theorem pattern_eq_escape (base : PyStr) :
    escapeMatch base ++ PyStr.ofString ":*" = Glob.escape (base ++ [colon]) ++ [Glob.asterisk] := by
  rw [← escapeMatch_eq, escapeMatch_append, List.append_assoc]
  rfl

/-- The scan finds exactly what lies below the base key. -/
theorem scan_pattern (base k : PyStr) :
    Glob.glob (escapeMatch base ++ PyStr.ofString ":*") k = true ↔ base ++ [colon] <+: k := by
  rw [pattern_eq_escape]
  exact Glob.glob_escaped _ _

/-- **Escaping is exact**: as texts or as their bytes, the pattern matches what begins with the text and a colon,
and the scan of `delete_thread` is a scan for that prefix, whatever the thread is called. -/
theorem escape_match_exact (sha : Sha256) (s : PyStr) :
    (∀ text, Glob.glob (escapeMatch s ++ PyStr.ofString ":*") text = true ↔ s ++ [colon] <+: text) ∧
    (∀ text, Glob.glob (Utf8.encode (escapeMatch s ++ PyStr.ofString ":*")) (Utf8.encode text) = true ↔
      s ++ [colon] <+: text) ∧
    ∀ (wire : Wire) (p : Principal),
      let base := variantKey sha p s none
      scanIter wire (escapeMatch base ++ PyStr.ofString ":*") =
        command wire [escapeMatch base ++ PyStr.ofString ":*"] fun ks =>
          .ok (ks.keys.filter fun k => k.startsWith (base ++ [colon]), ks) := by
  refine ⟨scan_pattern s, fun text => ?_, fun wire p => ?_⟩
  · rw [pattern_eq_escape]
    exact Glob.glob_encoded _ _
  · intro base
    have htest : Glob.glob (escapeMatch base ++ PyStr.ofString ":*") = fun k => k.startsWith (base ++ [colon]) := by
      funext k
      rw [Bool.eq_iff_iff, scan_pattern, PyStr.startsWith_iff]
    unfold scanIter
    rw [htest]

theorem encodable_pattern {base : PyStr} (h : base.encodable = true) :
    (escapeMatch base ++ PyStr.ofString ":*").encodable = true := by
  rw [PyStr.encodable_append, PyStr.encodable_ofString, escapeMatch_eq, encodable_escape h]
  rfl

/-! ## What is removed -/

section Removal

variable {sha : Sha256}

theorem encodable_principalPrefix (p : Principal) : (principalPrefix p).encodable = true := by
  have hcons : ∀ s : PyStr, PyStr.encodable (colon :: s) = PyStr.encodable s := fun s => rfl
  unfold principalPrefix sessionPrefix
  simp only [PyStr.encodable_append, PyStr.encodable_ofString, PyStr.encodable_ofInt, hcons,
    PyStr.encodable_nil, Bool.and_self]

theorem encodable_indexName (sha : Sha256) (p : Principal) (threadId : PyStr) :
    (indexName sha p threadId).encodable = true := by
  have hcons : ∀ s : PyStr, PyStr.encodable (colon :: s) = PyStr.encodable s := fun s => rfl
  have hdigest : (sha.hexdigest threadId).encodable = true := by
    unfold PyStr.encodable
    rw [List.all_eq_true]
    intro c hc
    obtain ⟨d, rfl, _⟩ := sha.isHex threadId c hc
    simp [PyStr.not_isSurrogate_codePoint]
  unfold indexName sessionPrefix
  simp only [PyStr.encodable_append, PyStr.encodable_ofString, PyStr.encodable_ofInt, hcons, hdigest,
    Bool.and_self]

/-- **What `delete_thread` removes**: the base key, all below it, and the index. -/
theorem deleteThread_get {ks : Keyspace} (hplaced : Placed sha ks)
    (p : Principal) {threadId : PyStr} (hencodable : threadId.encodable = true) :
    let base := variantKey sha p threadId none
    let outcome := deleteThread sha true (fun _ => .answered) p threadId ks
    (∃ deleted, outcome.1 = .ok ⟨true, deleted⟩) ∧
      ∀ k, outcome.2.get k =
        if k = base ∨ base ++ [colon] <+: k ∨ k = indexName sha p threadId then none else ks.get k := by
  intro base outcome
  have hbase : base.encodable = true := by
    show (principalPrefix p ++ threadId).encodable = true
    rw [PyStr.encodable_append, encodable_principalPrefix, hencodable]
    rfl
  have hindex := encodable_indexName sha p threadId
  -- the index is no string, so it can be read
  obtain ⟨members, hmembers, hsmembers⟩ : ∃ members : List PyStr,
      (∀ member ∈ members, member.encodable = true) ∧
        smembers .answered (indexName sha p threadId) ks = (.ok members, ks) := by
    have hargument : [indexName sha p threadId].all PyStr.encodable = true := by
      rw [List.all_cons, hindex]
      rfl
    cases hget : ks.get (indexName sha p threadId) with
    | none =>
      refine ⟨[], fun _ habs => absurd habs List.not_mem_nil, command_answered hargument ?_⟩
      rw [hget]
    | some v =>
      cases v with
      | string entry =>
        exact absurd (hplaced.entries _ entry hget).symm (variantKey_ne_indexName sha _ _ _ _ _)
      | set members =>
        refine ⟨members, hplaced.members _ members hget, command_answered hargument ?_⟩
        rw [hget]
  let below := base ++ [colon]
  let indexed := members.filter fun k => k == base || k.startsWith below
  let matched := (ks.keys.filter (Glob.glob (escapeMatch base ++ PyStr.ofString ":*"))).filter
    fun k => k.startsWith below
  let found := (base :: indexed ++ matched).dedup
  have hscan : scanIter .answered (escapeMatch base ++ PyStr.ofString ":*") ks =
      (.ok (ks.keys.filter (Glob.glob (escapeMatch base ++ PyStr.ofString ":*"))), ks) := by
    refine command_answered ?_ rfl
    rw [List.all_cons, encodable_pattern hbase]
    rfl
  have hfound : found.all PyStr.encodable = true := by
    rw [List.all_eq_true]
    intro k hk
    rw [List.mem_dedup, List.mem_append, List.mem_cons] at hk
    rcases hk with (rfl | hindexed) | hmatched
    · exact hbase
    · exact hmembers k (List.mem_filter.mp hindexed).1
    · exact hplaced.keys k (List.mem_filter.mp (List.mem_filter.mp hmatched).1).1
  have hdelete : ∃ deleted, delete .answered found ks = (.ok deleted, found.foldl Dict.erase ks) :=
    ⟨_, command_answered hfound rfl⟩
  obtain ⟨deleted, hdelete⟩ := hdelete
  have hlast : ∃ n, delete .answered [indexName sha p threadId] (found.foldl Dict.erase ks) =
      (.ok n, (found.foldl Dict.erase ks).erase (indexName sha p threadId)) := by
    refine ⟨_, command_answered ?_ rfl⟩
    rw [List.all_cons, hindex]
    rfl
  obtain ⟨n, hlast⟩ := hlast
  have hvariants : deleteVariants (fun _ => .answered) base (indexName sha p threadId) ks =
      (.ok ⟨true, deleted⟩, (found.foldl Dict.erase ks).erase (indexName sha p threadId)) := by
    unfold deleteVariants
    rw [redis_bind hsmembers, redis_bind hscan, redis_bind hdelete, redis_bind hlast]
    rfl
  have houtcome : outcome = (.ok ⟨true, deleted⟩,
      (found.foldl Dict.erase ks).erase (indexName sha p threadId)) := by
    show deleteThread sha true (fun _ => .answered) p threadId ks = _
    unfold deleteThread indexKey
    rw [hencodable]
    show (do
      let deletion ← attempt ⟨false, 0⟩ (deleteVariants (fun _ => .answered) base (indexName sha p threadId))
      return Except.ok deletion : StateM Keyspace (Except String ThreadCacheDeletion)) ks = _
    have hattempt : attempt ⟨false, 0⟩
        (deleteVariants (fun _ => .answered) base (indexName sha p threadId)) ks =
          (⟨true, deleted⟩, (found.foldl Dict.erase ks).erase (indexName sha p threadId)) := by
      unfold attempt
      rw [hvariants]
    show (Except.ok (attempt ⟨false, 0⟩ (deleteVariants _ base _) ks).1,
      (attempt ⟨false, 0⟩ (deleteVariants _ base _) ks).2) = _
    rw [hattempt]
  rw [houtcome]
  refine ⟨⟨deleted, rfl⟩, ?_⟩
  intro k
  rw [Dict.get_erase, get_foldl_erase]
  by_cases hk : k = indexName sha p threadId
  · rw [if_pos hk, if_pos (Or.inr (Or.inr hk))]
  rw [if_neg hk]
  by_cases hbelow : k = base ∨ below <+: k
  · have hremoved : (if k ∈ found then none else ks.get k) = none := by
      split
      · rfl
      · rename_i hnot
        -- what is not found is not there
        cases hget : ks.get k with
        | none => rfl
        | some v =>
          exfalso
          apply hnot
          rw [List.mem_dedup, List.mem_append, List.mem_cons]
          rcases hbelow with rfl | hstart
          · exact Or.inl (Or.inl rfl)
          · refine Or.inr (List.mem_filter.mpr ⟨List.mem_filter.mpr ⟨Dict.mem_keys_iff.mpr ⟨v, hget⟩, ?_⟩,
              PyStr.startsWith_iff.mpr hstart⟩)
            exact (scan_pattern base k).mpr hstart
    rw [hremoved]
    rcases hbelow with hb | hb
    · rw [if_pos (Or.inl hb)]
    · rw [if_pos (Or.inr (Or.inl hb))]
  · have hnot : k ∉ found := by
      intro hmem
      rw [List.mem_dedup, List.mem_append, List.mem_cons] at hmem
      rcases hmem with (hb | hindexed) | hmatched
      · exact hbelow (Or.inl hb)
      · have htest := (List.mem_filter.mp hindexed).2
        rw [Bool.or_eq_true, beq_iff_eq, PyStr.startsWith_iff] at htest
        exact hbelow htest
      · exact hbelow (Or.inr (PyStr.startsWith_iff.mp (List.mem_filter.mp hmatched).2))
    rw [if_neg hnot, if_neg]
    rintro (hb | hb | hb)
    · exact hbelow (Or.inl hb)
    · exact hbelow (Or.inr hb)
    · exact hk hb

/-- A deletion that comes to its end had all its answers. -/
theorem deleteVariants_wire {wire : Nat → Wire} {base index : PyStr} {ks : Keyspace}
    {deletion : ThreadCacheDeletion} (h : (deleteVariants wire base index ks).1 = .ok deletion) :
    deleteVariants wire base index = deleteVariants (fun _ => .answered) base index := by
  obtain ⟨_, hmembers, h⟩ := redis_bind_eq_ok h
  obtain ⟨_, hscan, h⟩ := redis_bind_eq_ok h
  obtain ⟨_, hdelete, h⟩ := redis_bind_eq_ok h
  obtain ⟨_, hlast, _⟩ := redis_bind_eq_ok h
  unfold deleteVariants
  rw [command_wire hmembers, command_wire hscan, command_wire hdelete, command_wire hlast]

/-- **A deletion reported as successful has been complete.** -/
theorem deleteThread_successful {wire : Nat → Wire} {p : Principal} {threadId : PyStr} {ks : Keyspace}
    {deletion : ThreadCacheDeletion}
    (h : (deleteThread sha true wire p threadId ks).1 = .ok deletion)
    (hsuccessful : deletion.successful = true) :
    threadId.encodable = true ∧ deleteThread sha true wire p threadId ks =
      deleteThread sha true (fun _ => .answered) p threadId ks := by
  unfold deleteThread indexKey at h ⊢
  cases hencodable : threadId.encodable with
  | false =>
    rw [hencodable] at h
    cases h
  | true =>
    refine ⟨rfl, ?_⟩
    rw [hencodable] at h
    have hattempt : (attempt ⟨false, 0⟩ (deleteVariants wire (variantKey sha p threadId none)
        (indexName sha p threadId)) ks).1 = deletion := Except.ok.inj h
    unfold attempt at hattempt
    split at hattempt
    · rename_i heq
      show _ = (do
        let deletion ← attempt _ (deleteVariants (fun _ => .answered) _ _)
        return Except.ok deletion : StateM Keyspace (Except String ThreadCacheDeletion)) ks
      rw [← deleteVariants_wire (congrArg Prod.fst heq)]
      rfl
    · subst hattempt
      cases hsuccessful

/-! ## Whose entries these are -/

theorem colon_notMem_digest (requestKey : PyStr) : colon ∉ (sha.hexdigest requestKey).take 16 := by
  intro hmem
  obtain ⟨d, heq, hd⟩ := sha.isHex requestKey colon (List.mem_of_mem_take hmem)
  obtain rfl : ':' = d := PyStr.codePoint_injective heq
  exact absurd hd (by decide)

/-- A text that ends in a colon is a prefix of one with a colon in front of a digest only where it ends
    no later than that colon. -/
theorem prefix_of_digest {t t' digest : PyStr} (hdigest : colon ∉ digest)
    (h : t ++ [colon] <+: t' ++ colon :: digest) : t' = t ∨ t ++ [colon] <+: t' := by
  obtain ⟨rest, hrest⟩ := h
  rw [List.append_assoc, List.singleton_append] at hrest
  rcases List.append_eq_append_iff.mp hrest with ⟨middle, hmiddle, hafter⟩ | ⟨middle, hmiddle, hafter⟩
  · cases middle with
    | nil =>
      rw [List.append_nil] at hmiddle
      exact Or.inl hmiddle
    | cons c middle =>
      obtain ⟨rfl, _⟩ := List.cons.inj hafter
      refine Or.inr ⟨middle, ?_⟩
      rw [hmiddle, List.append_assoc]
      rfl
  · cases middle with
    | nil =>
      rw [List.append_nil] at hmiddle
      exact Or.inl hmiddle.symm
    | cons c middle =>
      -- the digest would hold the colon
      obtain ⟨rfl, htail⟩ := List.cons.inj hafter
      refine absurd ?_ hdigest
      rw [htail]
      exact List.mem_append_right _ List.mem_cons_self

/-- The entry of another thread that deleting `threadId` reaches: its thread id goes on after `threadId`
    and a colon, or `threadId` is its thread id, a colon and the digest of its request. -/
def Shadowed (sha : Sha256) (threadId : PyStr) (entry : Entry) : Prop :=
  threadId ++ [colon] <+: entry.threadId ∨
    ∃ requestKey, entry.requestKey = some requestKey ∧
      threadId = entry.threadId ++ colon :: (sha.hexdigest requestKey).take 16

theorem base_below_iff {p : Principal} {threadId rest : PyStr} :
    variantKey sha p threadId none ++ [colon] <+: principalPrefix p ++ rest ↔
      threadId ++ [colon] <+: rest := by
  show principalPrefix p ++ threadId ++ [colon] <+: _ ↔ _
  rw [List.append_assoc, List.prefix_append_right_inj]

/-- **Which keys are reached**: those of the thread, and those of shadowed entries. -/
theorem reached_iff (p : Principal) (threadId : PyStr) {entry : Entry} (hp : entry.savedBy = p) :
    let base := variantKey sha p threadId none
    let k := variantKey sha entry.savedBy entry.threadId entry.requestKey
    (k = base ∨ base ++ [colon] <+: k ∨ k = indexName sha p threadId) ↔
      entry.threadId = threadId ∨ Shadowed sha threadId entry := by
  obtain ⟨data, savedBy, thread, requestKey, savedAt⟩ := entry
  obtain rfl : savedBy = p := hp
  intro base k
  have hindex : k ≠ indexName sha savedBy threadId := variantKey_ne_indexName sha _ _ _ _ _
  cases requestKey with
  | none =>
    constructor
    · rintro (hk | hk | hk)
      · exact Or.inl (List.append_cancel_left hk)
      · exact Or.inr (Or.inl (base_below_iff.mp hk))
      · exact absurd hk hindex
    · rintro (rfl | hstart | ⟨r, habs, _⟩)
      · exact Or.inl rfl
      · exact Or.inr (Or.inl (base_below_iff.mpr hstart))
      · cases habs
  | some r =>
    have hk : k = principalPrefix savedBy ++ (thread ++ colon :: (sha.hexdigest r).take 16) := by
      show principalPrefix savedBy ++ thread ++ colon :: (sha.hexdigest r).take 16 = _
      rw [List.append_assoc]
    constructor
    · rintro (heq | hstart | habs)
      · rw [hk] at heq
        exact Or.inr (Or.inr ⟨r, rfl, (List.append_cancel_left heq).symm⟩)
      · rw [hk] at hstart
        rcases prefix_of_digest (colon_notMem_digest r) (base_below_iff.mp hstart) with hthread | hbelow
        · exact Or.inl hthread
        · exact Or.inr (Or.inl hbelow)
      · exact absurd habs hindex
    · rintro (hthread | hstart | ⟨r', hr', hthread⟩)
      · refine Or.inr (Or.inl ?_)
        have hthread' : thread = threadId := hthread
        rw [hk, hthread']
        refine base_below_iff.mpr ⟨(sha.hexdigest r).take 16, ?_⟩
        rw [List.append_assoc]
        rfl
      · refine Or.inr (Or.inl ?_)
        rw [hk]
        exact base_below_iff.mpr (hstart.trans (List.prefix_append _ _))
      · left
        obtain rfl : r = r' := Option.some.inj hr'
        rw [hk, ← hthread]
        rfl

end Removal

/-- **When deleting a thread is exact.**  After any history, `delete_thread` removes every entry of the
    thread and no entry of another thread of the principal if and only if it shadows none of them. -/
theorem delete_thread_exact_iff {S : Type} (sha : Sha256) (codec : Codec S) (es : List (CacheEvent S))
    (p : Principal) (threadId : PyStr) (haccepted : acceptedThreadId threadId = true) :
    let ks := keyspaceAfter sha codec es
    let ks' := (deleteThread sha true (fun _ => .answered) p threadId ks).2
    (∀ k entry, ks.get k = some (.string entry) → entry.savedBy = p →
        (entry.threadId = threadId → ks'.get k = none) ∧
          (entry.threadId ≠ threadId → ks'.get k = some (.string entry))) ↔
      ∀ k entry, ks.get k = some (.string entry) → entry.savedBy = p →
        entry.threadId ≠ threadId → ¬ Shadowed sha threadId entry := by
  intro ks ks'
  have hencodable : threadId.encodable = true := by
    unfold acceptedThreadId at haccepted
    rw [Bool.and_eq_true] at haccepted
    exact haccepted.2
  have hplaced : Placed sha ks := (placed_keyspaceAfter sha codec es).1
  have hget := (deleteThread_get hplaced p hencodable).2
  have hreached : ∀ k entry, ks.get k = some (.string entry) → entry.savedBy = p →
      ((k = variantKey sha p threadId none ∨ variantKey sha p threadId none ++ [colon] <+: k ∨
        k = indexName sha p threadId) ↔ entry.threadId = threadId ∨ Shadowed sha threadId entry) := by
    intro k entry hentry hp
    rw [hplaced.entries k entry hentry]
    exact reached_iff p threadId hp
  constructor
  · intro hexact k entry hentry hp hne hshadowed
    have hstays := (hexact k entry hentry hp).2 hne
    rw [hget, if_pos ((hreached k entry hentry hp).mpr (Or.inr hshadowed))] at hstays
    cases hstays
  · intro hclear k entry hentry hp
    constructor
    · intro hthread
      rw [hget, if_pos ((hreached k entry hentry hp).mpr (Or.inl hthread))]
    · intro hne
      rw [hget, if_neg]
      · exact hentry
      · intro habs
        rcases (hreached k entry hentry hp).mp habs with hthread | hshadowed
        · exact hne hthread
        · exact hclear k entry hentry hp hne hshadowed

/-! ### Two threads -/

def sampleSha : Sha256 :=
  .ofTable
    [("a", "ca978112ca1bbdcafac231b39a23dc4da786eff8147c4e72b9807785afee48bb"),
      ("a:b", "6783a31eabf68ccc0660f935c0826282bdd2241f3a80a9f2d10d59aea9ebb5d8"),
      ("b", "3e23e8160039594a33894f6564e1b1348bbd7a0088d42c4acb73eeaed59c009d"),
      ("q", "8e35c2cd3bf6641bdb0e2050b76932cbb2e6034a0ddacc1d9bea82a6ba57f7cf")]
    (hex_of_all (by decide +kernel))

/-- States that are plain texts. -/
def sampleCodec : Codec PyStr where
  dumps s := .ok ('"'.codePoint :: s ++ ['"'.codePoint])
  loads s := .ok (s.drop 1).dropLast

def user9 : Principal := ⟨7, 9⟩

def savedIn (threadId : String) (requestKey : Option String) : CacheEvent PyStr :=
  .call user9 true (fun _ => .answered)
    (.save (PyStr.ofString threadId) (PyStr.ofString "42") (requestKey.map PyStr.ofString) 1)

/-- Deleting `a` spares `b`. -/
theorem delete_a_spares_b :
    let ks := keyspaceAfter sampleSha sampleCodec [savedIn "a" none, savedIn "a" (some "q"), savedIn "b" (some "q")]
    let ks' := (deleteThread sampleSha true (fun _ => .answered) user9 (PyStr.ofString "a") ks).2
    ks.keys.length = 5 ∧ ks'.keys.length = 2 ∧
      ∀ k entry, ks.get k = some (.string entry) → entry.savedBy = user9 →
        (entry.threadId = PyStr.ofString "a" → ks'.get k = none) ∧
          (entry.threadId ≠ PyStr.ofString "a" → ks'.get k = some (.string entry)) := by
  intro ks ks'
  refine ⟨by decide +kernel, by decide +kernel, ?_⟩
  refine (delete_thread_exact_iff sampleSha sampleCodec _ user9 (PyStr.ofString "a")
    (by decide +kernel)).mpr ?_
  intro k entry hentry _ hne hshadowed
  have hmem := Dict.mem_entries_of_get hentry
  have hall : ks.entries.all (fun row => match row.2 with
      | .string entry => decide (entry.threadId = PyStr.ofString "a" ∨ entry.threadId = PyStr.ofString "b")
      | .set _ => true) = true := by decide +kernel
  have hb := List.all_eq_true.mp hall _ hmem
  have hthread : entry.threadId = PyStr.ofString "b" := (of_decide_eq_true hb).resolve_left hne
  unfold Shadowed at hshadowed
  rw [hthread] at hshadowed
  rcases hshadowed with habs | ⟨r, _, habs⟩
  · exact absurd habs (by decide)
  · exact absurd (List.cons.inj habs).1 (by decide)

/-- Deleting `a` removes the answer of thread `a:b`. -/
theorem delete_a_reaches_a_b :
    let ks := keyspaceAfter sampleSha sampleCodec [savedIn "a:b" none]
    let ks' := (deleteThread sampleSha true (fun _ => .answered) user9 (PyStr.ofString "a") ks).2
    acceptedThreadId (PyStr.ofString "a") = true ∧ acceptedThreadId (PyStr.ofString "a:b") = true ∧
      ∃ k entry, ks.get k = some (.string entry) ∧ entry.savedBy = user9 ∧
        entry.threadId = PyStr.ofString "a:b" ∧ ks'.get k = none := by
  refine ⟨by decide +kernel, by decide +kernel,
    PyStr.ofString "agent:session:7:9:a:b",
    ⟨PyStr.ofString "\"42\"", user9, PyStr.ofString "a:b", none, 1⟩, by decide +kernel, rfl, rfl,
    by decide +kernel⟩

end FinancialRag.Cache
