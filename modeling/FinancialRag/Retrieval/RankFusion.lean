/-
  **The fusion of the two channels is reciprocal-rank fusion**, in exact arithmetic.

  The loops fill four dictionaries; `Tally` says what they hold after any number of turns, key by key.
  From there the order of the code, with the number of records as the rank of what is missing, is the
  order of `RankFusion.place`, and the results are the front of `RankFusion.IsFusion`: no key twice,
  nothing better left out, scores between 0 and 1, and no loss of place for a promoted key.
-/
import FinancialRag.Lib.RankFusion
import FinancialRag.Retrieval.Safety

set_option linter.unusedVariables false

namespace FinancialRag.Retrieval

open FinancialRag.Storage
open RankFusion (rank lastIfAbsent share)

/-- The constants of one fusion. -/
def fusionScheme (config : HybridRetrievalConfig ℚ) (lexicalWeight : ℚ) (hlexical : 0 ≤ lexicalWeight) :
    RankFusion.Scheme ℚ where
  offset := (config.rrfK : ℚ)
  first := config.vectorWeight
  second := lexicalWeight
  offset_pos := by exact_mod_cast config.rrfK_pos
  first_nonneg := by simpa [PyFloat.lt] using config.vectorWeight_nonneg
  second_nonneg := hlexical

/-- Result keys in the order of Python's tuples. -/
def keyOrder (k : ResultKey) : String ×ₗ String := toLex k

namespace Fusion

variable {T : PyText} {s : RankFusion.Scheme ℚ} {V L : List ResultKey} {f : Fusion ℚ}

/-! ## What the dictionaries hold -/

/-- The dictionaries once the keys `V` and `L` are counted. -/
structure Tally (s : RankFusion.Scheme ℚ) (V L : List ResultKey) (f : Fusion ℚ) : Prop where
  records : ∀ k, (∃ d, f.records.get k = some d) ↔ k ∈ V ∨ k ∈ L
  scores : ∀ k, f.fusedScores.get k = if k ∈ V ∨ k ∈ L then some (RankFusion.score s V L k) else none
  vectorRanks : ∀ k, f.vectorRanks.get k = rank V k
  lexicalRanks : ∀ k, f.lexicalRanks.get k = rank L k

theorem tally_start (s : RankFusion.Scheme ℚ) : Tally s [] [] start where
  records k := by simp [start]
  scores k := by simp [start]
  vectorRanks k := rfl
  lexicalRanks k := rfl

/-- What a key has been credited so far. -/
theorem Tally.credited (h : Tally s V L f) (k : ResultKey) :
    (f.fusedScores.get k).getD ((0 : Int) : ℚ) = RankFusion.score s V L k := by
  rw [h.scores]
  split
  · rfl
  · rename_i hnot
    obtain ⟨hV, hL⟩ := not_or.mp hnot
    rw [RankFusion.score, RankFusion.rank_of_not_mem hV, RankFusion.rank_of_not_mem hL]
    simp [share]

/-- One more record, whichever channel it is from. -/
theorem records_setDefault {ks ks' : ResultKey → Prop} {records : Dict ResultKey (SearchResult ℚ)}
    {key : ResultKey} (hrecords : ∀ k, (∃ d, records.get k = some d) ↔ ks k)
    (hks : ∀ k, ks' k ↔ ks k ∨ k = key) (d : SearchResult ℚ) (k : ResultKey) :
    (∃ e, (records.setDefault key d).get k = some e) ↔ ks' k := by
  rw [hks, ← hrecords, Dict.get_setDefault]
  by_cases hk : k = key
  · subst hk
    rw [if_pos rfl]
    cases records.get k <;> simp
  · rw [if_neg hk]
    simp [hk]

/-- The rank written at a key's first appearance. -/
theorem ranks_setDefault {keys : List ResultKey} {ranks : Dict ResultKey Nat} {key : ResultKey}
    (hranks : ∀ k, ranks.get k = rank keys k) (hkey : key ∉ keys) (k : ResultKey) :
    (ranks.setDefault key (keys.length + 1)).get k = rank (keys ++ [key]) k := by
  rw [RankFusion.rank_concat hkey, Dict.get_setDefault]
  split
  · rw [hranks, RankFusion.rank_of_not_mem hkey]
    rfl
  · exact hranks k

/-- The scores after a key is credited: its own is `total`, the others' are what they were. -/
theorem Tally.scores_credit (h : Tally s V L f) {V' L' : List ResultKey} {key : ResultKey}
    {weight : ℚ} {rrfK : Int} {rank : Nat} (hmem : ∀ k, k ∈ V' ∨ k ∈ L' ↔ (k ∈ V ∨ k ∈ L) ∨ k = key)
    (hkey : RankFusion.score s V' L' key = RankFusion.score s V L key + weight / ((rrfK + rank : Int) : ℚ))
    (hother : ∀ k, k ≠ key → RankFusion.score s V' L' k = RankFusion.score s V L k) (k : ResultKey) :
    (f.credit key weight rrfK rank).get k =
      if k ∈ V' ∨ k ∈ L' then some (RankFusion.score s V' L' k) else none := by
  unfold credit
  rw [Dict.get_set, h.credited]
  by_cases hk : k = key
  · subst hk
    rw [if_pos rfl, if_pos ((hmem k).mpr (.inr rfl)), hkey]
  · rw [if_neg hk, h.scores, hother k hk]
    have hsame : (k ∈ V' ∨ k ∈ L') ↔ (k ∈ V ∨ k ∈ L) := (hmem k).trans (or_iff_left hk)
    simp only [hsame]

/-- **One turn of the loop over the vector results.** -/
theorem Tally.addVector (h : Tally s V L f) {rrfK : Int} (hoffset : s.offset = rrfK)
    {d : SearchResult ℚ} (hkey : resultKey T d ∉ V) :
    Tally s (V ++ [resultKey T d]) L (addVector T s.first rrfK f (d, V.length + 1)) where
  records := records_setDefault h.records (by simp; tauto) d
  scores := by
    refine h.scores_credit (by simp; tauto) ?_ ?_
    · rw [RankFusion.score, RankFusion.score, RankFusion.rank_concat hkey, if_pos rfl,
        RankFusion.rank_of_not_mem hkey, share, share, hoffset]
      push_cast
      ring
    · intro k hk
      rw [RankFusion.score, RankFusion.score, RankFusion.rank_concat hkey, if_neg hk]
  vectorRanks := ranks_setDefault h.vectorRanks hkey
  lexicalRanks := h.lexicalRanks

/-- **One turn of the loop over the lexical results.** -/
theorem Tally.addLexical (h : Tally s V L f) {rrfK : Int} (hoffset : s.offset = rrfK)
    {d : SearchResult ℚ} (hkey : resultKey T d ∉ L) :
    Tally s V (L ++ [resultKey T d]) (addLexical T s.second rrfK f (d, L.length + 1)) where
  records := records_setDefault h.records (by simp; tauto) d
  scores := by
    refine h.scores_credit (by simp; tauto) ?_ ?_
    · rw [RankFusion.score, RankFusion.score, RankFusion.rank_concat hkey, if_pos rfl,
        RankFusion.rank_of_not_mem hkey, share, share, hoffset]
      push_cast
      ring
    · intro k hk
      rw [RankFusion.score, RankFusion.score, RankFusion.rank_concat hkey, if_neg hk]
  vectorRanks := h.vectorRanks
  lexicalRanks := ranks_setDefault h.lexicalRanks hkey

/-- **After both loops.** -/
theorem tally_build (T : PyText) (s : RankFusion.Scheme ℚ) {rrfK : Int} (hoffset : s.offset = rrfK) {vector lexical : List (SearchResult ℚ)}
    (hV : (vector.map (resultKey T)).Nodup) (hL : (lexical.map (resultKey T)).Nodup) :
    Tally s (vector.map (resultKey T)) (lexical.map (resultKey T))
      (build T s.first s.second rrfK vector lexical) := by
  have hvector : Tally s (vector.map (resultKey T)) []
      ((vector.zipIdx 1).foldl (Fusion.addVector T s.first rrfK) start) := by
    induction vector using List.reverseRecOn with
    | nil => exact tally_start s
    | append_singleton vector d ih =>
      rw [List.map_append, List.map_singleton] at hV ⊢
      obtain ⟨hV, _, hnew⟩ := List.nodup_append.mp hV
      have hkey : resultKey T d ∉ vector.map (resultKey T) :=
        fun h => hnew _ h _ List.mem_cons_self rfl
      have hstep := (ih hV).addVector hoffset hkey
      rw [List.length_map] at hstep
      rw [List.zipIdx_append, List.foldl_append, Nat.add_comm 1]
      exact hstep
  unfold build
  dsimp only
  induction lexical using List.reverseRecOn with
  | nil => exact hvector
  | append_singleton lexical d ih =>
    rw [List.map_append, List.map_singleton] at hL ⊢
    obtain ⟨hL, _, hnew⟩ := List.nodup_append.mp hL
    have hkey : resultKey T d ∉ lexical.map (resultKey T) :=
      fun h => hnew _ h _ List.mem_cons_self rfl
    have hstep := (ih hL).addLexical hoffset hkey
    rw [List.length_map] at hstep
    rw [List.zipIdx_append, List.foldl_append, Nat.add_comm 1]
    exact hstep

/-! ## The order of the code -/

/-- Where an entry belongs in the order of the code. -/
def entryPlace (missing : Nat) (e : Entry ℚ) : ℚᵒᵈ ×ₗ ℕ ×ₗ ℕ ×ₗ String ×ₗ String :=
  toLex (OrderDual.toDual e.score, toLex (e.vectorRank.getD missing,
    toLex (e.lexicalRank.getD missing, keyOrder e.key)))

theorem keyLt_iff (a b : ResultKey) : keyLt a b = true ↔ keyOrder a < keyOrder b := by
  have hlast : PyList.tupleLt [(decide (a.2 = b.2), decide (a.2 < b.2))] = true ↔ a.2 < b.2 := by
    have hend : PyList.tupleLt [] = true ↔ False := by simp [PyList.tupleLt]
    rw [PyList.tupleLt_cons_iff hend]
    simp
  unfold keyLt
  rw [beq_eq_decide, beq_eq_decide, PyList.tupleLt_cons_iff hlast]
  exact Prod.Lex.toLex_lt_toLex.symm

/-- **The key of the sort, as an order.** -/
theorem entryLt_iff (missing : Nat) (a b : Entry ℚ) :
    entryLt missing a b = true ↔ entryPlace missing a < entryPlace missing b := by
  have hkey : PyList.tupleLt [(a.key == b.key, keyLt a.key b.key)] = true ↔
      keyOrder a.key < keyOrder b.key := by
    rw [← keyLt_iff, PyList.tupleLt]
    by_cases heq : a.key = b.key
    · have hirrefl : keyLt b.key b.key = false := by
        rw [Bool.eq_false_iff]
        exact fun h => lt_irrefl _ ((keyLt_iff _ _).mp h)
      simp [heq, PyList.tupleLt, hirrefl]
    · simp [heq]
  unfold entryLt
  dsimp only [PyFloat.eq, PyFloat.lt]
  rw [beq_eq_decide, beq_eq_decide, PyList.tupleLt_cons_iff (PyList.tupleLt_cons_iff
    (PyList.tupleLt_cons_iff hkey))]
  unfold entryPlace
  rw [Prod.Lex.toLex_lt_toLex, Prod.Lex.toLex_lt_toLex, Prod.Lex.toLex_lt_toLex, neg_lt_neg_iff, neg_inj]
  rfl

/-- A number no rank reaches stands for the absent ones. -/
theorem getD_le_iff {missing : Nat} {r r' : Option Nat} (hr : ∀ n, r = some n → n < missing)
    (hr' : ∀ n, r' = some n → n < missing) :
    r.getD missing ≤ r'.getD missing ↔ lastIfAbsent r ≤ lastIfAbsent r' := by
  cases r with
  | none =>
    cases r' with
    | none => simp
    | some n' => simpa [lastIfAbsent] using hr' n' rfl
  | some n =>
    cases r' with
    | none => simpa [lastIfAbsent] using (hr n rfl).le
    | some n' => simp [lastIfAbsent]

theorem getD_eq_iff {missing : Nat} {r r' : Option Nat} (hr : ∀ n, r = some n → n < missing)
    (hr' : ∀ n, r' = some n → n < missing) :
    r.getD missing = r'.getD missing ↔ lastIfAbsent r = lastIfAbsent r' := by
  rw [le_antisymm_iff, getD_le_iff hr hr', getD_le_iff hr' hr, ← le_antisymm_iff]

theorem getD_lt_iff {missing : Nat} {r r' : Option Nat} (hr : ∀ n, r = some n → n < missing)
    (hr' : ∀ n, r' = some n → n < missing) :
    r.getD missing < r'.getD missing ↔ lastIfAbsent r < lastIfAbsent r' := by
  rw [← not_le, getD_le_iff hr' hr, not_le]

/-- The entry the dictionaries give for a key. -/
structure Entry.Counts (s : RankFusion.Scheme ℚ) (V L : List ResultKey) (e : Entry ℚ) : Prop where
  score : e.score = RankFusion.score s V L e.key
  vectorRank : e.vectorRank = rank V e.key
  lexicalRank : e.lexicalRank = rank L e.key

/-- **The order of the code is the order of the places**, for a sentinel above all ranks. -/
theorem entryPlace_lt_iff {missing : Nat} (hV : V.length < missing) (hL : L.length < missing)
    {a b : Entry ℚ} (ha : a.Counts s V L) (hb : b.Counts s V L) :
    entryPlace missing a < entryPlace missing b ↔
      RankFusion.place keyOrder s V L a.key < RankFusion.place keyOrder s V L b.key := by
  have hvector : ∀ k n, rank V k = some n → n < missing :=
    fun k n h => lt_of_le_of_lt (RankFusion.rank_bounds h).2 hV
  have hlexical : ∀ k n, rank L k = some n → n < missing :=
    fun k n h => lt_of_le_of_lt (RankFusion.rank_bounds h).2 hL
  unfold entryPlace RankFusion.place
  rw [ha.score, hb.score, ha.vectorRank, hb.vectorRank, ha.lexicalRank, hb.lexicalRank]
  simp only [Prod.Lex.toLex_lt_toLex]
  rw [getD_lt_iff (hvector _) (hvector _), getD_eq_iff (hvector _) (hvector _),
    getD_lt_iff (hlexical _) (hlexical _), getD_eq_iff (hlexical _) (hlexical _)]

/-- What the dictionaries give for a key that was met. -/
theorem Tally.entry_eq (h : Tally s V L f) {k : ResultKey} (hk : k ∈ V ∨ k ∈ L) :
    ∃ e, f.entry k = .ok e := by
  obtain ⟨d, hd⟩ := (h.records k).mpr hk
  have hscore := h.scores k
  rw [if_pos hk] at hscore
  unfold entry
  rw [hd, hscore]
  exact ⟨_, rfl⟩

theorem Tally.counts (h : Tally s V L f) {k : ResultKey} {e : Entry ℚ} (he : f.entry k = .ok e) :
    e.key = k ∧ e.Counts s V L := by
  unfold entry at he
  split at he
  · rename_i record score hrecord hscore
    cases he
    rw [h.scores, if_pos ((h.records k).mp ⟨_, hrecord⟩)] at hscore
    exact ⟨rfl, (Option.some.inj hscore).symm, h.vectorRanks k, h.lexicalRanks k⟩
  · cases he

/-- **The ordered entries are the fusion of the two rankings.** -/
theorem Tally.ordered (h : Tally s V L f) (hV : V.Nodup) (hL : L.Nodup) :
    ∃ es, f.ordered = .ok es ∧ RankFusion.IsFusion keyOrder s V L (es.map Entry.key) ∧
      ∀ e ∈ es, e.Counts s V L := by
  have hkeys : ∀ k, k ∈ f.records.keys ↔ k ∈ V ∨ k ∈ L := fun k => Dict.mem_keys_iff.trans (h.records k)
  obtain ⟨entries, hentries⟩ := PyList.exists_mapM_eq_ok fun k hk => h.entry_eq ((hkeys k).mp hk)
  have hmap : entries.map Entry.key = f.records.keys := by
    rw [PyList.map_eq_of_mapM_eq_ok hentries (fun k _ e he => (h.counts he).1), List.map_id']
  have hcounts : ∀ e ∈ entries, e.Counts s V L := by
    intro e he
    obtain ⟨k, _, hk⟩ := PyList.exists_of_mem_mapM_eq_ok hentries he
    exact (h.counts hk).2
  -- the sentinel: each ranking is a part of the records
  have hlengthV : V.length < f.records.keys.length + 1 :=
    Nat.lt_succ_of_le (hV.subperm fun k hk => (hkeys k).mpr (.inl hk)).length_le
  have hlengthL : L.length < f.records.keys.length + 1 :=
    Nat.lt_succ_of_le (hL.subperm fun k hk => (hkeys k).mpr (.inr hk)).length_le
  refine ⟨PyList.sorted (entryLt (f.records.keys.length + 1)) entries, ?_, ⟨?_, ?_⟩,
    fun e he => hcounts e (PyList.mem_sorted.mp he)⟩
  · unfold Fusion.ordered
    rw [hentries]
    rfl
  · intro k
    rw [← hkeys, ← hmap]
    exact ((PyList.sorted_perm _ entries).map Entry.key).mem_iff
  · generalize hmissing : f.records.keys.length + 1 = missing at hlengthV hlengthL
    have hsorted := PyList.pairwise_sorted_of_place (entryLt_iff missing) entries
    have hnodup : (PyList.sorted (entryLt missing) entries).Pairwise fun a b => a.key ≠ b.key := by
      have hnodup : (entries.map Entry.key).Nodup := hmap ▸ f.records.nodup_keys
      exact List.pairwise_map.mp (((PyList.sorted_perm _ entries).map Entry.key).nodup_iff.mpr hnodup)
    refine List.pairwise_map.mpr ((hsorted.and hnodup).imp_of_mem ?_)
    rintro a b ha hb ⟨hle, hne⟩
    have ha := hcounts a (PyList.mem_sorted.mp ha)
    have hb := hcounts b (PyList.mem_sorted.mp hb)
    rw [← not_lt, entryPlace_lt_iff hlengthV hlengthL hb ha, not_lt] at hle
    refine lt_of_le_of_ne hle fun heq => hne ?_
    exact congrArg (fun place => ofLex (ofLex (ofLex (ofLex place).2).2).2) heq

end Fusion

/-! ## The results -/

variable {T : PyText} {config : HybridRetrievalConfig ℚ} {vector lexical : List (SearchResult ℚ)}
  {topK : Int} {lexicalWeight : ℚ}

/-- What a caller may rely on for the fusion of two rankings of keys. -/
structure FusedResults (T : PyText) (s : RankFusion.Scheme ℚ) (V L : List ResultKey) (topK : Int)
    (results : List (SearchResult ℚ)) : Prop where
  /-- the first `top_k` keys of the fusion -/
  front : ∃ order, RankFusion.IsFusion keyOrder s V L order ∧
    results.map (resultKey T) = PyList.slice order topK
  /-- no key is repeated -/
  distinct : (results.map (resultKey T)).Nodup
  /-- no omitted key has a strictly higher score than a returned one -/
  optimal : ∀ k, k ∈ V ∨ k ∈ L → k ∉ results.map (resultKey T) → ∀ r ∈ results,
    RankFusion.score s V L k ≤ RankFusion.score s V L (resultKey T r)
  /-- scores are shares of the largest possible one -/
  normalized : ∀ r ∈ results,
    r.score = roundHalfEven
      (RankFusion.score s V L (resultKey T r) / ((s.first + s.second) / (s.offset + 1))) 6
  bounded : ∀ r ∈ results, 0 ≤ r.score ∧ r.score ≤ 1

/-- A share of the largest score, rounded, is between 0 and 1. -/
theorem normalized_mem {s : RankFusion.Scheme ℚ} (hsum : 0 < s.first + s.second) (V L : List ResultKey)
    (k : ResultKey) :
    0 ≤ roundHalfEven (RankFusion.score s V L k / ((s.first + s.second) / (s.offset + 1))) 6 ∧
    roundHalfEven (RankFusion.score s V L k / ((s.first + s.second) / (s.offset + 1))) 6 ≤ 1 := by
  have hoffset := s.offset_pos
  have hmax : 0 < (s.first + s.second) / (s.offset + 1) := by positivity
  have hnonneg := div_nonneg (RankFusion.score_nonneg s V L k) hmax.le
  have hle := (div_le_one hmax).mpr (RankFusion.score_le s V L k)
  exact roundHalfEven_unit hnonneg hle 6

/-- The result of an entry: its score as a share of the largest one. -/
theorem fusedResult_eq (hlexical : 0 ≤ lexicalWeight) (hsum : 0 < config.vectorWeight + lexicalWeight)
    (lexicalByKey : Dict ResultKey (SearchResult ℚ)) {V L : List ResultKey} {e : Fusion.Entry ℚ}
    (he : e.Counts (fusionScheme config lexicalWeight hlexical) V L) :
    ∃ r, fusedResult lexicalByKey
        ((config.vectorWeight + lexicalWeight) / ((config.rrfK + 1 : Int) : ℚ)) lexicalWeight e = .ok r ∧
      r.score = roundHalfEven (RankFusion.score (fusionScheme config lexicalWeight hlexical) V L e.key /
        ((config.vectorWeight + lexicalWeight) / (config.rrfK + 1))) 6 := by
  have hrrfK : (0 : ℚ) < config.rrfK := (fusionScheme config lexicalWeight hlexical).offset_pos
  have hmax : (config.vectorWeight + lexicalWeight) / ((config.rrfK : ℚ) + 1) ≠ 0 :=
    ne_of_gt (by positivity)
  have hdivide : divide e.score ((config.vectorWeight + lexicalWeight) / ((config.rrfK + 1 : Int) : ℚ)) =
      .ok (e.score / ((config.vectorWeight + lexicalWeight) / ((config.rrfK : ℚ) + 1))) := by
    unfold divide
    push_cast
    exact if_neg (by simpa [PyFloat.eq] using hmax)
  unfold fusedResult
  rw [hdivide, he.score]
  exact ⟨_, rfl, rfl⟩

/-- **What the fusion returns, and that it returns.** -/
theorem exists_fusedResults (topK : Int) (hlexical : 0 ≤ lexicalWeight)
    (hsum : 0 < config.vectorWeight + lexicalWeight) (hV : (vector.map (resultKey T)).Nodup)
    (hL : (lexical.map (resultKey T)).Nodup) :
    ∃ results, reciprocalRankFusion T config vector lexical topK lexicalWeight = .ok results ∧
      FusedResults T (fusionScheme config lexicalWeight hlexical) (vector.map (resultKey T))
        (lexical.map (resultKey T)) topK results := by
  have htally : Fusion.Tally (fusionScheme config lexicalWeight hlexical) _ _
      (Fusion.build T config.vectorWeight lexicalWeight config.rrfK vector lexical) :=
    Fusion.tally_build T (fusionScheme config lexicalWeight hlexical) rfl hV hL
  obtain ⟨ordered, hordered, hfusion, hcounts⟩ := htally.ordered hV hL
  have hfront := PyList.slice_prefix ordered topK
  obtain ⟨results, hresults⟩ := PyList.exists_mapM_eq_ok fun e he => by
    obtain ⟨r, hr, _⟩ := fusedResult_eq hlexical hsum
      (Dict.ofList (lexical.map fun r => (resultKey T r, r))) (hcounts e (hfront.subset he))
    exact ⟨r, hr⟩
  have hkeys : results.map (resultKey T) = (PyList.slice ordered topK).map Fusion.Entry.key :=
    PyList.map_eq_of_mapM_eq_ok hresults fun e he r hr =>
      resultKey_fusedResult hordered (hfront.subset he) hr
  have hkeyfront : results.map (resultKey T) <+: ordered.map Fusion.Entry.key := hkeys ▸ hfront.map _
  have hscores : ∀ r ∈ results, r.score = roundHalfEven
      (RankFusion.score (fusionScheme config lexicalWeight hlexical) (vector.map (resultKey T))
        (lexical.map (resultKey T)) (resultKey T r) /
        ((config.vectorWeight + lexicalWeight) / (config.rrfK + 1))) 6 := by
    intro r hr
    obtain ⟨e, he, hfused⟩ := PyList.exists_of_mem_mapM_eq_ok hresults hr
    have he := hfront.subset he
    obtain ⟨r', hr', hscore⟩ := fusedResult_eq hlexical hsum _ (hcounts e he)
    rw [hfused] at hr'
    cases hr'
    rw [resultKey_fusedResult hordered he hfused]
    exact hscore
  refine ⟨results, ?_, ⟨ordered.map Fusion.Entry.key, hfusion, ?_⟩, ?_, ?_, hscores, ?_⟩
  · unfold reciprocalRankFusion
    dsimp only
    rw [hordered]
    exact hresults
  · rw [hkeys, PyList.map_slice]
  · exact hfusion.nodup.sublist hkeyfront.sublist
  · intro k hk hout r hr
    exact hfusion.score_le_of_prefix hkeyfront (List.mem_map_of_mem hr) hk hout
  · intro r hr
    rw [hscores r hr]
    exact normalized_mem (s := fusionScheme config lexicalWeight hlexical) hsum _ _ _

/-- **Reciprocal-rank fusion**: the first `top_k` keys of both lists in the order of their scores and
    ranks, none twice, none better left out, scores between 0 and 1; and a key that is promoted in the
    lists, the others keeping their order, does not move down. -/
theorem reciprocal_rank_fusion (T : PyText) (config : HybridRetrievalConfig ℚ)
    (vector lexical : List (SearchResult ℚ)) (topK : Int) (lexicalWeight : ℚ)
    (hlexical : 0 ≤ lexicalWeight) (hsum : 0 < config.vectorWeight + lexicalWeight)
    (hV : (vector.map (resultKey T)).Nodup) (hL : (lexical.map (resultKey T)).Nodup) :
    ∃ results, reciprocalRankFusion T config vector lexical topK lexicalWeight = .ok results ∧
      FusedResults T (fusionScheme config lexicalWeight hlexical) (vector.map (resultKey T))
        (lexical.map (resultKey T)) topK results ∧
      ∀ (x : ResultKey) (vector' lexical' : List (SearchResult ℚ)),
        (vector'.map (resultKey T)).Nodup → (lexical'.map (resultKey T)).Nodup →
        RankFusion.Promoted x (vector.map (resultKey T)) (vector'.map (resultKey T)) →
        RankFusion.Promoted x (lexical.map (resultKey T)) (lexical'.map (resultKey T)) →
        ∃ results', reciprocalRankFusion T config vector' lexical' topK lexicalWeight = .ok results' ∧
          ∀ p : ℕ, (results.map (resultKey T))[p]? = some x →
            ∃ p' ≤ p, (results'.map (resultKey T))[p']? = some x := by
  obtain ⟨results, hresults, hfused⟩ := exists_fusedResults topK hlexical hsum hV hL
  refine ⟨results, hresults, hfused, ?_⟩
  intro x vector' lexical' hV' hL' hpromotedV hpromotedL
  obtain ⟨results', hresults', hfused'⟩ := exists_fusedResults topK hlexical hsum hV' hL'
  refine ⟨results', hresults', ?_⟩
  intro p hp
  obtain ⟨order, hfusion, hfront⟩ := hfused.front
  obtain ⟨order', hfusion', hfront'⟩ := hfused'.front
  rw [hfront] at hp
  obtain ⟨hlt, hp⟩ := PyList.getElem?_slice.mp hp
  obtain ⟨p', hle, hp'⟩ := hfusion.promoted hfusion' hpromotedV hpromotedL hV hV' hL hL' hp
  -- both orders have the same length, so they are cut at the same place
  have hperm := hfusion.perm_of_promoted hfusion' hpromotedV hpromotedL (List.mem_of_getElem? hp)
  refine ⟨p', hle, ?_⟩
  rw [hfront']
  exact PyList.getElem?_slice.mpr ⟨hperm.length_eq ▸ lt_of_le_of_lt hle hlt, hp'⟩

/-- Two vector results and a lexical one: the passage both channels found leads. -/
theorem reciprocal_rank_fusion_sample :
    ∃ results,
      reciprocalRankFusion .ascii sampleRetriever.config [passage "a" "margin", passage "b" "growth"]
        [passage "b" "growth"] 5 1 = .ok results ∧
      (results.map SearchResult.chunkId == ["b", "a"]) = true ∧
      (results.map (resultKey .ascii)).Nodup := by
  obtain ⟨results, hresults, hfused, _⟩ := reciprocal_rank_fusion .ascii sampleRetriever.config
    [passage "a" "margin", passage "b" "growth"] [passage "b" "growth"] 5 1 (by decide +kernel)
    (by decide +kernel) (by decide +kernel) (by decide +kernel)
  have heval : (reciprocalRankFusion .ascii sampleRetriever.config
      [passage "a" "margin", passage "b" "growth"] [passage "b" "growth"] 5 1).toOption.any
      (fun results => results.map SearchResult.chunkId == ["b", "a"]) = true := by
    decide +kernel
  rw [hresults] at heval
  exact ⟨results, hresults, heval, hfused.distinct⟩

end FinancialRag.Retrieval
