/-
  The windows that `_chunk_block_group` fills with the pieces of a group.

  Each chunk is a run of consecutive pieces (`chunkBlockGroup_runs`).  The buffer of the loop is flushed,
  cut back to its overlap and popped from the front until the next piece fits; all three leave an END of
  the buffer, which is what the library's rule for windows asks for.
-/
import FinancialRag.Ingestion.Chunking

set_option linter.unusedVariables false

namespace FinancialRag.Ingestion

open FinancialRag.Tasks (DocumentChunk)

variable {T : PyText}

/-! ## The size of a window -/

/-- A window fits, or is one piece. -/
def WindowFits (s : ChunkSettings) (window : List ParsedBlock) : Prop :=
  joinedLength window ≤ s.size ∨ window.length = 1

/-- Popping ends with a window that the piece fits into, or with none. -/
theorem windowFits_popUntilFits (s : ChunkSettings) (block : ParsedBlock)
    (current : List ParsedBlock) : WindowFits s (popUntilFits s block current ++ [block]) := by
  induction current with
  | nil => exact Or.inr rfl
  | cons b current ih =>
    rw [popUntilFits]
    split
    · exact ih
    · rename_i hfits
      exact Or.inl (not_lt.mp hfits)

theorem windowFits_blockWindows (s : ChunkSettings) (blocks : List ParsedBlock) :
    ∀ w ∈ blockWindows T s blocks, WindowFits s w.val := by
  refine Segments.forall_mem_windows (P := WindowFits s) ?_ ?_ ?_ ?_
  · exact fun y => Or.inr rfl
  · intro w y hfits
    exact Or.inl (not_lt.mp (of_decide_eq_false hfits))
  · exact fun w y _ => windowFits_popUntilFits s y _
  · exact fun hne => absurd rfl hne

/-- `_joined_length` is the length of the joined texts. -/
theorem length_join (blocks : List ParsedBlock) :
    (PyText.join "\n\n" (blocks.map ParsedBlock.text)).length = joinedLength blocks := by
  have hbreak : ("\n\n" : String).toList.length = 2 := rfl
  induction blocks with
  | nil => rfl
  | cons b blocks ih =>
    cases blocks with
    | nil => simp [PyText.join, joinedLength]
    | cons b' blocks =>
      unfold PyText.join at ih ⊢
      rw [String.length_ofList] at ih ⊢
      rw [List.map_cons, List.map_cons, List.map_cons, List.map_cons, List.intercalate_cons_cons,
        List.length_append, List.length_append, hbreak, String.length_toList]
      rw [List.map_cons, List.map_cons] at ih
      rw [ih]
      simp [joinedLength]
      omega

/-! ## The runs -/

/-- The chunks of a group are the joins of these runs of its pieces. -/
structure BlockRuns (s : ChunkSettings) (pieces : List ParsedBlock) (chunks : List DocumentChunk)
    (bounds : List (Nat × Nat)) : Prop where
  texts : List.Forall₂ (fun chunk b =>
    chunk.text = PyText.join "\n\n" ((Segments.run pieces b).map ParsedBlock.text)) chunks bounds
  inside : ∀ b ∈ bounds, b.1 < b.2 ∧ b.2 ≤ pieces.length
  lastIncreasing : bounds.IsChain fun a b => a.2 < b.2
  firstNondecreasing : bounds.IsChain fun a b => a.1 ≤ b.1
  noGap : bounds.IsChain fun a b => b.1 ≤ a.2
  covered : ∀ i, i < pieces.length → ∃ b ∈ bounds, b.1 ≤ i ∧ i < b.2
  fits : ∀ b ∈ bounds, joinedLength (Segments.run pieces b) ≤ s.size ∨ b.2 = b.1 + 1
  disjoint : s.overlap = 0 → bounds.IsChain fun a b => b.1 = a.2

theorem carry_suffix (s : ChunkSettings) (w : List ParsedBlock) (y : ParsedBlock) :
    popUntilFits s y (overlapBlocks w s.overlap) <:+ w :=
  (popUntilFits_suffix s y _).trans (overlapBlocks_suffix w s.overlap)

theorem carry_eq_nil {s : ChunkSettings} (h : s.overlap = 0) (w : List ParsedBlock)
    (y : ParsedBlock) : popUntilFits s y (overlapBlocks w s.overlap) = [] := by
  unfold overlapBlocks
  rw [if_pos h]
  rfl

/-- Windows that are runs at bounds that follow each other. -/
theorem blockRuns_of_bounds {s : ChunkSettings} {pieces : List ParsedBlock}
    {windows : List (Segments.Window ParsedBlock)} {first : Nat × Nat} {bounds : List (Nat × Nat)}
    (startIndex : Nat) (hfits : ∀ w ∈ windows, WindowFits s w.val)
    (hruns : List.Forall₂ (fun w b => Segments.IsRun pieces w.val b) windows (first :: bounds))
    (hstart : first.1 = 0) (hchain : (first :: bounds).IsChain (Segments.Follows (s.overlap = 0)))
    (hlast : ((first :: bounds).getLast (List.cons_ne_nil _ _)).2 = pieces.length) :
    BlockRuns s pieces (windows.mapIdx fun i w => makeChunk w (startIndex + i)) (first :: bounds) := by
  have hwindow : ∀ b ∈ first :: bounds, ∃ w ∈ windows, Segments.IsRun pieces w.val b :=
    fun b hb => PyList.exists_of_forall₂ (List.Forall₂.flip hruns) hb
  constructor
  · rw [List.forall₂_iff_get] at hruns ⊢
    obtain ⟨hlength, hrun⟩ := hruns
    refine ⟨by rw [List.length_mapIdx, hlength], ?_⟩
    intro i hi hi'
    have hiw : i < windows.length := by rwa [List.length_mapIdx] at hi
    simp only [List.get_eq_getElem, List.getElem_mapIdx]
    have heq := (hrun i hiw hi').eq
    simp only [List.get_eq_getElem] at heq
    rw [← heq]
    rfl
  · intro b hb
    obtain ⟨w, _, hrun⟩ := hwindow b hb
    have hpos : 0 < w.val.length := List.length_pos_iff.mpr w.property
    rw [hrun.length] at hpos
    exact ⟨by omega, hrun.le⟩
  · exact hchain.imp fun _ _ h => h.1
  · exact hchain.imp fun _ _ h => h.2.1
  · exact hchain.imp fun _ _ h => h.2.2.1
  · intro i hi
    exact Segments.exists_bound hchain (by omega) (by omega)
  · intro b hb
    obtain ⟨w, hw, hrun⟩ := hwindow b hb
    rcases hfits w hw with hshort | hone
    · left
      rwa [hrun.eq] at hshort
    · right
      rw [hrun.length] at hone
      omega
  · exact fun h => hchain.imp fun _ _ hfollows => hfollows.2.2.2 h

/-- **The chunks of a group are runs of its pieces.** -/
theorem chunkBlockGroup_runs (T : PyText) (s : ChunkSettings) (blocks : List ParsedBlock)
    (startIndex : Nat) :
    ∃ bounds, BlockRuns s (blocks.flatMap (expandBlock T s)) (chunkBlockGroup T s blocks startIndex)
      bounds := by
  have hfits := windowFits_blockWindows (T := T) s blocks
  have hxs : ∀ (y : ParsedBlock) (ys : List ParsedBlock), y :: ys = [] ++ [y] ++ ys := fun _ _ => rfl
  unfold chunkBlockGroup
  unfold blockWindows at hfits ⊢
  generalize blocks.flatMap (expandBlock T s) = pieces at hfits ⊢
  cases pieces with
  | nil =>
    refine ⟨[], .nil, ?_, .nil, .nil, .nil, ?_, ?_, fun _ => .nil⟩ <;> simp
  | cons y ys =>
    rw [Segments.windows] at hfits ⊢
    obtain ⟨first, bounds, hruns, hstart, _, hchain, hlast⟩ :=
      Segments.exists_bounds (carry_suffix s) (fun h => carry_eq_nil h) (hxs y ys)
        (List.cons_ne_nil y [])
    exact ⟨first :: bounds, blockRuns_of_bounds startIndex hfits hruns hstart hchain hlast⟩

end FinancialRag.Ingestion
