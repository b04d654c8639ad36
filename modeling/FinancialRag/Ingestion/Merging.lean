/-
  Merging the short chunks of a page (`_merge_tiny_page_chunks`).

  The loop walks an index over the list and merges a tiny chunk into its successor, or at the end of the
  list into its predecessor.  `merge_tiny_page_chunks`: it ends; then at most one chunk is left or no tiny
  one; and the normalized paragraphs, each where it FIRST occurs, are the same as before.

  The library has the loop and its two invariants (nothing small is left behind; the list is divided
  into groups).  What is to be shown here is that merging two chunks keeps the first occurrences of both
  (`paragraphKeys_mergeChunks`): the merged text, split again, must give the paragraphs back.
-/
import FinancialRag.Ingestion.Chunking

set_option linter.unusedVariables false

namespace FinancialRag.Ingestion

open FinancialRag.Tasks (DocumentChunk)

variable {T : PyText}

/-! ## The content of a paragraph -/

theorem normalizeContent_strip (hT : T.Spaced) (paragraph : String) :
    normalizeContent T (T.strip paragraph) = normalizeContent T paragraph := by
  obtain ⟨right, hparts, hright⟩ := T.exists_strip paragraph
  have hleft : ∀ c ∈ (String.ofList (paragraph.toList.takeWhile T.isSpace)).toList,
      T.isSpace c = true := by
    intro c hc
    rw [String.toList_ofList] at hc
    exact List.mem_takeWhile_imp hc
  have hright' : ∀ c ∈ (String.ofList right).toList, T.isSpace c = true := by
    rwa [String.toList_ofList]
  have hparagraph : paragraph =
      String.ofList (paragraph.toList.takeWhile T.isSpace) ++ T.strip paragraph ++ String.ofList right := by
    apply String.toList_injective
    rw [String.toList_append, String.toList_append, String.toList_ofList, String.toList_ofList, ← hparts]
  obtain ⟨before, behind, hnfkc, hbefore, hbehind⟩ :=
    hT.nfkc_around _ (T.strip paragraph) _ hleft hright'
  unfold normalizeContent
  rw [← hparagraph] at hnfkc
  rw [hnfkc, String.toList_append, String.toList_append,
    PyText.strip_squeeze_around hT.blank hbefore hbehind]

theorem normalizeContent_empty (hT : T.Spaced) : normalizeContent T "" = "" := by
  unfold normalizeContent
  rw [hT.nfkc_empty]
  exact hT.casefold_empty

/-! ## The paragraphs of a merged chunk -/

/-- The normalized contents of a chunk's paragraphs, as `_merge_chunks` compares them. -/
def paragraphKeys (T : PyText) (chunk : DocumentChunk) : List String :=
  ((PyText.split "\n\n" chunk.text).map (normalizeContent T)).filter fun key => decide (key ≠ "")

/-- A stripped paragraph neither has a paragraph break nor makes one with the break behind it. -/
theorem sepFree_strip (hT : T.Spaced) {text paragraph : String}
    (h : paragraph ∈ PyText.split "\n\n" text) :
    PyText.SepFree ("\n\n" : String).toList (T.strip paragraph).toList := by
  have hbreaks : ("\n\n" : String).toList = ['\n', '\n'] := rfl
  have hinfix := PyText.not_infix_of_mem_split (by decide) h
  rw [hbreaks] at hinfix ⊢
  obtain ⟨right, hparts, _⟩ := T.exists_strip paragraph
  have hstripped : (T.strip paragraph).toList <:+: paragraph.toList := by
    rw [hparts]
    exact List.infix_append _ _ _
  refine PyText.sepFree_double (fun hbreak => hinfix (hbreak.trans hstripped)) ?_
  intro hlast
  have hvisible := (PyText.trimmed_strip (T := T) paragraph).last _ hlast
  rw [hT.newline] at hvisible
  cases hvisible

/-- The paragraphs that merging keeps, before they are stripped. -/
def keptParagraphs (T : PyText) (first second : DocumentChunk) : List String :=
  PyList.keepFirst (normalizeContent T) []
    ((PyText.split "\n\n" first.text ++ PyText.split "\n\n" second.text).filter fun paragraph =>
      decide (normalizeContent T paragraph ≠ ""))

theorem mergedParagraphs_eq (first second : DocumentChunk) :
    mergedParagraphs T first second = (keptParagraphs T first second).map T.strip := rfl

theorem map_keptParagraphs (first second : DocumentChunk) :
    (keptParagraphs T first second).map (normalizeContent T) =
      PyList.firsts (paragraphKeys T first ++ paragraphKeys T second) := by
  unfold keptParagraphs paragraphKeys PyList.firsts
  rw [PyList.map_keepFirst, ← List.filter_append, ← List.map_append, List.filter_map]
  rfl

theorem mem_keptParagraphs {first second : DocumentChunk} {paragraph : String}
    (h : paragraph ∈ keptParagraphs T first second) :
    (∃ text, paragraph ∈ PyText.split "\n\n" text) ∧ normalizeContent T paragraph ≠ "" := by
  have hmem := (PyList.keepFirst_sublist _ _ _).mem h
  obtain ⟨hparagraph, hkey⟩ := List.mem_filter.mp hmem
  refine ⟨?_, of_decide_eq_true hkey⟩
  rcases List.mem_append.mp hparagraph with hfirst | hsecond
  · exact ⟨_, hfirst⟩
  · exact ⟨_, hsecond⟩

/-- **Merging keeps the first occurrences of both.** -/
theorem paragraphKeys_mergeChunks (hT : T.Spaced) (first second : DocumentChunk) :
    paragraphKeys T (mergeChunks T first second) =
      PyList.firsts (paragraphKeys T first ++ paragraphKeys T second) := by
  have htext : (mergeChunks T first second).text =
      PyText.join "\n\n" ((keptParagraphs T first second).map T.strip) := by
    rw [← mergedParagraphs_eq]
    simp only [mergeChunks]
  have hkeys := map_keptParagraphs (T := T) first second
  have hmem : ∀ p ∈ keptParagraphs T first second, _ := fun p hp => mem_keptParagraphs hp
  unfold paragraphKeys at hkeys ⊢
  rw [htext, ← hkeys]
  generalize keptParagraphs T first second = kept at hmem
  by_cases hnone : kept = []
  · subst hnone
    have hempty : PyText.split "\n\n" (PyText.join "\n\n" ([].map T.strip)) = [""] := rfl
    rw [hempty, List.map_singleton, normalizeContent_empty hT]
    rfl
  · have hne : kept.map T.strip ≠ [] := mt List.map_eq_nil_iff.mp hnone
    have hsplit := PyText.split_join_of_free "\n\n" (by decide) hne (by
      intro p hp
      obtain ⟨paragraph, hparagraph, rfl⟩ := List.mem_map.mp hp
      obtain ⟨⟨text, htext⟩, _⟩ := hmem paragraph hparagraph
      exact sepFree_strip hT htext)
    have hsame : (kept.map T.strip).map (normalizeContent T) = kept.map (normalizeContent T) := by
      rw [List.map_map]
      exact List.map_congr_left fun p _ => normalizeContent_strip hT p
    rw [hsplit, hsame]
    refine List.filter_eq_self.mpr ?_
    intro key hkey
    obtain ⟨p, hp, rfl⟩ := List.mem_map.mp hkey
    exact decide_eq_true (hmem p hp).2

/-! ## The loop -/

/-- One round of the loop of `_merge_tiny_page_chunks`. -/
def mergeTinyBody (T : PyText) (minimumChars : Nat) (state : List DocumentChunk × Nat) :
    Option (List DocumentChunk × Nat) :=
  Segments.mergeBody (isTinyChunk T minimumChars) (mergeChunks T) state

theorem isTinyChunk_eq_false {minimumChars : Int} {chunk : DocumentChunk}
    (h : isTinyChunk T minimumChars.toNat chunk = false) :
    minimumChars ≤ (normalizeContent T chunk.text).length ∧ isHeadingOnlyChunk T chunk = false := by
  obtain ⟨hlong, hheading⟩ := Bool.or_eq_false_iff.mp h
  have hle := of_decide_eq_false hlong
  exact ⟨by omega, hheading⟩

/-- The first occurrences over all chunks are those over the groups that were merged. -/
theorem firsts_flatMap_of_forall₂ {groups : List (List String)} {chunks : List DocumentChunk}
    (h : List.Forall₂ (fun keys chunk => PyList.firsts (paragraphKeys T chunk) = PyList.firsts keys)
      groups chunks) :
    PyList.firsts (chunks.flatMap (paragraphKeys T)) = PyList.firsts groups.flatten := by
  induction h with
  | nil => rfl
  | cons hhead htail ih =>
    rw [List.flatMap_cons, List.flatten_cons]
    exact PyList.firsts_append_congr hhead ih

theorem firsts_mergeTinyPageChunks (hT : T.Spaced) (minimumChars : Nat) (chunks : List DocumentChunk) :
    PyList.firsts ((mergeTinyPageChunks T minimumChars chunks).flatMap (paragraphKeys T)) =
      PyList.firsts (chunks.flatMap (paragraphKeys T)) := by
  have hmerge : ∀ (g g' : List String) (x y : DocumentChunk),
      PyList.firsts (paragraphKeys T x) = PyList.firsts g →
      PyList.firsts (paragraphKeys T y) = PyList.firsts g' →
      PyList.firsts (paragraphKeys T (mergeChunks T x y)) = PyList.firsts (g ++ g') := by
    intro g g' x y hx hy
    rw [paragraphKeys_mergeChunks hT, PyList.firsts_firsts]
    exact PyList.firsts_append_congr hx hy
  have hown : List.Forall₂ (fun keys chunk => PyList.firsts (paragraphKeys T chunk) = PyList.firsts keys)
      (chunks.map (paragraphKeys T)) chunks := by
    rw [List.forall₂_map_left_iff]
    exact List.forall₂_same.mpr fun _ _ => rfl
  obtain ⟨groups, hflat, hgroups⟩ :=
    Segments.exists_groups (isTinyChunk T minimumChars) hmerge hown
  unfold mergeTinyPageChunks
  rw [firsts_flatMap_of_forall₂ hgroups, hflat, ← List.flatMap_def]

/-- **Merging the tiny chunks of a page** ends, leaves one chunk at most or none that is tiny, and keeps
    the paragraphs and their order. -/
theorem merge_tiny_page_chunks (T : PyText) (hT : T.Spaced) (minimumChars : Int)
    (chunks : List DocumentChunk) :
    ∃ merged index,
      Machine.Ends (mergeTinyBody T minimumChars.toNat) (chunks, 0) (merged, index) ∧
      merged = mergeTinyPageChunks T minimumChars.toNat chunks ∧
      (merged.length ≤ 1 ∨ ∀ chunk ∈ merged,
        minimumChars ≤ (normalizeContent T chunk.text).length ∧ isHeadingOnlyChunk T chunk = false) ∧
      PyList.firsts (merged.flatMap (paragraphKeys T)) =
        PyList.firsts (chunks.flatMap (paragraphKeys T)) := by
  obtain ⟨index, hends⟩ :=
    Segments.ends_mergeSmall (isTinyChunk T minimumChars.toNat) (mergeChunks T) chunks
  refine ⟨_, index, hends, rfl, ?_, firsts_mergeTinyPageChunks hT _ chunks⟩
  rcases Segments.small_mergeSmall (isTinyChunk T minimumChars.toNat) (mergeChunks T) chunks with
    hshort | hlarge
  · exact Or.inl hshort
  · exact Or.inr fun chunk hchunk => isTinyChunk_eq_false (hlarge chunk hchunk)

/-- A heading with its paragraph, and a short chunk at the end. -/
def revenuePage : List DocumentChunk :=
  [⟨"Revenue", 1, "Revenue", false, 0, parserVersion, chunkerVersion⟩,
    ⟨"Up ten percent.\n\nCash rose.", 1, "Revenue", false, 1, parserVersion, chunkerVersion⟩,
    ⟨"cash  rose.", 1, "Revenue", true, 2, parserVersion, chunkerVersion⟩]

theorem merge_tiny_page_chunks_revenuePage :
    ∃ merged index,
      Machine.Ends (mergeTinyBody PyText.ascii 20) (revenuePage, 0) (merged, index) ∧
      merged = mergeTinyPageChunks PyText.ascii 20 revenuePage ∧
      (merged.length ≤ 1 ∨ ∀ chunk ∈ merged,
        (20 : Int) ≤ (normalizeContent PyText.ascii chunk.text).length ∧
          isHeadingOnlyChunk PyText.ascii chunk = false) ∧
      PyList.firsts (merged.flatMap (paragraphKeys PyText.ascii)) =
        PyList.firsts (revenuePage.flatMap (paragraphKeys PyText.ascii)) :=
  merge_tiny_page_chunks PyText.ascii PyText.spaced_ascii 20 revenuePage

end FinancialRag.Ingestion
