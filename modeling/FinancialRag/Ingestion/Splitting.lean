/-
  The size of the pieces that `_split_long_text` makes of one long text.

  The loop over the sentences fills a piece until the next sentence would make it too long, and then starts
  the next piece with the END of the last one (the overlap) and that sentence.  Nothing checks that the
  two fit together, so a piece may get too long: `chunk_size_limit_iff` says exactly when.

  THE INVARIANT of the size: a new piece is the end of everything read so far, so what it takes over is the
  overlap of ALL sentences before, whatever the pieces between were (`Carried`).  That is why the
  condition can be read off the sentences alone.
-/
import FinancialRag.Ingestion.Chunking

set_option linter.unusedVariables false

namespace FinancialRag.Ingestion

variable {T : PyText}

/-! ## Sentences -/

/-- A text with nothing to strip, and something left. -/
structure Solid (T : PyText) (text : String) : Prop where
  trimmed : T.Trimmed text.toList
  nonempty : text ≠ ""

theorem Solid.toList_ne_nil {text : String} (h : Solid T text) : text.toList ≠ [] := by
  intro hnil
  exact h.nonempty (String.toList_eq_nil_iff.mp hnil)

theorem solid_strip {text : String} (h : T.strip text ≠ "") : Solid T (T.strip text) :=
  ⟨PyText.trimmed_strip text, h⟩

theorem solid_of_mem_sentencesOf {text sentence : String} (h : sentence ∈ sentencesOf T text) :
    Solid T sentence := by
  obtain ⟨hmem, hne⟩ := List.mem_filter.mp h
  obtain ⟨part, _, rfl⟩ := List.mem_map.mp hmem
  exact solid_strip (of_decide_eq_true hne)

theorem appendSentence_empty (hspace : T.isSpace ' ' = true) {sentence : String}
    (h : Solid T sentence) : appendSentence T "" sentence = sentence := by
  have hblank : ∀ c ∈ ("" ++ " " : String).toList, T.isSpace c = true := by
    intro c hc
    obtain rfl : c = ' ' := by simpa using hc
    exact hspace
  exact h.trimmed.strip_append_space hblank

theorem solid_append {current sentence : String} (hcurrent : Solid T current)
    (hsentence : Solid T sentence) : Solid T (current ++ " " ++ sentence) where
  trimmed := by
    rw [String.toList_append, String.toList_append]
    exact hcurrent.trimmed.append hsentence.trimmed hcurrent.toList_ne_nil hsentence.toList_ne_nil _
  nonempty := by
    intro hempty
    have hlist := congrArg String.toList hempty
    rw [String.toList_append] at hlist
    exact hsentence.toList_ne_nil (List.append_eq_nil_iff.mp hlist).2

theorem appendSentence_solid {current sentence : String} (hcurrent : Solid T current)
    (hsentence : Solid T sentence) :
    appendSentence T current sentence = current ++ " " ++ sentence :=
  (solid_append hcurrent hsentence).trimmed.strip_eq

theorem length_append_blank (current sentence : String) :
    (current ++ " " ++ sentence).length = current.length + 1 + sentence.length := by
  rw [String.length_append, String.length_append]
  rfl

/-! ## The overlap -/

theorem toList_overlapPrefix (T : PyText) {overlap : Nat} (h : overlap ≠ 0) (current : String) :
    (overlapPrefix T overlap current).toList =
      (current.toList.drop (current.length - overlap)).dropWhile T.isSpace := by
  unfold overlapPrefix
  rw [if_neg h, PyText.toList_lstrip, String.toList_ofList]

theorem overlapPrefix_suffix (T : PyText) (overlap : Nat) (current : String) :
    (overlapPrefix T overlap current).toList <:+ current.toList := by
  by_cases h : overlap = 0
  · unfold overlapPrefix
    rw [if_pos h]
    exact List.nil_suffix
  · rw [toList_overlapPrefix T h]
    exact (List.dropWhile_suffix _).trans (List.drop_suffix _ _)

theorem length_overlapPrefix_le (T : PyText) (overlap : Nat) (current : String) :
    (overlapPrefix T overlap current).length ≤ current.length := by
  have h := (overlapPrefix_suffix T overlap current).length_le
  rwa [String.length_toList, String.length_toList] at h

theorem solid_overlapPrefix {overlap : Nat} (h : overlap ≠ 0) {current : String}
    (hcurrent : Solid T current) : Solid T (overlapPrefix T overlap current) := by
  have hlast := hcurrent.trimmed.suffix (List.drop_suffix (current.length - overlap) current.toList)
  have hpos : 0 < current.length := by
    have hne := mt String.length_eq_zero_iff.mp hcurrent.nonempty
    omega
  have hne : current.toList.drop (current.length - overlap) ≠ [] := by
    intro hnil
    have hlen := List.drop_eq_nil_iff.mp hnil
    rw [String.length_toList] at hlen
    omega
  constructor
  · rw [toList_overlapPrefix T h]
    exact PyText.trimmed_dropWhile hlast
  · intro hempty
    have hlist := toList_overlapPrefix T h current
    rw [hempty] at hlist
    exact PyText.dropWhile_ne_nil hne hlast hlist.symm

/-- What is read of a text ends in the piece being filled, and in front of the piece there is at most
    white space for an overlap to reach into. -/
def Carried (T : PyText) (overlap : Nat) (read current : String) : Prop :=
  ∃ front, read.toList = front ++ current.toList ∧
    ∀ c ∈ front.drop (read.length - overlap), T.isSpace c = true

theorem carried_self (overlap : Nat) (text : String) : Carried T overlap text text :=
  ⟨[], rfl, by simp⟩

theorem Carried.append {overlap : Nat} {read current : String} (h : Carried T overlap read current)
    (more : String) : Carried T overlap (read ++ more) (current ++ more) := by
  obtain ⟨front, hread, hfront⟩ := h
  refine ⟨front, ?_, ?_⟩
  · rw [String.toList_append, String.toList_append, hread, List.append_assoc]
  · intro c hc
    have hle : read.length - overlap ≤ (read ++ more).length - overlap := by
      rw [String.length_append]
      omega
    exact hfront c ((List.drop_suffix_drop_left front hle).subset hc)

/-- The overlap of the piece is the overlap of everything read. -/
theorem Carried.overlapPrefix_eq {overlap : Nat} (hoverlap : overlap ≠ 0) {read current : String}
    (h : Carried T overlap read current) :
    overlapPrefix T overlap current = overlapPrefix T overlap read := by
  obtain ⟨front, hread, hfront⟩ := h
  have hlength : read.length = front.length + current.length := by
    rw [← String.length_toList, hread, List.length_append, String.length_toList]
  -- the overlap begins in the piece, or in the white space in front of it, which is stripped
  have hindex : read.length - overlap - front.length = current.length - overlap := by omega
  apply String.toList_injective
  rw [toList_overlapPrefix T hoverlap, toList_overlapPrefix T hoverlap, hread, List.drop_append,
    hindex, List.dropWhile_append_of_pos hfront]

/-- A new piece starts with the overlap. -/
theorem carried_overlapPrefix {overlap : Nat} (hoverlap : overlap ≠ 0) (read : String) :
    Carried T overlap read (overlapPrefix T overlap read) := by
  have hcut := List.take_append_drop (read.length - overlap) read.toList
  have hspace := List.takeWhile_append_dropWhile (p := T.isSpace)
    (l := read.toList.drop (read.length - overlap))
  refine ⟨read.toList.take (read.length - overlap) ++
    (read.toList.drop (read.length - overlap)).takeWhile T.isSpace, ?_, ?_⟩
  · rw [toList_overlapPrefix T hoverlap, List.append_assoc, hspace, hcut]
  · intro c hc
    have hlength : (read.toList.take (read.length - overlap)).length = read.length - overlap := by
      rw [List.length_take, String.length_toList]
      omega
    rw [List.drop_append_of_le_length (by omega), List.drop_eq_nil_of_le (by omega), List.nil_append] at hc
    exact List.mem_takeWhile_imp hc

/-! ## One round of the loop -/

section Round

variable {s : ChunkSettings} {current sentence : String} {rest : List String}

theorem sentencePieces_fits (hcurrent : Solid T current) (hsentence : Solid T sentence)
    (hfits : current.length + 1 + sentence.length ≤ s.size) :
    sentencePieces T s current (sentence :: rest) =
      sentencePieces T s (current ++ " " ++ sentence) rest := by
  have hnot : ¬(current ≠ "" ∧ s.size < (current ++ " " ++ sentence).length) := by
    rw [length_append_blank]
    omega
  rw [sentencePieces, appendSentence_solid hcurrent hsentence]
  exact if_neg hnot

/-- What the piece after a full one starts with. -/
def restart (T : PyText) (s : ChunkSettings) (current sentence : String) : String :=
  appendSentence T (overlapPrefix T s.overlap current) sentence

theorem sentencePieces_full (hcurrent : Solid T current) (hsentence : Solid T sentence)
    (hfull : s.size < current.length + 1 + sentence.length) :
    sentencePieces T s current (sentence :: rest) =
      current :: sentencePieces T s (restart T s current sentence) rest := by
  rw [sentencePieces, appendSentence_solid hcurrent hsentence]
  refine if_pos ⟨hcurrent.nonempty, ?_⟩
  rw [length_append_blank]
  exact hfull

theorem sentencePieces_first (hspace : T.isSpace ' ' = true) (hsentence : Solid T sentence) :
    sentencePieces T s "" (sentence :: rest) = sentencePieces T s sentence rest := by
  rw [sentencePieces, appendSentence_empty hspace hsentence]
  exact if_neg fun h => h.1 rfl

theorem restart_of_zero (hspace : T.isSpace ' ' = true) (hoverlap : s.overlap = 0)
    (hsentence : Solid T sentence) : restart T s current sentence = sentence := by
  have hnone : overlapPrefix T s.overlap current = "" := if_pos hoverlap
  unfold restart
  rw [hnone, appendSentence_empty hspace hsentence]

theorem restart_of_pos (hoverlap : s.overlap ≠ 0) (hcurrent : Solid T current)
    (hsentence : Solid T sentence) :
    restart T s current sentence = overlapPrefix T s.overlap current ++ " " ++ sentence :=
  appendSentence_solid (solid_overlapPrefix hoverlap hcurrent) hsentence

theorem solid_restart (hspace : T.isSpace ' ' = true) (hcurrent : Solid T current)
    (hsentence : Solid T sentence) : Solid T (restart T s current sentence) := by
  by_cases hoverlap : s.overlap = 0
  · rw [restart_of_zero hspace hoverlap hsentence]
    exact hsentence
  · rw [restart_of_pos hoverlap hcurrent hsentence]
    exact solid_append (solid_overlapPrefix hoverlap hcurrent) hsentence

/-- The piece being filled only grows. -/
theorem exists_piece (hspace : T.isSpace ' ' = true) (hcurrent : Solid T current)
    (hrest : ∀ x ∈ rest, Solid T x) :
    ∃ piece later, sentencePieces T s current rest = piece :: later ∧
      current.toList <+: piece.toList := by
  induction rest generalizing current with
  | nil =>
    refine ⟨current, [], ?_, List.prefix_refl _⟩
    rw [sentencePieces, if_pos hcurrent.nonempty]
  | cons sentence rest ih =>
    have hsentence := hrest sentence List.mem_cons_self
    by_cases hfull : s.size < current.length + 1 + sentence.length
    · exact ⟨current, _, sentencePieces_full hcurrent hsentence hfull, List.prefix_refl _⟩
    · obtain ⟨piece, later, hpieces, hbegins⟩ := ih (solid_append hcurrent hsentence) fun x hx =>
        hrest x (List.mem_cons_of_mem _ hx)
      refine ⟨piece, later, ?_, ?_⟩
      · rw [sentencePieces_fits hcurrent hsentence (by omega), hpieces]
      · refine List.IsPrefix.trans ?_ hbegins
        rw [String.toList_append, String.toList_append, List.append_assoc]
        exact List.prefix_append _ _

end Round

/-! ## The size of the pieces -/

/-- When the loop over the sentences is run. -/
def SentenceMode (T : PyText) (s : ChunkSettings) (text : String) : Prop :=
  s.size < text.length ∧ 1 < (sentencesOf T text).length ∧
    ∀ sentence ∈ sentencesOf T text, sentence.length ≤ s.size

instance (s : ChunkSettings) (text : String) : Decidable (SentenceMode T s text) :=
  inferInstanceAs (Decidable (_ ∧ _ ∧ _))

theorem splitLongText_sentences {s : ChunkSettings} {text : String} (h : SentenceMode T s text) :
    splitLongText T s text = sentencePieces T s "" (sentencesOf T text) := by
  unfold splitLongText
  rw [if_neg (not_le.mpr h.1)]
  exact if_pos h.2

/-- Each sentence but the first fits into a piece together with the overlap of ALL sentences before it. -/
def RestartsFit (T : PyText) (s : ChunkSettings) (sentences : List String) : Prop :=
  ∀ before sentence after, sentences = before ++ sentence :: after → before ≠ [] →
    (overlapPrefix T s.overlap (PyText.join " " before)).length + 1 + sentence.length ≤ s.size

/-- From a piece that carries the overlap, the pieces fit as long as each restart does. -/
theorem sentencePieces_size_iff (hspace : T.isSpace ' ' = true) {s : ChunkSettings}
    (hoverlap : s.overlap ≠ 0) {before rest : List String} {current : String} (hbefore : before ≠ [])
    (hcarried : Carried T s.overlap (PyText.join " " before) current) (hcurrent : Solid T current)
    (hsize : current.length ≤ s.size) (hrest : ∀ x ∈ rest, Solid T x) :
    (∀ piece ∈ sentencePieces T s current rest, piece.length ≤ s.size) ↔
      ∀ mid sentence after, rest = mid ++ sentence :: after →
        (overlapPrefix T s.overlap (PyText.join " " (before ++ mid))).length + 1 + sentence.length ≤
          s.size := by
  -- what was READ grows with every sentence, also over a full piece, so `before` goes along
  induction rest generalizing before current with
  | nil =>
    rw [sentencePieces, if_pos hcurrent.nonempty]
    constructor
    · intro _ mid sentence after hsplit
      cases mid <;> cases hsplit
    · intro _ piece hpiece
      obtain rfl := List.mem_singleton.mp hpiece
      exact hsize
  | cons sentence rest ih =>
    have hsentence := hrest sentence List.mem_cons_self
    have hrest' : ∀ x ∈ rest, Solid T x := fun x hx => hrest x (List.mem_cons_of_mem _ hx)
    have hread := PyText.join_concat " " hbefore sentence
    have hne : before ++ [sentence] ≠ [] := by simp
    have hbegins := hcarried.overlapPrefix_eq hoverlap
    rw [PyList.forall_splits_cons, List.append_nil, ← hbegins]
    -- a full piece is followed by a restart, which must fit; joined to a piece that fits, so does less
    by_cases hfull : s.size < current.length + 1 + sentence.length
    · have hnew := restart_of_pos hoverlap hcurrent hsentence
      have hnewSolid := solid_restart (s := s) hspace hcurrent hsentence
      have hnewCarried : Carried T s.overlap (PyText.join " " (before ++ [sentence]))
          (restart T s current sentence) := by
        rw [hnew, hread, hbegins, String.append_assoc, String.append_assoc]
        exact (carried_overlapPrefix hoverlap _).append _
      rw [sentencePieces_full hcurrent hsentence hfull, List.forall_mem_cons]
      have hlength : (restart T s current sentence).length =
          (overlapPrefix T s.overlap current).length + 1 + sentence.length := by
        rw [hnew, length_append_blank]
      by_cases hfits : (overlapPrefix T s.overlap current).length + 1 + sentence.length ≤ s.size
      · have hloop := ih hne hnewCarried hnewSolid (by omega) hrest'
        simp only [List.append_assoc, List.singleton_append] at hloop
        simp only [hloop, hsize, hfits, true_and]
      · -- the restart is too long, and the piece it starts only grows
        obtain ⟨piece, later, hpieces, hgrown⟩ := exists_piece (s := s) hspace hnewSolid hrest'
        have hlong : s.size < piece.length := by
          have hle := hgrown.length_le
          rw [String.length_toList, String.length_toList] at hle
          omega
        constructor
        · rintro ⟨_, hall⟩
          have hshort := hall piece (by rw [hpieces]; exact List.mem_cons_self)
          omega
        · rintro ⟨hcontra, _⟩
          exact absurd hcontra hfits
    · have hle := length_overlapPrefix_le T s.overlap current
      have hnewCarried : Carried T s.overlap (PyText.join " " (before ++ [sentence]))
          (current ++ " " ++ sentence) := by
        rw [hread, String.append_assoc, String.append_assoc]
        exact hcarried.append _
      have hhere : (overlapPrefix T s.overlap current).length + 1 + sentence.length ≤ s.size := by omega
      have hloop := ih hne hnewCarried (solid_append hcurrent hsentence)
        (by rw [length_append_blank]; omega) hrest'
      simp only [List.append_assoc, List.singleton_append] at hloop
      rw [sentencePieces_fits hcurrent hsentence (by omega), hloop]
      simp only [hhere, true_and]

/-- Without an overlap a piece that is started is one sentence. -/
theorem sentencePieces_size_of_zero (hspace : T.isSpace ' ' = true) {s : ChunkSettings}
    (hoverlap : s.overlap = 0) {current : String} {rest : List String} (hcurrent : Solid T current)
    (hsize : current.length ≤ s.size) (hrest : ∀ x ∈ rest, Solid T x ∧ x.length ≤ s.size) :
    ∀ piece ∈ sentencePieces T s current rest, piece.length ≤ s.size := by
  induction rest generalizing current with
  | nil =>
    rw [sentencePieces, if_pos hcurrent.nonempty]
    intro piece hpiece
    obtain rfl := List.mem_singleton.mp hpiece
    exact hsize
  | cons sentence rest ih =>
    obtain ⟨hsentence, hlength⟩ := hrest sentence List.mem_cons_self
    have hrest' : ∀ x ∈ rest, Solid T x ∧ x.length ≤ s.size :=
      fun x hx => hrest x (List.mem_cons_of_mem _ hx)
    by_cases hfull : s.size < current.length + 1 + sentence.length
    · rw [sentencePieces_full hcurrent hsentence hfull, restart_of_zero hspace hoverlap hsentence]
      exact List.forall_mem_cons.mpr ⟨hsize, ih hsentence hlength hrest'⟩
    · rw [sentencePieces_fits hcurrent hsentence (by omega)]
      exact ih (solid_append hcurrent hsentence) (by rw [length_append_blank]; omega) hrest'

theorem length_strip_le (text : String) : (T.strip text).length ≤ text.length := by
  have hleft := (List.dropWhile_suffix (l := text.toList) T.isSpace).length_le
  have hright := (List.rdropWhile_prefix T.isSpace (text.toList.dropWhile T.isSpace)).length_le
  rw [← String.length_toList, PyText.toList_strip, ← String.length_toList]
  omega

theorem windowPieces_size {s : ChunkSettings} {text : String} {starts : List Nat} :
    ∀ piece ∈ windowPieces T s text starts, piece.length ≤ s.size := by
  induction starts with
  | nil => simp [windowPieces]
  | cons start rest ih =>
    have hpiece : (T.strip (String.ofList ((text.toList.drop start).take s.size))).length ≤ s.size := by
      have hle := length_strip_le (T := T) (String.ofList ((text.toList.drop start).take s.size))
      rw [String.length_ofList, List.length_take] at hle
      omega
    have hlater : ∀ piece ∈ (if text.length ≤ start + s.size then [] else windowPieces T s text rest),
        piece.length ≤ s.size := by
      split
      · simp
      · exact ih
    rw [windowPieces]
    split
    · exact List.forall_mem_cons.mpr ⟨hpiece, hlater⟩
    · exact hlater

/-- What the pieces of a text need to fit: with an overlap, the restarts must fit. -/
def PiecesFit (T : PyText) (s : ChunkSettings) (text : String) : Prop :=
  SentenceMode T s text → s.overlap ≠ 0 → RestartsFit T s (sentencesOf T text)

theorem splitLongText_size_iff (hspace : T.isSpace ' ' = true) (s : ChunkSettings) (text : String) :
    (∀ piece ∈ splitLongText T s text, piece.length ≤ s.size) ↔ PiecesFit T s text := by
  by_cases hmode : SentenceMode T s text
  · have hsolid : ∀ x ∈ sentencesOf T text, Solid T x ∧ x.length ≤ s.size :=
      fun x hx => ⟨solid_of_mem_sentencesOf hx, hmode.2.2 x hx⟩
    have hpieces := splitLongText_sentences hmode
    unfold PiecesFit RestartsFit
    rw [hpieces]
    simp only [hmode, true_imp_iff]
    cases hsentences : sentencesOf T text with
    | nil => simp [sentencePieces]
    | cons first rest =>
      rw [hsentences] at hsolid
      obtain ⟨hfirst, hsize⟩ := hsolid first List.mem_cons_self
      have hrest : ∀ x ∈ rest, Solid T x ∧ x.length ≤ s.size :=
        fun x hx => hsolid x (List.mem_cons_of_mem _ hx)
      rw [sentencePieces_first hspace hfirst]
      by_cases hoverlap : s.overlap = 0
      · have hall := sentencePieces_size_of_zero hspace hoverlap hfirst hsize hrest
        exact iff_of_true hall fun hne => absurd hoverlap hne
      · have hone : PyText.join " " [first] = first := by simp [PyText.join]
        have hloop := sentencePieces_size_iff hspace hoverlap (List.cons_ne_nil first [])
          (hone.symm ▸ carried_self s.overlap first) hfirst hsize fun x hx => (hrest x hx).1
        rw [hloop, PyList.forall_splits_cons]
        simp [hoverlap]
  · refine iff_of_true ?_ fun h => absurd h hmode
    unfold splitLongText
    split
    · intro piece hpiece
      obtain rfl := List.mem_singleton.mp hpiece
      assumption
    · rename_i hlong
      dsimp only
      rw [if_neg fun h => hmode ⟨not_le.mp hlong, h⟩]
      exact windowPieces_size

/-- `chunk_text` runs whenever the settings are valid. -/
theorem chunkText_of_valid {s : ChunkSettings} {chunkSize overlap : Int}
    (h : validateChunkSettings chunkSize overlap = .ok s) (text : String) :
    chunkText T text chunkSize overlap =
      .ok (if cleanText T text = "" then [] else splitLongText T s (cleanText T text)) := by
  unfold chunkText
  rw [h]
  rfl

/-- **When the pieces keep to the chunk size.**  They do exactly if each sentence but the first fits
    together with the overlap of the text before it. -/
theorem chunk_size_limit_iff (T : PyText) (hspace : T.isSpace ' ' = true) (s : ChunkSettings)
    {chunkSize overlap : Int} (hvalid : validateChunkSettings chunkSize overlap = .ok s)
    (text : String) :
    ((∀ piece ∈ splitLongText T s text, piece.length ≤ s.size) ↔ PiecesFit T s text) ∧
    ∃ pieces, chunkText T text chunkSize overlap = .ok pieces ∧
      ((∀ piece ∈ pieces, piece.length ≤ s.size) ↔ PiecesFit T s (cleanText T text)) := by
  refine ⟨splitLongText_size_iff hspace s text, _, chunkText_of_valid hvalid text, ?_⟩
  split
  · rename_i hempty
    refine iff_of_true (by simp) ?_
    rintro ⟨hlong, _⟩
    rw [hempty] at hlong
    cases hlong
  · exact splitLongText_size_iff hspace s _

/-- Pieces of at most ten characters, with five in common. -/
def tenFive : ChunkSettings := ⟨10, 5, by decide⟩

theorem chunk_size_limit_iff_tenFive :
    ((∀ piece ∈ splitLongText PyText.ascii tenFive "One. Two. Three.", piece.length ≤ 10) ↔
      PiecesFit PyText.ascii tenFive "One. Two. Three.") ∧
    ∃ pieces, chunkText PyText.ascii "One. Two. Three." 10 5 = .ok pieces ∧
      ((∀ piece ∈ pieces, piece.length ≤ 10) ↔
        PiecesFit PyText.ascii tenFive (cleanText PyText.ascii "One. Two. Three.")) :=
  chunk_size_limit_iff PyText.ascii rfl tenFive rfl "One. Two. Three."

/-- The overlap `"sold."` and the next sentence are fourteen characters. -/
theorem chunk_size_exceeded :
    ¬ ∀ piece ∈ splitLongText PyText.ascii tenFive "We sold. At cost.", piece.length ≤ 10 := by
  decide +kernel

end FinancialRag.Ingestion
