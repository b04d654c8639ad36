/-
  Where the pieces of a split text stand in the text.

  The sentences of a text stand in it in order, with white space around them (`scattered_sentencesOf`).
  `placed` gives each piece with the place it was cut from.  The pieces are the text at their places
  exactly if the blank that joins two sentences is in the text, too (`splitting_unaltered_iff`): behind a
  decimal point it is not.  Nothing is LOST in either mode (`splitting_loses_nothing`).
-/
import FinancialRag.Ingestion.Splitting

set_option linter.unusedVariables false

namespace FinancialRag.Ingestion

variable {T : PyText}

/-! ## Where the sentences stand in the text -/

/-- A text that consists of these sentences, in this order, and of white space around them. -/
inductive Scattered (T : PyText) : List Char → List String → Prop
  | nil {cs : List Char} : (∀ c ∈ cs, T.isSpace c = true) → Scattered T cs []
  | cons {space more : List Char} {sentence : String} {rest : List String} :
      (∀ c ∈ space, T.isSpace c = true) → Scattered T more rest →
      Scattered T (space ++ sentence.toList ++ more) (sentence :: rest)

theorem scattered_space {space cs : List Char} {sentences : List String}
    (hspace : ∀ c ∈ space, T.isSpace c = true) (h : Scattered T cs sentences) :
    Scattered T (space ++ cs) sentences := by
  cases h with
  | nil hcs => exact .nil (List.forall_mem_append.mpr ⟨hspace, hcs⟩)
  | cons hspace' hmore =>
    rw [← List.append_assoc, ← List.append_assoc]
    exact .cons (List.forall_mem_append.mpr ⟨hspace, hspace'⟩) hmore

/-- The sentences among the parts of a text. -/
def sentencesAmong (T : PyText) (parts : List (List Char)) : List String :=
  (parts.map fun part => T.strip (String.ofList part)).filter fun sentence => decide (sentence ≠ "")

theorem sentencesAmong_empty {part : List Char} {parts : List (List Char)}
    (h : T.strip (String.ofList part) = "") :
    sentencesAmong T (part :: parts) = sentencesAmong T parts :=
  List.filter_cons_of_neg (by simp [h])

theorem sentencesAmong_cons {part : List Char} {parts : List (List Char)}
    (h : T.strip (String.ofList part) ≠ "") :
    sentencesAmong T (part :: parts) = T.strip (String.ofList part) :: sentencesAmong T parts :=
  List.filter_cons_of_pos (by simp [h])

/-- A part is a sentence and the white space around it, or only white space. -/
theorem scattered_part (part : List Char) {cs : List Char} {parts : List (List Char)}
    (h : Scattered T cs (sentencesAmong T parts)) :
    Scattered T (part ++ cs) (sentencesAmong T (part :: parts)) := by
  obtain ⟨right, hpart, hright⟩ := T.exists_strip (String.ofList part)
  rw [String.toList_ofList] at hpart
  have hleft : ∀ c ∈ part.takeWhile T.isSpace, T.isSpace c = true :=
    fun c hc => List.mem_takeWhile_imp hc
  have hmore := scattered_space hright h
  have hall : part ++ cs =
      part.takeWhile T.isSpace ++ (T.strip (String.ofList part)).toList ++ (right ++ cs) := by
    rw [← List.append_assoc, ← hpart]
  rw [hall]
  by_cases hempty : T.strip (String.ofList part) = ""
  · rw [sentencesAmong_empty hempty, hempty]
    refine scattered_space ?_ hmore
    rwa [String.toList_empty, List.append_nil]
  · rw [sentencesAmong_cons hempty]
    exact .cons hleft hmore

/-- The split loses white space only: what is read of a part and what is still to come hold the
    sentences.  Behind a boundary (`gap`) nothing is read of the next part. -/
theorem scattered_splitSentences (cs : List Char) (prev : Option Char) (gap : Bool) (part : List Char)
    (hgap : gap = true → part = []) :
    Scattered T (part.reverse ++ cs) (sentencesAmong T (splitSentences T prev gap part cs)) := by
  induction cs generalizing prev gap part with
  | nil =>
    have hend : Scattered T [] (sentencesAmong T []) := Scattered.nil (by simp)
    rw [splitSentences]
    exact scattered_part part.reverse hend
  | cons c cs ih =>
    have hskipped : T.isSpace c = true →
        Scattered T (c :: cs) (sentencesAmong T (splitSentences T (some c) true [] cs)) := by
      intro hc
      have hblank : ∀ x ∈ [c], T.isSpace x = true := List.forall_mem_singleton.mpr hc
      have hrest := ih (some c) true [] fun _ => rfl
      rw [List.reverse_nil, List.nil_append] at hrest
      rw [← List.singleton_append]
      exact scattered_space hblank hrest
    rw [splitSentences]
    -- white space behind a boundary is dropped; a mark in front of `c` is a boundary, with a gap or without
    by_cases hskip : (gap && T.isSpace c) = true
    · obtain ⟨hgap', hc⟩ := Bool.and_eq_true_iff.mp hskip
      obtain rfl := hgap hgap'
      rw [if_pos hskip, List.reverse_nil, List.nil_append]
      exact hskipped hc
    · rw [if_neg hskip]
      by_cases hboundary : (!gap && prev.any isSentenceMark) = true
      · rw [if_pos hboundary]
        refine scattered_part part.reverse ?_
        by_cases hc : T.isSpace c = true
        · rw [if_pos hc]
          exact hskipped hc
        · have hrest := ih (some c) false [c] fun h => by cases h
          rw [if_neg hc]
          rwa [List.reverse_singleton, List.singleton_append] at hrest
      · have hrest := ih (some c) false (c :: part) fun h => by cases h
        rw [if_neg hboundary]
        rwa [List.reverse_cons, List.append_assoc] at hrest

theorem scattered_sentencesOf (text : String) : Scattered T text.toList (sentencesOf T text) := by
  have h := scattered_splitSentences (T := T) text.toList none false [] fun _ => rfl
  rwa [List.reverse_nil, List.nil_append] at h

/-- The sentences, each with the length of the white space in front of it. -/
def withGaps (T : PyText) : List Char → List String → List (Nat × String)
  | _, [] => []
  | cs, sentence :: rest =>
    ((cs.takeWhile T.isSpace).length, sentence) ::
      withGaps T ((cs.dropWhile T.isSpace).drop sentence.length) rest

/-- A text that starts with these sentences, each behind a gap of this length. -/
inductive Gapped (T : PyText) : List Char → List (Nat × String) → Prop
  | nil {cs : List Char} : Gapped T cs []
  | cons {space more : List Char} {sentence : String} {rest : List (Nat × String)} :
      (∀ c ∈ space, T.isSpace c = true) → Gapped T more rest →
      Gapped T (space ++ sentence.toList ++ more) ((space.length, sentence) :: rest)

theorem gapped_withGaps {cs : List Char} {sentences : List String} (h : Scattered T cs sentences)
    (hsolid : ∀ x ∈ sentences, Solid T x) : Gapped T cs (withGaps T cs sentences) := by
  induction h with
  | nil => exact .nil
  | @cons space more sentence rest hspace hmore ih =>
    have hsentence := hsolid sentence List.mem_cons_self
    have hfirst : T.isSpace (sentence.toList.head hsentence.toList_ne_nil) = false :=
      hsentence.trimmed.first _ (List.head?_eq_some_head hsentence.toList_ne_nil)
    have hstart : sentence.toList ++ more =
        sentence.toList.head hsentence.toList_ne_nil :: (sentence.toList.tail ++ more) := by
      rw [← List.cons_append, List.cons_head_tail]
    have htake : (space ++ sentence.toList ++ more).takeWhile T.isSpace = space := by
      rw [List.append_assoc, List.takeWhile_append_of_pos hspace, hstart,
        List.takeWhile_cons_of_neg (by simp [hfirst]), List.append_nil]
    have hdrop : (space ++ sentence.toList ++ more).dropWhile T.isSpace = sentence.toList ++ more := by
      rw [List.append_assoc, List.dropWhile_append_of_pos hspace, hstart,
        List.dropWhile_cons_of_neg (by simp [hfirst])]
    have htail : (sentence.toList ++ more).drop sentence.length = more := by
      rw [← String.length_toList, List.drop_left]
    rw [withGaps, htake, hdrop, htail]
    exact .cons hspace (ih fun x hx => hsolid x (List.mem_cons_of_mem _ hx))

theorem map_snd_withGaps (cs : List Char) (sentences : List String) :
    (withGaps T cs sentences).map Prod.snd = sentences := by
  induction sentences generalizing cs with
  | nil => rfl
  | cons sentence rest ih =>
    rw [withGaps, List.map_cons, ih]

/-! ## The pieces with their places -/

/-- The text has this piece at this place. -/
def At (text : String) (start : Nat) (piece : String) : Prop := piece.toList <+: text.toList.drop start

instance (text : String) (start : Nat) (piece : String) : Decidable (At text start piece) :=
  inferInstanceAs (Decidable (_ <+: _))

/-- The loop over the sentences, with the place of each piece.  `current` was cut from `start` on, and
    what was read of the text ends at `stop`. -/
def placedPieces (T : PyText) (s : ChunkSettings) (start : Nat) (current : String) (stop : Nat) :
    List (Nat × String) → List (Nat × String)
  | [] => if current ≠ "" then [(start, current)] else []
  | (gap, sentence) :: rest =>
    let proposed := appendSentence T current sentence
    let next := stop + gap + sentence.length
    if current ≠ "" ∧ s.size < proposed.length then
      let overlap := overlapPrefix T s.overlap current
      (start, current) ::
        placedPieces T s (if overlap = "" then stop + gap else stop - overlap.length)
          (restart T s current sentence) next rest
    else placedPieces T s (if current = "" then stop + gap else start) proposed next rest

/-- The window at `start`, stripped, with the place of what is left. -/
def windowAt (T : PyText) (s : ChunkSettings) (text : String) (start : Nat) : Nat × String :=
  let window := (text.toList.drop start).take s.size
  (start + (window.takeWhile T.isSpace).length, T.strip (String.ofList window))

/-- The windows from which the loop gets a piece. -/
def usedWindows (T : PyText) (s : ChunkSettings) (text : String) : List Nat → List Nat
  | [] => []
  | start :: rest =>
    let later := if text.length ≤ start + s.size then [] else usedWindows T s text rest
    if (windowAt T s text start).2 ≠ "" then start :: later else later

/-- The pieces of a text, each with the place it was cut from. -/
def placed (T : PyText) (s : ChunkSettings) (text : String) : List (Nat × String) :=
  if text.length ≤ s.size then [(0, text)]
  else if SentenceMode T s text then
    placedPieces T s 0 "" 0 (withGaps T text.toList (sentencesOf T text))
  else
    (usedWindows T s text (rangeStep text.length (s.size - s.overlap))).map (windowAt T s text)

theorem map_snd_placedPieces (s : ChunkSettings) (start : Nat) (current : String) (stop : Nat)
    (pairs : List (Nat × String)) :
    (placedPieces T s start current stop pairs).map Prod.snd =
      sentencePieces T s current (pairs.map Prod.snd) := by
  induction pairs generalizing start current stop with
  | nil =>
    rw [placedPieces, List.map_nil, sentencePieces]
    split <;> rfl
  | cons pair rest ih =>
    rw [placedPieces, List.map_cons, sentencePieces]
    split
    · rw [List.map_cons, ih]
      rfl
    · rw [ih]

theorem map_snd_usedWindows (s : ChunkSettings) (text : String) (starts : List Nat) :
    ((usedWindows T s text starts).map (windowAt T s text)).map Prod.snd =
      windowPieces T s text starts := by
  induction starts with
  | nil => rfl
  | cons start rest ih =>
    rw [usedWindows, windowPieces, ← ih]
    unfold windowAt
    dsimp only
    split <;> split <;> rfl

/-- These are the pieces. -/
theorem map_snd_placed (s : ChunkSettings) (text : String) :
    (placed T s text).map Prod.snd = splitLongText T s text := by
  unfold placed splitLongText
  dsimp only
  split
  · rfl
  · rename_i hlong
    by_cases hmode : SentenceMode T s text
    · rw [if_pos hmode, if_pos hmode.2, map_snd_placedPieces, map_snd_withGaps]
    · rw [if_neg hmode, if_neg fun h => hmode ⟨not_le.mp hlong, h⟩, map_snd_usedWindows]

/-! ## When every piece is the text at its place -/

/-- A text in which white space only occurs as single blanks. -/
structure Normalized (T : PyText) (text : String) : Prop where
  blank : ∀ c ∈ text.toList, T.isSpace c = true → c = ' '
  single : text.toList.IsChain fun a b => ¬(T.isSpace a = true ∧ T.isSpace b = true)

theorem normalized_iff {text : String} : Normalized T text ↔
    (text.toList.all fun c => !T.isSpace c || c == ' ') = true ∧
      text.toList.IsChain fun a b => ¬(T.isSpace a = true ∧ T.isSpace b = true) := by
  have hblank : (text.toList.all fun c => !T.isSpace c || c == ' ') = true ↔
      ∀ c ∈ text.toList, T.isSpace c = true → c = ' ' := by
    rw [List.all_eq_true]
    refine forall₂_congr fun c _ => ?_
    rw [Bool.or_eq_true, Bool.not_eq_true', beq_iff_eq, ← Bool.not_eq_true, imp_iff_not_or]
  rw [hblank]
  exact ⟨fun h => ⟨h.blank, h.single⟩, fun h => ⟨h.1, h.2⟩⟩

instance (T : PyText) (text : String) : Decidable (Normalized T text) :=
  decidable_of_iff _ normalized_iff.symm

theorem Normalized.gap {text : String} (h : Normalized T text) {stop : Nat} {space more : List Char}
    (hdrop : text.toList.drop stop = space ++ more) (hspace : ∀ c ∈ space, T.isSpace c = true) :
    space = [] ∨ space = [' '] := by
  have hblank : ∀ c ∈ space, c = ' ' := by
    intro c hc
    have hmem : c ∈ text.toList.drop stop := by
      rw [hdrop]
      exact List.mem_append_left more hc
    exact h.blank c (List.mem_of_mem_drop hmem) (hspace c hc)
  have hchain := h.single.drop stop
  rw [hdrop] at hchain
  cases space with
  | nil => exact Or.inl rfl
  | cons a space =>
    obtain rfl := hblank a List.mem_cons_self
    cases space with
    | nil => exact Or.inr rfl
    | cons b space =>
      have hpair := (List.isChain_cons_cons.mp hchain).1
      exact absurd ⟨hspace _ List.mem_cons_self, hspace b (by simp)⟩ hpair

section At

variable {text current : String} {start : Nat}

/-- A piece and what follows it in the text. -/
theorem At.append (h : At text start current) (more : List Char) {piece : String}
    (hmore : more <+: text.toList.drop (start + current.length))
    (hpiece : piece.toList = current.toList ++ more) : At text start piece := by
  obtain ⟨tail, htail⟩ := h
  have hdrop : text.toList.drop (start + current.length) = tail := by
    rw [← List.drop_drop, ← htail, ← String.length_toList, List.drop_left]
  rw [hdrop] at hmore
  unfold At
  rw [hpiece, ← htail]
  exact (List.prefix_append_right_inj current.toList).mpr hmore

theorem At.suffix (h : At text start current) {piece : String}
    (hpiece : piece.toList <:+ current.toList) :
    At text (start + current.length - piece.length) piece := by
  obtain ⟨front, hfront⟩ := hpiece
  have hlength : current.length = front.length + piece.length := by
    rw [← String.length_toList, ← hfront, List.length_append, String.length_toList]
  have hindex : start + current.length - piece.length = start + front.length := by omega
  obtain ⟨tail, htail⟩ := h
  unfold At
  rw [hindex, ← List.drop_drop, ← htail, ← hfront, List.append_assoc, List.drop_left]
  exact List.prefix_append _ _

/-- Behind a piece that goes on with a blank, the text has a blank. -/
theorem At.blank (h : At text start current) {left sentence : String}
    (hcurrent : current = left ++ " " ++ sentence) :
    (text.toList.drop (start + left.length)).head? = some ' ' := by
  obtain ⟨tail, htail⟩ := h
  rw [← List.drop_drop, ← htail, hcurrent, String.toList_append, String.toList_append, List.append_assoc,
    List.append_assoc, ← String.length_toList, List.drop_left]
  rfl

theorem At.of_prefix (h : At text start current) {piece : String}
    (hpiece : piece.toList <+: current.toList) : At text start piece :=
  hpiece.trans h

end At

/-- Reading the sentences behind the first: each is joined to the text before it, which has `used`
    characters in the piece, and the text has a blank there; only a sentence that starts a piece
    without an overlap is not joined. -/
def JoinsSpaced (s : ChunkSettings) : Nat → List (Nat × String) → Prop
  | _, [] => True
  | used, (gap, sentence) :: rest =>
    if s.overlap = 0 ∧ s.size < used + 1 + sentence.length then JoinsSpaced s sentence.length rest
    else gap ≠ 0 ∧ JoinsSpaced s (used + 1 + sentence.length) rest

section Round

variable {s : ChunkSettings} {start stop gap : Nat} {current sentence : String}
  {rest : List (Nat × String)}

theorem placedPieces_fits (hcurrent : Solid T current) (hsentence : Solid T sentence)
    (hfits : current.length + 1 + sentence.length ≤ s.size) :
    placedPieces T s start current stop ((gap, sentence) :: rest) =
      placedPieces T s start (current ++ " " ++ sentence) (stop + gap + sentence.length) rest := by
  have hnot : ¬(current ≠ "" ∧ s.size < (current ++ " " ++ sentence).length) := by
    rw [length_append_blank]
    omega
  rw [placedPieces, appendSentence_solid hcurrent hsentence]
  dsimp only
  rw [if_neg hnot, if_neg hcurrent.nonempty]

theorem placedPieces_full (hcurrent : Solid T current) (hsentence : Solid T sentence)
    (hfull : s.size < current.length + 1 + sentence.length) :
    placedPieces T s start current stop ((gap, sentence) :: rest) =
      (start, current) ::
        placedPieces T s
          (if overlapPrefix T s.overlap current = "" then stop + gap
            else stop - (overlapPrefix T s.overlap current).length)
          (restart T s current sentence) (stop + gap + sentence.length) rest := by
  rw [placedPieces, appendSentence_solid hcurrent hsentence]
  refine if_pos ⟨hcurrent.nonempty, ?_⟩
  rw [length_append_blank]
  exact hfull

/-- The piece being filled is the start of a piece at its place. -/
theorem exists_placed (start stop : Nat) (hcurrent : Solid T current)
    (hrest : ∀ pair ∈ rest, Solid T pair.2) :
    ∃ piece, (start, piece) ∈ placedPieces T s start current stop rest ∧
      current.toList <+: piece.toList := by
  induction rest generalizing current stop with
  | nil =>
    rw [placedPieces, if_pos hcurrent.nonempty]
    exact ⟨current, List.mem_cons_self, List.prefix_refl _⟩
  | cons pair rest ih =>
    obtain ⟨gap, sentence⟩ := pair
    have hsentence : Solid T sentence := hrest _ List.mem_cons_self
    by_cases hfull : s.size < current.length + 1 + sentence.length
    · rw [placedPieces_full hcurrent hsentence hfull]
      exact ⟨current, List.mem_cons_self, List.prefix_refl _⟩
    · rw [placedPieces_fits hcurrent hsentence (by omega)]
      obtain ⟨piece, hmem, hbegins⟩ := ih (stop + gap + sentence.length)
        (solid_append hcurrent hsentence) fun x hx => hrest x (List.mem_cons_of_mem _ hx)
      refine ⟨piece, hmem, List.IsPrefix.trans ?_ hbegins⟩
      rw [String.toList_append, String.toList_append, List.append_assoc]
      exact List.prefix_append _ _

end Round

section Joining

variable {text left sentence : String} {start stop : Nat} {space more : List Char}

/-- A sentence behind a blank is joined in place. -/
theorem at_join (hnormal : Normalized T text) (hleft : At text start left)
    (hstop : stop = start + left.length)
    (hdrop : text.toList.drop stop = space ++ sentence.toList ++ more)
    (hspace : ∀ c ∈ space, T.isSpace c = true) (hgap : space.length ≠ 0) :
    At text start (left ++ " " ++ sentence) ∧ space.length = 1 := by
  have hparts : text.toList.drop stop = space ++ (sentence.toList ++ more) := by
    rw [hdrop, List.append_assoc]
  rcases hnormal.gap hparts hspace with rfl | rfl
  · exact absurd rfl hgap
  · refine ⟨hleft.append (' ' :: sentence.toList) ?_ ?_, rfl⟩
    · rw [← hstop, hparts]
      exact ⟨more, rfl⟩
    · rw [String.toList_append, String.toList_append, List.append_assoc]
      rfl

/-- A sentence right behind the text before it is not. -/
theorem not_at_join (hspace : T.isSpace ' ' = true) (hsentence : Solid T sentence)
    (hstop : stop = start + left.length) (hdrop : text.toList.drop stop = sentence.toList ++ more)
    {piece : String} (hpiece : (left ++ " " ++ sentence).toList <+: piece.toList) :
    ¬ At text start piece := by
  intro hat
  have hblank := (hat.of_prefix hpiece).blank rfl
  rw [← hstop, hdrop, List.head?_append_of_ne_nil _ hsentence.toList_ne_nil] at hblank
  have hfirst := hsentence.trimmed.first _ hblank
  rw [hspace] at hfirst
  cases hfirst

end Joining

/-- **The loop invariant**: the piece being filled is the text at its place and ends where the reading
    does.  From there on the pieces are the text at their places exactly if the joins are spaced. -/
theorem placedPieces_at_iff (hspace : T.isSpace ' ' = true) {text : String}
    (hnormal : Normalized T text) {s : ChunkSettings} {start stop used : Nat} {current : String}
    {cs : List Char} {pairs : List (Nat × String)} (hpairs : Gapped T cs pairs)
    (hsolid : ∀ pair ∈ pairs, Solid T pair.2) (hdrop : text.toList.drop stop = cs)
    (hcurrent : Solid T current) (hat : At text start current)
    (hstop : stop = start + current.length) (hused : s.overlap = 0 → used = current.length) :
    (∀ p ∈ placedPieces T s start current stop pairs, At text p.1 p.2) ↔ JoinsSpaced s used pairs := by
  induction hpairs generalizing start stop used current with
  | nil =>
    rw [placedPieces, if_pos hcurrent.nonempty, JoinsSpaced]
    simpa using hat
  | @cons space more sentence rest hblank hmore ih =>
    have hsentence : Solid T sentence := hsolid _ List.mem_cons_self
    have hrest : ∀ pair ∈ rest, Solid T pair.2 := fun x hx => hsolid x (List.mem_cons_of_mem _ hx)
    have hafter : text.toList.drop (stop + space.length + sentence.length) = more := by
      rw [← List.drop_drop, ← List.drop_drop, hdrop, List.append_assoc, List.drop_left,
        ← String.length_toList, List.drop_left]
    -- joining the sentence to what stands to the left of it in the piece
    have hjoin : ∀ left l, Solid T left → At text l left → stop = l + left.length →
        (s.overlap = 0 → used = left.length) →
        ((∀ p ∈ placedPieces T s l (left ++ " " ++ sentence) (stop + space.length + sentence.length) rest,
            At text p.1 p.2) ↔
          space.length ≠ 0 ∧ JoinsSpaced s (used + 1 + sentence.length) rest) := by
      intro left l hleft hatLeft hstopLeft husedLeft
      have hnew := solid_append hleft hsentence
      have hlength := length_append_blank left sentence
      by_cases hgap : space.length ≠ 0
      · obtain ⟨hatNew, hone⟩ := at_join hnormal hatLeft hstopLeft hdrop hblank hgap
        have hloop := ih hrest hafter hnew hatNew (by omega) fun h0 => by rw [hlength, ← husedLeft h0]
        rw [hloop, and_iff_right hgap]
      · obtain rfl := List.length_eq_zero_iff.mp (not_not.mp hgap)
        obtain ⟨piece, hmem, hbegins⟩ := exists_placed (s := s) l
          (stop + 0 + sentence.length) hnew hrest
        have hnot := not_at_join hspace hsentence hstopLeft hdrop hbegins
        exact iff_of_false (fun h => hnot (h _ hmem)) fun h => hgap h.1
    rw [JoinsSpaced]
    by_cases hfull : s.size < current.length + 1 + sentence.length
    · rw [placedPieces_full hcurrent hsentence hfull, List.forall_mem_cons, and_iff_right hat]
      by_cases hoverlap : s.overlap = 0
      · -- the new piece is the sentence, and its gap does not matter
        have hnone : overlapPrefix T s.overlap current = "" := if_pos hoverlap
        have hatNew : At text (stop + space.length) sentence := by
          unfold At
          rw [← List.drop_drop, hdrop, List.append_assoc, List.drop_left]
          exact List.prefix_append _ _
        rw [if_pos hnone, if_pos ⟨hoverlap, by rw [hused hoverlap]; exact hfull⟩,
          restart_of_zero hspace hoverlap hsentence]
        exact ih hrest hafter hsentence hatNew rfl fun _ => rfl
      · -- the new piece is the end of the last one, and the sentence is joined to that
        have hbegins := solid_overlapPrefix hoverlap hcurrent
        have hle := length_overlapPrefix_le T s.overlap current
        have hatNew := hat.suffix (overlapPrefix_suffix T s.overlap current)
        rw [← hstop] at hatNew
        have hnot : ¬(s.overlap = 0 ∧ s.size < used + 1 + sentence.length) := fun h => hoverlap h.1
        rw [if_neg hbegins.nonempty, if_neg hnot, restart_of_pos hoverlap hcurrent
          hsentence]
        exact hjoin _ _ hbegins hatNew (by omega) fun h0 => absurd h0 hoverlap
    · rw [placedPieces_fits hcurrent hsentence (by omega), if_neg]
      · exact hjoin current start hcurrent hat hstop hused
      · rintro ⟨h0, hlong⟩
        rw [hused h0] at hlong
        exact hfull hlong

/-- What a window leaves stands in the text where the window says. -/
theorem exists_windowAt (T : PyText) (s : ChunkSettings) (text : String) (start : Nat) :
    ∃ left right, (text.toList.drop start).take s.size =
        left ++ (windowAt T s text start).2.toList ++ right ∧
      (windowAt T s text start).1 = start + left.length ∧ (∀ c ∈ left, T.isSpace c = true) ∧
      ∀ c ∈ right, T.isSpace c = true := by
  obtain ⟨right, hwindow, hright⟩ := T.exists_strip (String.ofList ((text.toList.drop start).take s.size))
  rw [String.toList_ofList] at hwindow
  exact ⟨_, right, hwindow, rfl, fun c hc => List.mem_takeWhile_imp hc, hright⟩

theorem at_windowAt (s : ChunkSettings) (text : String) (start : Nat) :
    At text (windowAt T s text start).1 (windowAt T s text start).2 := by
  obtain ⟨left, right, hwindow, hplace, _, _⟩ := exists_windowAt T s text start
  have hbegins := List.take_prefix s.size (text.toList.drop start)
  rw [hwindow] at hbegins
  obtain ⟨tail, htail⟩ := hbegins
  unfold At
  rw [hplace, ← List.drop_drop, ← htail, List.append_assoc, List.append_assoc, List.drop_left]
  exact List.prefix_append _ _

/-- In the loop over the sentences, the blanks that join them are the text's. -/
def BlanksInPlace (T : PyText) (s : ChunkSettings) (text : String) : Prop :=
  SentenceMode T s text → ∀ gap first rest,
    withGaps T text.toList (sentencesOf T text) = (gap, first) :: rest →
      JoinsSpaced s first.length rest

theorem placedPieces_first (hspace : T.isSpace ' ' = true) {s : ChunkSettings} {gap : Nat}
    {sentence : String} {rest : List (Nat × String)} (hsentence : Solid T sentence) :
    placedPieces T s 0 "" 0 ((gap, sentence) :: rest) =
      placedPieces T s gap sentence (gap + sentence.length) rest := by
  rw [placedPieces, appendSentence_empty hspace hsentence]
  dsimp only
  rw [if_neg fun h => h.1 rfl, if_pos rfl, Nat.zero_add]

theorem placedPieces_all_at_iff (hspace : T.isSpace ' ' = true) (s : ChunkSettings) {text : String}
    (hnormal : Normalized T text) {cs : List Char} {pairs : List (Nat × String)}
    (hpairs : Gapped T cs pairs) (hcs : text.toList = cs) (hsolid : ∀ pair ∈ pairs, Solid T pair.2) :
    (∀ p ∈ placedPieces T s 0 "" 0 pairs, At text p.1 p.2) ↔
      ∀ gap first rest, pairs = (gap, first) :: rest → JoinsSpaced s first.length rest := by
  cases hpairs with
  | nil => simp [placedPieces]
  | @cons space more sentence rest hblank hmore =>
    have hsentence : Solid T sentence := hsolid _ List.mem_cons_self
    have hfirst : text.toList.drop space.length = sentence.toList ++ more := by
      rw [hcs, List.append_assoc, List.drop_left]
    have hafter : text.toList.drop (space.length + sentence.length) = more := by
      rw [← List.drop_drop, hfirst, ← String.length_toList, List.drop_left]
    have hat : At text space.length sentence := by
      unfold At
      rw [hfirst]
      exact List.prefix_append _ _
    rw [placedPieces_first hspace hsentence, placedPieces_at_iff hspace hnormal hmore
      (fun x hx => hsolid x (List.mem_cons_of_mem _ hx)) hafter hsentence hat rfl fun _ => rfl]
    constructor
    · rintro hspaced gap first rest' heq
      cases heq
      exact hspaced
    · intro h
      exact h _ _ _ rfl

theorem placed_at_iff (hspace : T.isSpace ' ' = true) (s : ChunkSettings) {text : String}
    (hnormal : Normalized T text) :
    (∀ p ∈ placed T s text, At text p.1 p.2) ↔ BlanksInPlace T s text := by
  have hsentences : ∀ x ∈ sentencesOf T text, Solid T x := fun x hx => solid_of_mem_sentencesOf hx
  have hgapped := gapped_withGaps (scattered_sentencesOf text) hsentences
  have hsolid : ∀ pair ∈ withGaps T text.toList (sentencesOf T text), Solid T pair.2 := by
    intro pair hpair
    have hmem : pair.2 ∈ (withGaps T text.toList (sentencesOf T text)).map Prod.snd :=
      List.mem_map_of_mem hpair
    rw [map_snd_withGaps] at hmem
    exact hsentences _ hmem
  unfold placed
  by_cases hshort : text.length ≤ s.size
  · rw [if_pos hshort]
    refine iff_of_true ?_ fun hmode => absurd hmode.1 (not_lt.mpr hshort)
    intro p hp
    obtain rfl := List.mem_singleton.mp hp
    exact List.prefix_refl _
  · rw [if_neg hshort]
    by_cases hmode : SentenceMode T s text
    · rw [if_pos hmode, placedPieces_all_at_iff hspace s hnormal hgapped rfl hsolid]
      exact ⟨fun h _ => h, fun h => h hmode⟩
    · rw [if_neg hmode]
      refine iff_of_true ?_ fun h => absurd h hmode
      intro p hp
      obtain ⟨start, _, rfl⟩ := List.mem_map.mp hp
      exact at_windowAt s text start

/-- **When splitting alters nothing.**  Every piece is a part of the text, and the text at its place,
    exactly if no two sentences are joined that stand side by side in the text. -/
theorem splitting_unaltered_iff (T : PyText) (hspace : T.isSpace ' ' = true) (s : ChunkSettings)
    (text : String) (hnormal : Normalized T text) :
    ((∀ piece ∈ splitLongText T s text, piece.toList <:+: text.toList) ∧
      ∀ p ∈ placed T s text, At text p.1 p.2) ↔ BlanksInPlace T s text := by
  rw [← placed_at_iff hspace s hnormal]
  refine ⟨fun h => h.2, fun h => ⟨?_, h⟩⟩
  intro piece hpiece
  rw [← map_snd_placed] at hpiece
  obtain ⟨p, hp, rfl⟩ := List.mem_map.mp hpiece
  exact (h p hp).isInfix.trans (List.drop_suffix _ _).isInfix

theorem splitting_unaltered_iff_ascii :
    ((∀ piece ∈ splitLongText PyText.ascii tenFive "We sold. At cost.",
        piece.toList <:+: "We sold. At cost.".toList) ∧
      ∀ p ∈ placed PyText.ascii tenFive "We sold. At cost.", At "We sold. At cost." p.1 p.2) ↔
      BlanksInPlace PyText.ascii tenFive "We sold. At cost." :=
  splitting_unaltered_iff PyText.ascii rfl tenFive "We sold. At cost." (by decide +kernel)

/-- The decimal point of `3.14` ends a sentence, and the pieces have `3. 14`. -/
theorem splitting_alters_decimals :
    Normalized PyText.ascii "Rose 3.14 percent" ∧
    ¬ ∀ piece ∈ splitLongText PyText.ascii tenFive "Rose 3.14 percent",
      piece.toList <:+: "Rose 3.14 percent".toList :=
  ⟨by decide +kernel, by decide +kernel⟩

/-! ## Nothing is lost: the loop over the sentences -/

/-- The pieces without what each takes over from the one before; `taken` is that for the first. -/
def ownParts (T : PyText) (overlap : Nat) (taken : Nat) : List String → List (List Char)
  | [] => []
  | piece :: later =>
    piece.toList.drop taken :: ownParts T overlap (overlapPrefix T overlap piece).length later

theorem Scattered.ink {cs : List Char} {sentences : List String} (h : Scattered T cs sentences) :
    T.ink (sentences.flatMap String.toList) = T.ink cs := by
  induction h with
  | nil hcs => exact (PyText.ink_space hcs).symm
  | @cons space more sentence rest hspace hmore ih =>
    rw [List.flatMap_cons, PyText.ink_append, PyText.ink_append, PyText.ink_append, ih,
      PyText.ink_space hspace, List.nil_append]

theorem ink_append_blank (hspace : T.isSpace ' ' = true) {taken : Nat} {left : String}
    (htaken : taken ≤ left.length) (sentence : String) :
    T.ink ((left ++ " " ++ sentence).toList.drop taken) =
      T.ink (left.toList.drop taken) ++ T.ink sentence.toList := by
  have hblank : T.ink (" " : String).toList = [] := by
    refine PyText.ink_space ?_
    intro c hc
    obtain rfl : c = ' ' := by simpa using hc
    exact hspace
  have hle : taken ≤ left.toList.length := by
    rw [String.length_toList]
    exact htaken
  rw [String.toList_append, String.toList_append, List.append_assoc, List.drop_append_of_le_length hle,
    PyText.ink_append, PyText.ink_append, hblank, List.nil_append]

/-- The piece after a full one starts with the overlap and then has the sentence. -/
theorem restart_parts (hspace : T.isSpace ' ' = true) {s : ChunkSettings} {current sentence : String}
    (hcurrent : Solid T current) (hsentence : Solid T sentence) :
    (overlapPrefix T s.overlap current).toList <+: (restart T s current sentence).toList ∧
      T.ink ((restart T s current sentence).toList.drop (overlapPrefix T s.overlap current).length) =
        T.ink sentence.toList := by
  by_cases hoverlap : s.overlap = 0
  · have hnone : overlapPrefix T s.overlap current = "" := if_pos hoverlap
    rw [restart_of_zero hspace hoverlap hsentence, hnone]
    exact ⟨List.nil_prefix, rfl⟩
  · rw [restart_of_pos hoverlap hcurrent hsentence, ink_append_blank hspace le_rfl,
      ← String.length_toList, List.drop_length]
    refine ⟨?_, rfl⟩
    rw [String.toList_append, String.toList_append, List.append_assoc]
    exact List.prefix_append _ _

/-- Each piece starts with the overlap of the one before it. -/
theorem overlaps_sentencePieces (hspace : T.isSpace ' ' = true) {s : ChunkSettings} {current : String}
    {rest : List String} (hcurrent : Solid T current) (hrest : ∀ x ∈ rest, Solid T x) :
    (sentencePieces T s current rest).IsChain fun piece next =>
      (overlapPrefix T s.overlap piece).toList <+: next.toList := by
  induction rest generalizing current with
  | nil =>
    rw [sentencePieces, if_pos hcurrent.nonempty]
    exact List.isChain_singleton current
  | cons sentence rest ih =>
    have hsentence := hrest sentence List.mem_cons_self
    have hrest' : ∀ x ∈ rest, Solid T x := fun x hx => hrest x (List.mem_cons_of_mem _ hx)
    by_cases hfull : s.size < current.length + 1 + sentence.length
    · have hnew := solid_restart (s := s) hspace hcurrent hsentence
      obtain ⟨piece, later, hpieces, hgrown⟩ := exists_piece (s := s) hspace hnew hrest'
      have hlater := ih hnew hrest'
      rw [sentencePieces_full hcurrent hsentence hfull, hpieces]
      rw [hpieces] at hlater
      exact List.isChain_cons_cons.mpr
        ⟨(restart_parts hspace hcurrent hsentence).1.trans hgrown, hlater⟩
    · rw [sentencePieces_fits hcurrent hsentence (by omega)]
      exact ih (solid_append hcurrent hsentence) hrest'

/-- **The own parts have everything there is to see**, and have it once. -/
theorem ink_ownParts (hspace : T.isSpace ' ' = true) {s : ChunkSettings} {current : String}
    {rest : List String} {taken : Nat} (hcurrent : Solid T current) (htaken : taken ≤ current.length)
    (hrest : ∀ x ∈ rest, Solid T x) :
    T.ink (ownParts T s.overlap taken (sentencePieces T s current rest)).flatten =
      T.ink (current.toList.drop taken) ++ T.ink (rest.flatMap String.toList) := by
  induction rest generalizing current taken with
  | nil =>
    rw [sentencePieces, if_pos hcurrent.nonempty]
    simp [ownParts]
  | cons sentence rest ih =>
    have hsentence := hrest sentence List.mem_cons_self
    have hrest' : ∀ x ∈ rest, Solid T x := fun x hx => hrest x (List.mem_cons_of_mem _ hx)
    rw [List.flatMap_cons, PyText.ink_append]
    by_cases hfull : s.size < current.length + 1 + sentence.length
    · have hnew := solid_restart (s := s) hspace hcurrent hsentence
      obtain ⟨hbegins, hink⟩ := restart_parts (s := s) hspace hcurrent hsentence
      have hle := hbegins.length_le
      rw [String.length_toList, String.length_toList] at hle
      -- the full piece is an own part; what the next one takes over of it is dropped there
      rw [sentencePieces_full hcurrent hsentence hfull, ownParts, List.flatten_cons, PyText.ink_append,
        ih hnew hle hrest', hink]
    · have hlength := length_append_blank current sentence
      rw [sentencePieces_fits hcurrent hsentence (by omega),
        ih (solid_append hcurrent hsentence) (by omega) hrest', ink_append_blank hspace htaken,
        List.append_assoc]

/-! ## Nothing is lost: the loop over the windows -/

/-- There is nothing to see at this place of the text. -/
def Blank (T : PyText) (text : String) (i : Nat) : Prop :=
  ∀ c, text.toList[i]? = some c → T.isSpace c = true

/-- Where a piece ends in the text. -/
def reach (p : Nat × String) : Nat := p.1 + p.2.length

/-- What a window leaves of the text. -/
structure WindowLeaves (T : PyText) (s : ChunkSettings) (text : String) (start : Nat)
    (p : Nat × String) : Prop where
  after : start ≤ p.1
  before : reach p ≤ start + s.size
  blankBefore : ∀ i, start ≤ i → i < p.1 → Blank T text i
  blankAfter : ∀ i, reach p ≤ i → i < start + s.size → Blank T text i
  ends : p.2 ≠ "" → p.1 < reach p ∧ ¬Blank T text p.1 ∧ ¬Blank T text (reach p - 1)

theorem blank_of_mem {text : String} {i j : Nat} {l before part behind : List Char}
    (hi : text.toList[i]? = l[j]?) (hl : l = before ++ part ++ behind)
    (hpart : ∀ c ∈ part, T.isSpace c = true) (hfrom : before.length ≤ j)
    (hto : j < before.length + part.length) : Blank T text i := by
  intro c hc
  have hlen : (before ++ part).length = before.length + part.length := List.length_append
  rw [hi, hl, List.getElem?_append_left (by omega), List.getElem?_append_right hfrom] at hc
  exact hpart c (List.mem_of_getElem? hc)

theorem windowLeaves_windowAt (T : PyText) (s : ChunkSettings) (text : String) (start : Nat) :
    WindowLeaves T s text start (windowAt T s text start) := by
  obtain ⟨left, right, hwindow, hplace, hleft, hright⟩ := exists_windowAt T s text start
  have htrimmed : T.Trimmed (windowAt T s text start).2.toList := PyText.trimmed_strip _
  generalize windowAt T s text start = p at *
  have hlength : left.length + p.2.length + right.length ≤ s.size := by
    have hle : ((text.toList.drop start).take s.size).length ≤ s.size := List.length_take_le _ _
    rwa [hwindow, List.length_append, List.length_append, String.length_toList] at hle
  have hsum : (left ++ p.2.toList).length = left.length + p.2.length := by
    rw [List.length_append, String.length_toList]
  have hreach : reach p = start + left.length + p.2.length := by
    unfold reach
    rw [hplace]
  have hindex : ∀ i, start ≤ i → i < start + s.size →
      text.toList[i]? = (left ++ p.2.toList ++ right)[i - start]? := by
    intro i hfrom hto
    have hi : start + (i - start) = i := by omega
    rw [← hwindow, List.getElem?_take_of_lt (by omega), List.getElem?_drop, hi]
  refine ⟨by omega, by omega, ?_, ?_, ?_⟩
  -- before the piece and behind it: white space, or the end of the text
  · intro i hfrom hto
    have hparts : left ++ p.2.toList ++ right = [] ++ left ++ (p.2.toList ++ right) := by simp
    refine blank_of_mem (hindex i hfrom (by omega)) hparts hleft (Nat.zero_le _) ?_
    rw [List.length_nil]
    omega
  · intro i hfrom hto
    have hparts : left ++ p.2.toList ++ right = left ++ p.2.toList ++ right ++ [] := by simp
    by_cases hin : i < reach p + right.length
    · exact blank_of_mem (hindex i (by omega) hto) hparts hright (by omega) (by omega)
    · -- behind the last character of the text
      intro c hc
      have hnone : (left ++ p.2.toList ++ right)[i - start]? = none := by
        rw [List.getElem?_eq_none_iff, List.length_append]
        omega
      rw [hindex i (by omega) hto, hnone] at hc
      cases hc
  -- its own ends: a stripped text has none
  · intro hne
    have hcs : p.2.toList ≠ [] := mt String.toList_eq_nil_iff.mp hne
    have hpos : 0 < p.2.length := by
      rw [← String.length_toList]
      exact List.length_pos_iff.mpr hcs
    refine ⟨by omega, ?_, ?_⟩
    · intro hblank
      have hhead := List.head?_eq_some_head hcs
      have hspace := hblank (p.2.toList.head hcs) (by
        have hzero : p.1 - start - left.length = 0 := by omega
        rw [hindex p.1 (by omega) (by omega), List.append_assoc, List.getElem?_append_right (by omega),
          hzero, ← List.head?_eq_getElem?, List.head?_append_of_ne_nil _ hcs, hhead])
      rw [htrimmed.first _ hhead] at hspace
      cases hspace
    · intro hblank
      have hlast := List.getLast?_eq_some_getLast hcs
      have hspace := hblank (p.2.toList.getLast hcs) (by
        have hend : reach p - 1 - start - left.length = p.2.toList.length - 1 := by
          rw [String.length_toList]
          omega
        rw [hindex (reach p - 1) (by omega) (by omega), List.getElem?_append_left (by omega),
          List.getElem?_append_right (by omega), hend, ← List.getLast?_eq_getElem?, hlast])
      rw [htrimmed.last _ hlast] at hspace
      cases hspace

section Windows

variable {s : ChunkSettings} {text : String}

/-- What a window has to see is in what it leaves. -/
theorem WindowLeaves.covers {start i : Nat} {p : Nat × String} (h : WindowLeaves T s text start p)
    (hfrom : start ≤ i) (hto : i < start + s.size) (hi : ¬Blank T text i) : p.1 ≤ i ∧ i < reach p := by
  constructor
  · by_contra hlt
    exact hi (h.blankBefore i hfrom (by omega))
  · by_contra hle
    exact hi (h.blankAfter i (by omega) hto)

/-- A later window reaches further, unless all it adds is white space. -/
theorem WindowLeaves.reaches {a b : Nat} {p q : Nat × String} (hp : WindowLeaves T s text a p)
    (hq : WindowLeaves T s text b q) (hpne : p.2 ≠ "") (hqne : q.2 ≠ "") (hab : a < b) :
    p.1 ≤ q.1 ∧ reach p ≤ reach q ∧
      (reach p = reach q ↔ ∀ i, a + s.size ≤ i → i < b + s.size → Blank T text i) := by
  obtain ⟨hpPos, hpFirst, hpLast⟩ := hp.ends hpne
  obtain ⟨hqPos, hqFirst, hqLast⟩ := hq.ends hqne
  have hpAfter := hp.after
  have hpBefore := hp.before
  have hqAfter := hq.after
  have hqBefore := hq.before
  -- otherwise the last character of `p`, which is to be seen, would be in what `q` strips
  have hmono : reach p ≤ reach q := by
    by_contra hlt
    exact hpLast (hq.blankAfter _ (by omega) (by omega))
  refine ⟨?_, hmono, ?_, ?_⟩
  · by_contra hlt
    exact hqFirst (hp.blankBefore _ (by omega) (by omega))
  · intro heq i hfrom hto
    exact hq.blankAfter i (by omega) hto
  · intro hblank
    by_contra hne
    by_cases hin : reach q - 1 < a + s.size
    · exact hqLast (hp.blankAfter _ (by omega) hin)
    · exact hqLast (hblank _ (by omega) (by omega))

theorem usedWindows_sublist (s : ChunkSettings) (text : String) (starts : List Nat) :
    (usedWindows T s text starts).Sublist starts := by
  induction starts with
  | nil => exact List.Sublist.refl []
  | cons start rest ih =>
    have hlater : (if text.length ≤ start + s.size then [] else usedWindows T s text rest).Sublist rest := by
      split
      · exact List.nil_sublist rest
      · exact ih
    rw [usedWindows]
    split
    · exact hlater.cons_cons start
    · exact hlater.cons start

theorem nonempty_of_mem_usedWindows {starts : List Nat} {start : Nat}
    (h : start ∈ usedWindows T s text starts) : (windowAt T s text start).2 ≠ "" := by
  induction starts with
  | nil => cases h
  | cons first rest ih =>
    have hlater : start ∈ (if text.length ≤ first + s.size then [] else usedWindows T s text rest) →
        (windowAt T s text start).2 ≠ "" := by
      split
      · intro hnil
        cases hnil
      · exact ih
    rw [usedWindows] at h
    split at h
    · rename_i hne
      rcases List.mem_cons.mp h with rfl | h
      · exact hne
      · exact hlater h
    · exact hlater h

/-- Windows with no gap between them, the last of which reaches the end of the text. -/
def Covering (s : ChunkSettings) (stop : Nat) : List Nat → Prop
  | [] => True
  | [last] => stop ≤ last + s.size
  | a :: b :: rest => b ≤ a + s.size ∧ Covering s stop (b :: rest)

theorem mem_usedWindows_cons {first start : Nat} {rest : List Nat} (hmore : first + s.size < text.length)
    (h : start ∈ usedWindows T s text rest) : start ∈ usedWindows T s text (first :: rest) := by
  rw [usedWindows, if_neg (not_le.mpr hmore)]
  split
  · exact List.mem_cons_of_mem first h
  · exact h

theorem exists_window {first : Nat} {rest : List Nat} (h : Covering s text.length (first :: rest))
    {i : Nat} (hfrom : first ≤ i) (hi : ¬Blank T text i) :
    ∃ start ∈ usedWindows T s text (first :: rest),
      (windowAt T s text start).1 ≤ i ∧ i < reach (windowAt T s text start) := by
  have hlt : i < text.length := by
    by_contra hge
    refine hi ?_
    intro c hc
    rw [List.getElem?_eq_none (by rw [String.length_toList]; omega)] at hc
    cases hc
  -- a place inside the first window is in what it leaves
  have hinside : ∀ first rest, first ≤ i → i < first + s.size →
      ∃ start ∈ usedWindows T s text (first :: rest),
        (windowAt T s text start).1 ≤ i ∧ i < reach (windowAt T s text start) := by
    intro first rest hfrom hto
    have hin := (windowLeaves_windowAt T s text first).covers hfrom hto hi
    have hne : (windowAt T s text first).2 ≠ "" := by
      intro hempty
      unfold reach at hin
      rw [hempty, String.length_empty] at hin
      omega
    refine ⟨first, ?_, hin⟩
    rw [usedWindows, if_pos hne]
    exact List.mem_cons_self
  induction rest generalizing first with
  | nil =>
    have hend : text.length ≤ first + s.size := h
    exact hinside first [] hfrom (by omega)
  | cons next rest ih =>
    obtain ⟨hnext, hcover⟩ : next ≤ first + s.size ∧ Covering s text.length (next :: rest) := h
    by_cases hto : i < first + s.size
    · exact hinside first (next :: rest) hfrom hto
    · obtain ⟨start, hstart, hin⟩ := ih hcover (by omega)
      exact ⟨start, mem_usedWindows_cons (by omega) hstart, hin⟩

end Windows

/-- The windows of `range(0, stop, step)` leave no gap, as a step is never longer than a window. -/
theorem covering_range' {s : ChunkSettings} {stop step : Nat} (hstep : step ≤ s.size) (n k : Nat)
    (hstop : stop ≤ (k + n) * step) : Covering s stop ((List.range' k n).map fun i => i * step) := by
  induction n generalizing k with
  | zero => trivial
  | succ n ih =>
    have hnext : (k + 1) * step = k * step + step := Nat.succ_mul k step
    cases n with
    | zero =>
      have hlast : k + (0 + 1) = k + 1 := rfl
      rw [hlast, hnext] at hstop
      show stop ≤ k * step + s.size
      omega
    | succ n =>
      have hindex : k + 1 + (n + 1) = k + (n + 1 + 1) := by omega
      refine ⟨?_, ih (k + 1) ?_⟩
      · show (k + 1) * step ≤ k * step + s.size
        omega
      · rw [hindex]
        exact hstop

theorem covering_rangeStep {s : ChunkSettings} {stop step : Nat} (hpos : 0 < step)
    (hstep : step ≤ s.size) : Covering s stop (rangeStep stop step) := by
  unfold rangeStep
  rw [List.range_eq_range']
  refine covering_range' hstep _ 0 ?_
  have hdiv := Nat.lt_div_mul_add (a := stop + step - 1) hpos
  rw [Nat.zero_add]
  omega

theorem rangeStep_eq_cons {stop step : Nat} (hstop : 0 < stop) (hpos : 0 < step) :
    ∃ rest, rangeStep stop step = 0 :: rest := by
  have hsome : 0 < (stop + step - 1) / step := Nat.div_pos (by omega) hpos
  obtain ⟨n, hn⟩ := Nat.exists_eq_succ_of_ne_zero hsome.ne'
  unfold rangeStep
  rw [hn, List.range_succ_eq_map, List.map_cons, Nat.zero_mul]
  exact ⟨_, rfl⟩

theorem pairwise_rangeStep {stop step : Nat} (hpos : 0 < step) :
    (rangeStep stop step).Pairwise (· < ·) := by
  refine List.Pairwise.map _ ?_ (List.pairwise_lt_range (n := (stop + step - 1) / step))
  intro a b hab
  exact Nat.mul_lt_mul_of_pos_right hab hpos

/-- Which windows the loop uses, what of the text they have, and how they follow each other. -/
structure WindowsCover (T : PyText) (s : ChunkSettings) (text : String) (starts : List Nat) : Prop where
  pieces : splitLongText T s text = starts.map fun start => (windowAt T s text start).2
  inPlace : ∀ start ∈ starts, At text (windowAt T s text start).1 (windowAt T s text start).2
  covered : ∀ i, ¬Blank T text i → ∃ start ∈ starts,
    (windowAt T s text start).1 ≤ i ∧ i < reach (windowAt T s text start)
  inOrder : starts.Pairwise fun a b => a < b ∧ (windowAt T s text a).1 ≤ (windowAt T s text b).1 ∧
    reach (windowAt T s text a) ≤ reach (windowAt T s text b)
  further : starts.Pairwise fun a b =>
    (reach (windowAt T s text a) = reach (windowAt T s text b) ↔
      ∀ i, a + s.size ≤ i → i < b + s.size → Blank T text i)

theorem windowsCover {s : ChunkSettings} {text : String} (hlong : s.size < text.length)
    (hmode : ¬SentenceMode T s text) :
    WindowsCover T s text (usedWindows T s text (rangeStep text.length (s.size - s.overlap))) := by
  have hpos : 0 < s.size - s.overlap := by
    have hlt := s.overlap_lt_size
    omega
  have hsub := usedWindows_sublist (T := T) s text (rangeStep text.length (s.size - s.overlap))
  have hcover : Covering s text.length (rangeStep text.length (s.size - s.overlap)) :=
    covering_rangeStep hpos (Nat.sub_le _ _)
  have horder : (usedWindows T s text (rangeStep text.length (s.size - s.overlap))).Pairwise (· < ·) :=
    (pairwise_rangeStep hpos).sublist hsub
  have hreaches : ∀ {a b}, a ∈ usedWindows T s text (rangeStep text.length (s.size - s.overlap)) →
      b ∈ usedWindows T s text (rangeStep text.length (s.size - s.overlap)) → a < b → _ :=
    fun {a b} ha hb hab => (windowLeaves_windowAt T s text a).reaches (windowLeaves_windowAt T s text b)
      (nonempty_of_mem_usedWindows ha) (nonempty_of_mem_usedWindows hb) hab
  constructor
  · rw [← map_snd_placed]
    unfold placed
    rw [if_neg (not_le.mpr hlong), if_neg hmode, List.map_map]
    rfl
  · exact fun start _ => at_windowAt s text start
  · intro i hi
    obtain ⟨rest, hrest⟩ := rangeStep_eq_cons (Nat.zero_lt_of_lt hlong) hpos
    rw [hrest] at hcover ⊢
    exact exists_window hcover (Nat.zero_le i) hi
  · exact horder.imp_of_mem fun ha hb hab => ⟨hab, (hreaches ha hb hab).1, (hreaches ha hb hab).2.1⟩
  · exact horder.imp_of_mem fun ha hb hab => (hreaches ha hb hab).2.2

theorem sentences_kept (hspace : T.isSpace ' ' = true) {s : ChunkSettings} {text : String}
    (hmode : SentenceMode T s text) :
    ((splitLongText T s text).IsChain fun piece next =>
        (overlapPrefix T s.overlap piece).toList <+: next.toList) ∧
      T.ink (ownParts T s.overlap 0 (splitLongText T s text)).flatten = T.ink text.toList := by
  have hsolid : ∀ x ∈ sentencesOf T text, Solid T x := fun x hx => solid_of_mem_sentencesOf hx
  have hink := (scattered_sentencesOf (T := T) text).ink
  have hmany := hmode.2.1
  rw [splitLongText_sentences hmode, ← hink]
  generalize sentencesOf T text = sentences at hsolid hmany
  cases sentences with
  | nil => cases hmany
  | cons first rest =>
    have hfirst := hsolid first List.mem_cons_self
    have hrest : ∀ x ∈ rest, Solid T x := fun x hx => hsolid x (List.mem_cons_of_mem _ hx)
    rw [sentencePieces_first hspace hfirst, List.flatMap_cons, PyText.ink_append]
    exact ⟨overlaps_sentencePieces hspace hfirst hrest,
      ink_ownParts hspace hfirst (Nat.zero_le _) hrest⟩

/-- **Splitting loses nothing.**  The own parts of the sentence pieces have the visible characters of the
    text, in order and once; the windows cover every visible character, in order, and a later one
    reaches further unless all it adds is white space. -/
theorem splitting_loses_nothing (T : PyText) (hspace : T.isSpace ' ' = true) (s : ChunkSettings)
    (text : String) (hlong : s.size < text.length) :
    (SentenceMode T s text →
      ((splitLongText T s text).IsChain fun piece next =>
        (overlapPrefix T s.overlap piece).toList <+: next.toList) ∧
      T.ink (ownParts T s.overlap 0 (splitLongText T s text)).flatten = T.ink text.toList) ∧
    (¬SentenceMode T s text → ∃ starts, WindowsCover T s text starts) :=
  ⟨sentences_kept hspace, fun hmode => ⟨_, windowsCover hlong hmode⟩⟩

/-- Windows of four characters, with three in common. -/
def fourThree : ChunkSettings := ⟨4, 3, by decide⟩

theorem splitting_loses_nothing_fourThree :
    (SentenceMode PyText.ascii fourThree "abcd efgh" →
      ((splitLongText PyText.ascii fourThree "abcd efgh").IsChain fun piece next =>
        (overlapPrefix PyText.ascii 3 piece).toList <+: next.toList) ∧
      PyText.ascii.ink (ownParts PyText.ascii 3 0
        (splitLongText PyText.ascii fourThree "abcd efgh")).flatten =
          PyText.ascii.ink "abcd efgh".toList) ∧
    (¬SentenceMode PyText.ascii fourThree "abcd efgh" →
      ∃ starts, WindowsCover PyText.ascii fourThree "abcd efgh" starts) :=
  splitting_loses_nothing PyText.ascii rfl fourThree "abcd efgh" (by decide +kernel)

/-- The second window of `abcd efgh` adds the blank, which is stripped: its piece reaches no further. -/
theorem window_reaches_no_further :
    4 < "abcd efgh".length ∧ ¬SentenceMode PyText.ascii fourThree "abcd efgh" ∧
      (placed PyText.ascii fourThree "abcd efgh").take 2 = [(0, "abcd"), (1, "bcd")] ∧
      ¬ (placed PyText.ascii fourThree "abcd efgh").IsChain fun p q => reach p < reach q := by
  decide +kernel

end FinancialRag.Ingestion
