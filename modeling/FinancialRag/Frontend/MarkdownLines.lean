/-
  Where the lines of a text go in `parseRestrictedMarkdown`.

  A block takes the lines it is made of, without their marks, and the next block the lines behind them: `Holds`
  says what each kind of block holds, of which lines, and `parse_keeps_lines` that the lines of all blocks are the
  lines of the text that are not blank.  A line is told by its marks alone here, so that none of the tests of the
  loop, of its inner loops and of the end of a paragraph can take a line for another kind.
-/
import Mathlib.Data.List.Forall2
import FinancialRag.Frontend.Markdown

set_option linter.unusedVariables false

namespace FinancialRag.Frontend

open JsString

variable {lower : JsString → JsString}

/-! ## Marks -/

/-- White space, and a text behind it that starts visibly. -/
def Spaced (rest text : JsString) : Prop :=
  ∃ space, rest = space ++ text ∧ space ≠ [] ∧ (∀ c ∈ space, isSpace c = true) ∧ text.head?.any (fun c => !isSpace c) = true

/-- `#` to `####` before a text. -/
def IsHeading (trimmed : JsString) (level : Nat) (text : JsString) : Prop :=
  1 ≤ level ∧ level ≤ 4 ∧ ∃ rest, trimmed = List.replicate level 35 ++ rest ∧ Spaced rest text

/-- `-`, `*` or `+` before a text. -/
def IsBulleted (trimmed text : JsString) : Prop :=
  ∃ mark rest, (mark = 45 ∨ mark = 42 ∨ mark = 43) ∧ trimmed = mark :: rest ∧ Spaced rest text

def isDigit (c : CodeUnit) : Bool := decide (48 ≤ c.val) && decide (c.val ≤ 57)

/-- A number with `.` or `)` before a text. -/
def IsNumbered (trimmed text : JsString) : Prop :=
  ∃ digits mark rest, digits ≠ [] ∧ (∀ c ∈ digits, isDigit c = true) ∧ (mark = 46 ∨ mark = 41) ∧
    trimmed = digits ++ mark :: rest ∧ Spaced rest text

/-- `>`, with one unit of white space if there is any, before a text. -/
def IsQuoted (trimmed text : JsString) : Prop :=
  ∃ space, trimmed = 62 :: (space ++ text) ∧ space.length ≤ 1 ∧ (∀ c ∈ space, isSpace c = true) ∧
    (space = [] → text.head?.any isSpace = false)

/-- A line without marks, and not one of the section labels. -/
structure Plain (lower : JsString → JsString) (trimmed : JsString) : Prop where
  heading : ∀ level text, ¬ IsHeading trimmed level text
  label : isSectionLabel lower trimmed = false
  rule : isRule trimmed = false
  bulleted : ∀ text, ¬ IsBulleted trimmed text
  numbered : ∀ text, ¬ IsNumbered trimmed text
  quoted : ∀ text, ¬ IsQuoted trimmed text

/-- What a block holds of the lines it is made of. -/
def Holds (lower : JsString → JsString) (ls : List JsString) : MarkdownBlock → Prop
  | .heading level text => ∃ line, ls = [line] ∧ IsHeading (trim line) level text
  | .label text => ∃ line, ls = [line] ∧ isSectionLabel lower (trim line) = true ∧ text = trim line
  | .horizontalRule => ∃ line, ls = [line] ∧ isRule (trim line) = true
  | .unorderedList items => List.Forall₂ (fun line item => IsBulleted (trim line) item) ls items
  | .orderedList items => List.Forall₂ (fun line item => IsNumbered (trim line) item) ls items
  | .blockquote text =>
    ∃ quoteLines, List.Forall₂ (fun line quoted => IsQuoted (trim line) quoted) ls quoteLines ∧ text = unlines quoteLines
  | .paragraph text => (∀ line ∈ ls, Plain lower (trim line)) ∧ text = unlines (ls.map trim)

/-! ## What the regular expressions match -/

/-- A line as the expressions meet it: no line terminator inside, and no white space at the end. -/
structure Clean (s : JsString) : Prop where
  dots : s.all isDot = true
  last : ∀ c ∈ s.getLast?, isSpace c = false

theorem Clean.suffix {s rest : JsString} (h : Clean s) (hrest : rest <:+ s) : Clean rest where
  dots := List.all_eq_true.mpr fun c hc => List.all_eq_true.mp h.dots c (hrest.subset hc)
  last c hc := by
    obtain ⟨before, rfl⟩ := hrest
    exact h.last c (List.mem_getLast?_append_of_mem_getLast? hc)

theorem last_trim {line : JsString} {c : CodeUnit} (hc : c ∈ (trim line).getLast?) : isSpace c = false := by
  have hnot := List.rdropWhile_last_not isSpace (line.dropWhile isSpace)
  unfold trim Strip.strip at hc
  obtain ⟨hne, rfl⟩ := List.mem_getLast?_eq_getLast hc
  exact Bool.not_eq_true _ ▸ hnot hne

theorem clean_trim {line : JsString} (h : line.all isDot = true) : Clean (trim line) where
  dots := List.all_eq_true.mpr fun c hc => List.all_eq_true.mp h c (mem_of_mem_trim hc)
  last _ := last_trim

/-- A text that ends visibly has something visible. -/
theorem Clean.dropWhile_ne_nil {s : JsString} (h : Clean s) (hne : s ≠ []) : s.dropWhile isSpace ≠ [] := by
  intro hnil
  have hall := List.dropWhile_eq_nil_iff.mp hnil
  have hlast := h.last _ (List.getLast?_eq_some_getLast hne)
  rw [hall _ (List.getLast_mem hne)] at hlast
  cases hlast

theorem Clean.trim_dropWhile {s : JsString} (h : Clean s) : trim (s.dropWhile isSpace) = s.dropWhile isSpace := by
  have hclean := h.suffix (List.dropWhile_suffix isSpace)
  unfold trim Strip.strip
  rw [List.dropWhile_idempotent, List.rdropWhile_eq_self_iff]
  intro hne
  rw [hclean.last _ (List.getLast?_eq_some_getLast hne)]
  exact Bool.false_ne_true

theorem spaced_iff {rest text : JsString} (h : Clean rest) :
    Spaced rest text ↔ rest.head?.any isSpace = true ∧ text = rest.dropWhile isSpace := by
  constructor
  · rintro ⟨space, rfl, hne, hspace, htext⟩
    constructor
    · cases space with
      | nil => exact absurd rfl hne
      | cons c space => exact hspace c List.mem_cons_self
    · rw [List.dropWhile_append_of_pos hspace]
      cases text with
      | nil => cases htext
      | cons c text => rw [List.dropWhile_cons_of_neg (by simpa using htext)]
  · rintro ⟨hhead, rfl⟩
    refine ⟨rest.takeWhile isSpace, List.takeWhile_append_dropWhile.symm, ?_, fun c hc => List.mem_takeWhile_imp hc, ?_⟩
    · cases rest with
      | nil => cases hhead
      | cons c rest =>
        have hc : isSpace c = true := hhead
        rw [List.takeWhile_cons_of_pos hc]
        exact List.cons_ne_nil _ _
    · have hne : rest ≠ [] := by
        rintro rfl
        cases hhead
      have hfirst := List.head?_dropWhile_not isSpace rest
      cases hdrop : rest.dropWhile isSpace with
      | nil => exact absurd hdrop (h.dropWhile_ne_nil hne)
      | cons c text =>
        rw [hdrop] at hfirst
        simpa using hfirst

theorem spacedStart_eq {rest : JsString} (h : Clean rest) : spacedStart rest = rest.head?.any isSpace := by
  unfold spacedStart
  cases rest with
  | nil => rfl
  | cons c rest =>
    have hvisible : ((c :: rest).dropWhile isSpace).isEmpty = false :=
      List.isEmpty_eq_false_iff.mpr (h.dropWhile_ne_nil (List.cons_ne_nil c rest))
    rw [hvisible, Bool.not_false, Bool.and_true]

/-- All the white space is cut. -/
theorem spacedRest_eq {rest : JsString} (h : Clean rest) :
    spacedRest rest = if rest.head?.any isSpace then some (rest.dropWhile isSpace) else none := by
  cases rest with
  | nil => rfl
  | cons c rest =>
    cases hc : isSpace c with
    | false =>
      have hnone : (c :: rest).takeWhile isSpace = [] := List.takeWhile_cons_of_neg (by simp [hc])
      simp [spacedRest, hnone, hc]
    | true =>
      have hparts := List.takeWhile_append_dropWhile (p := isSpace) (l := c :: rest)
      obtain ⟨m, hm⟩ : ∃ m, ((c :: rest).takeWhile isSpace).length = m + 1 := by
        rw [List.takeWhile_cons_of_pos hc]
        exact ⟨_, rfl⟩
      have hdrop : (c :: rest).drop (1 + m) = (c :: rest).dropWhile isSpace := by
        conv_lhs => rw [← hparts]
        rw [Nat.add_comm, ← hm, List.drop_left]
      have hclean := h.suffix (List.dropWhile_suffix isSpace)
      have hvisible : ((c :: rest).dropWhile isSpace).isEmpty = false :=
        List.isEmpty_eq_false_iff.mpr (h.dropWhile_ne_nil (List.cons_ne_nil c rest))
      unfold spacedRest
      rw [hm, List.range'_concat, List.reverse_append, List.map_append, Nat.one_mul]
      simp only [List.reverse_cons, List.reverse_nil, List.nil_append, List.map_cons, List.map_nil, List.cons_append]
      rw [hdrop, List.find?_cons_of_pos (by rw [hvisible, hclean.dots]; rfl)]
      simp [hc]

theorem spaced_of_spacedRest {rest part : JsString} (h : Clean rest) (hpart : spacedRest rest = some part) :
    Spaced rest (trim part) := by
  rw [spacedRest_eq h] at hpart
  split at hpart
  · rename_i hhead
    obtain rfl := Option.some.inj hpart
    exact (spaced_iff h).mpr ⟨hhead, h.trim_dropWhile⟩
  · cases hpart

theorem not_spaced_of_spacedStart {rest text : JsString} (h : Clean rest) (hstart : spacedStart rest = false) :
    ¬ Spaced rest text := by
  rw [spaced_iff h, ← spacedStart_eq h, hstart]
  exact fun hspaced => Bool.false_ne_true hspaced.1

theorem not_spaced_of_spacedRest {rest text : JsString} (h : Clean rest) (hnone : spacedRest rest = none) :
    ¬ Spaced rest text := by
  rw [spaced_iff h]
  rintro ⟨hhead, -⟩
  rw [spacedRest_eq h, if_pos hhead] at hnone
  cases hnone

theorem afterBullet_eq_some_iff {s rest : JsString} :
    afterBullet s = some rest ↔ ∃ mark, (mark = 45 ∨ mark = 42 ∨ mark = 43) ∧ s = mark :: rest := by
  constructor
  · intro h
    cases s with
    | nil => cases h
    | cons c cs =>
      rw [afterBullet] at h
      split at h
      · rename_i hc
        obtain rfl := Option.some.inj h
        exact ⟨c, hc, rfl⟩
      · cases h
  · rintro ⟨mark, hmark, rfl⟩
    exact if_pos hmark

theorem afterQuote_eq_some_iff {s rest : JsString} : afterQuote s = some rest ↔ s = 62 :: rest := by
  constructor
  · intro h
    cases s with
    | nil => cases h
    | cons c cs =>
      rw [afterQuote] at h
      split at h
      · rename_i hc
        obtain rfl := Option.some.inj h
        rw [hc]
      · cases h
  · rintro rfl
    rfl

theorem afterNumber_eq_some_iff {s rest : JsString} :
    afterNumber s = some rest ↔ ∃ digits mark, digits ≠ [] ∧ (∀ c ∈ digits, isDigit c = true) ∧
      (mark = 46 ∨ mark = 41) ∧ s = digits ++ mark :: rest := by
  have hparts := List.takeWhile_append_dropWhile (p := isDigit) (l := s)
  constructor
  · intro h
    unfold afterNumber at h
    dsimp only at h
    split at h
    · rename_i d ds c cs htake hdrop
      split at h
      · rename_i hc
        obtain rfl := Option.some.inj h
        refine ⟨d :: ds, c, List.cons_ne_nil d ds, fun x hx => ?_, hc, ?_⟩
        · rw [← htake] at hx
          exact List.mem_takeWhile_imp hx
        · rw [← htake, ← hdrop]
          exact hparts.symm
      · cases h
    · cases h
  · rintro ⟨digits, mark, hne, hdigits, hmark, rfl⟩
    have hstop : isDigit mark = false := by
      rcases hmark with rfl | rfl
      · decide
      · decide
    have htake : (digits ++ mark :: rest).takeWhile isDigit = digits := by
      rw [List.takeWhile_append_of_pos hdigits, List.takeWhile_cons_of_neg (by simp [hstop]), List.append_nil]
    have hdrop : (digits ++ mark :: rest).dropWhile isDigit = mark :: rest := by
      rw [List.dropWhile_append_of_pos hdigits, List.dropWhile_cons_of_neg (by simp [hstop])]
    cases digits with
    | nil => exact absurd rfl hne
    | cons d ds =>
      unfold isDigit at htake hdrop
      unfold afterNumber
      dsimp only
      rw [htake, hdrop]
      exact if_pos hmark

theorem hashes_eq_some {s rest : JsString} {level : Nat} (h : hashes 1 4 s = some (level, rest)) :
    1 ≤ level ∧ level ≤ 4 ∧ s = List.replicate level 35 ++ rest := by
  have hmarks : s.takeWhile (· == 35) = List.replicate (s.takeWhile (· == 35)).length 35 :=
    List.eq_replicate_of_mem fun c hc => by simpa using List.mem_takeWhile_imp hc
  unfold hashes at h
  dsimp only at h
  split at h
  · rename_i hlevel
    obtain ⟨rfl, rfl⟩ := Prod.mk.inj (Option.some.inj h)
    refine ⟨hlevel.1, hlevel.2, ?_⟩
    have htake := List.prefix_iff_eq_take.mp (List.takeWhile_prefix (l := s) (· == (35 : CodeUnit)))
    conv_lhs => rw [← List.take_append_drop (s.takeWhile (· == (35 : CodeUnit))).length s, ← htake, hmarks]
    rw [List.length_replicate]
  · cases h

theorem hashes_of_eq {rest : JsString} {level : Nat} (hlow : 1 ≤ level) (hhigh : level ≤ 4)
    (hrest : rest.head?.any isSpace = true) : hashes 1 4 (List.replicate level 35 ++ rest) = some (level, rest) := by
  have hmarks : (List.replicate level 35 ++ rest).takeWhile (· == (35 : CodeUnit)) = List.replicate level 35 := by
    rw [List.takeWhile_append_of_pos fun c hc => by simp [List.eq_of_mem_replicate hc]]
    cases rest with
    | nil => cases hrest
    | cons c rest =>
      have hc : (c == (35 : CodeUnit)) = false := by
        refine beq_eq_false_iff_ne.mpr fun heq => ?_
        have hspace : isSpace c = true := hrest
        rw [heq] at hspace
        exact absurd hspace (by decide)
      rw [List.takeWhile_cons_of_neg (by simp [hc]), List.append_nil]
  unfold hashes
  dsimp only
  rw [hmarks, List.length_replicate, if_pos ⟨hlow, hhigh⟩]
  simp

/-! ## The marks of a line -/

section Marks

variable {after : Option JsString} {s : JsString}

theorem spaced_of_bind {part : JsString} (h : ∀ rest, after = some rest → Clean rest)
    (hpart : after.bind spacedRest = some part) : ∃ rest, after = some rest ∧ Spaced rest (trim part) := by
  obtain ⟨rest, rfl, hrest⟩ := Option.bind_eq_some_iff.mp hpart
  exact ⟨rest, rfl, spaced_of_spacedRest (h rest rfl) hrest⟩

theorem not_spaced_of_any (h : ∀ rest, after = some rest → Clean rest) (hnone : after.any spacedStart = false)
    {rest text : JsString} (hrest : after = some rest) : ¬ Spaced rest text := by
  rw [hrest] at hnone
  exact not_spaced_of_spacedStart (h rest hrest) hnone

theorem clean_afterBullet (h : Clean s) {rest : JsString} (hrest : afterBullet s = some rest) : Clean rest := by
  obtain ⟨mark, -, rfl⟩ := afterBullet_eq_some_iff.mp hrest
  exact h.suffix (List.suffix_cons mark rest)

theorem clean_afterNumber (h : Clean s) {rest : JsString} (hrest : afterNumber s = some rest) : Clean rest := by
  obtain ⟨digits, mark, -, -, -, rfl⟩ := afterNumber_eq_some_iff.mp hrest
  exact h.suffix ((List.suffix_cons mark rest).trans (List.suffix_append digits _))

theorem isBulleted_of_item (h : Clean s) {part : JsString} (hpart : bulletedItem s = some part) :
    IsBulleted s (trim part) := by
  obtain ⟨rest, hrest, hspaced⟩ := spaced_of_bind (fun _ => clean_afterBullet h) hpart
  obtain ⟨mark, hmark, rfl⟩ := afterBullet_eq_some_iff.mp hrest
  exact ⟨mark, rest, hmark, rfl, hspaced⟩

theorem not_isBulleted (h : Clean s) (hnone : startsBulleted s = false) (text : JsString) : ¬ IsBulleted s text := by
  rintro ⟨mark, rest, hmark, hs, hspaced⟩
  have hrest := afterBullet_eq_some_iff.mpr ⟨mark, hmark, hs⟩
  exact not_spaced_of_any (fun _ => clean_afterBullet h) hnone hrest hspaced

theorem isNumbered_of_item (h : Clean s) {part : JsString} (hpart : numberedItem s = some part) :
    IsNumbered s (trim part) := by
  obtain ⟨rest, hrest, hspaced⟩ := spaced_of_bind (fun _ => clean_afterNumber h) hpart
  obtain ⟨digits, mark, hne, hdigits, hmark, rfl⟩ := afterNumber_eq_some_iff.mp hrest
  exact ⟨digits, mark, rest, hne, hdigits, hmark, rfl, hspaced⟩

theorem not_isNumbered (h : Clean s) (hnone : startsNumbered s = false) (text : JsString) : ¬ IsNumbered s text := by
  rintro ⟨digits, mark, rest, hne, hdigits, hmark, hs, hspaced⟩
  have hrest := afterNumber_eq_some_iff.mpr ⟨digits, mark, hne, hdigits, hmark, hs⟩
  exact not_spaced_of_any (fun _ => clean_afterNumber h) hnone hrest hspaced

theorem isQuoted_of_line (h : Clean s) {text : JsString} (htext : quotedLine s = some text) : IsQuoted s text := by
  obtain ⟨rest, hrest, htext⟩ := Option.bind_eq_some_iff.mp htext
  obtain rfl := afterQuote_eq_some_iff.mp hrest
  have hdots := (h.suffix (List.suffix_cons 62 rest)).dots
  cases rest with
  | nil =>
    obtain rfl := Option.some.inj htext
    exact ⟨[], rfl, Nat.zero_le 1, fun _ hc => absurd hc List.not_mem_nil, fun _ => rfl⟩
  | cons c rest =>
    have hrest' : rest.all isDot = true := (Bool.and_eq_true_iff.mp hdots).2
    have heq : (if isSpace c then some rest else some (c :: rest)) = some text := by
      rw [← htext]
      show _ = if isSpace c && rest.all isDot then some rest else if (c :: rest).all isDot then some (c :: rest) else none
      rw [hrest', hdots, Bool.and_true, if_pos rfl]
    -- one unit of white space belongs to the mark
    cases hc : isSpace c with
    | true =>
      rw [hc, if_pos rfl] at heq
      obtain rfl := Option.some.inj heq
      exact ⟨[c], rfl, le_rfl, fun d hd => List.mem_singleton.mp hd ▸ hc, fun hnil => by cases hnil⟩
    | false =>
      rw [hc, if_neg Bool.false_ne_true] at heq
      obtain rfl := Option.some.inj heq
      exact ⟨[], rfl, Nat.zero_le 1, fun _ hd => absurd hd List.not_mem_nil, fun _ => hc⟩

theorem not_isQuoted (hnone : startsQuoted s = false) (text : JsString) : ¬ IsQuoted s text := by
  rintro ⟨space, hs, -⟩
  have hrest := afterQuote_eq_some_iff.mpr hs
  rw [startsQuoted, hrest] at hnone
  cases hnone

theorem isHeading_of_heading (h : Clean s) {level : Nat} {text : JsString} (hfound : heading s = some (level, text)) :
    IsHeading s level text := by
  obtain ⟨marks, hmarks, hrest⟩ := Option.bind_eq_some_iff.mp hfound
  obtain ⟨part, hpart, heq⟩ := Option.map_eq_some_iff.mp hrest
  obtain ⟨level', rest⟩ := marks
  obtain ⟨rfl, rfl⟩ := Prod.mk.inj heq
  obtain ⟨hlow, hhigh, rfl⟩ := hashes_eq_some hmarks
  exact ⟨hlow, hhigh, rest, rfl, spaced_of_spacedRest (h.suffix (List.suffix_append _ rest)) hpart⟩

theorem not_isHeading (h : Clean s) (hnone : heading s = none) (level : Nat) (text : JsString) :
    ¬ IsHeading s level text := by
  rintro ⟨hlow, hhigh, rest, rfl, hspaced⟩
  have hrest := h.suffix (List.suffix_append _ rest)
  have hmarks := hashes_of_eq hlow hhigh ((spaced_iff hrest).mp hspaced).1
  unfold heading at hnone
  rw [hmarks, Option.bind_some, Option.map_eq_none_iff] at hnone
  exact not_spaced_of_spacedRest hrest hnone hspaced

/-- A line that is no block start is plain: the test of a paragraph sees every mark. -/
theorem plain_of_not_isBlockStart {line : JsString} (h : Clean (trim line)) (hstart : isBlockStart lower line = false) :
    Plain lower (trim line) := by
  unfold isBlockStart at hstart
  simp only [Bool.or_eq_false_iff] at hstart
  obtain ⟨⟨⟨⟨⟨hheading, hbulleted⟩, hnumbered⟩, hquoted⟩, hrule⟩, hlabel⟩ := hstart
  refine ⟨?_, hlabel, hrule, not_isBulleted h hbulleted, not_isNumbered h hnumbered, not_isQuoted hquoted⟩
  rintro level text ⟨hlow, hhigh, rest, hline, hspaced⟩
  have hrest := h.suffix (hline ▸ List.suffix_append _ rest)
  have hmarks := hashes_of_eq hlow hhigh ((spaced_iff hrest).mp hspaced).1
  rw [hline, hmarks] at hheading
  exact not_spaced_of_spacedStart hrest hheading hspaced

end Marks

/-! ## The lines of a list or a quote -/

theorem takeItems_eq (item : JsString → Option JsString) (lines : List JsString) :
    ∃ taken, lines = taken ++ (takeItems item lines).2 ∧
      List.Forall₂ (fun line text => item (trim line) = some text) taken (takeItems item lines).1 := by
  induction lines with
  | nil => exact ⟨[], rfl, List.Forall₂.nil⟩
  | cons line rest ih =>
    obtain ⟨taken, htaken, hitems⟩ := ih
    rw [takeItems]
    cases hitem : item (trim line) with
    | none => exact ⟨[], rfl, List.Forall₂.nil⟩
    | some text =>
      refine ⟨line :: taken, ?_, List.Forall₂.cons hitem hitems⟩
      show line :: rest = line :: (taken ++ _)
      rw [← htaken]

/-- A line that opens a list or a quote is the first one of it. -/
theorem takeItems_ne_nil {item : JsString → Option JsString} {line : JsString} {rest taken : List JsString}
    (hitem : item (trim line) ≠ none) (htaken : line :: rest = taken ++ (takeItems item (line :: rest)).2) :
    taken ≠ [] := by
  rintro rfl
  obtain ⟨text, htext⟩ := Option.ne_none_iff_exists'.mp hitem
  have hle : (takeItems item (line :: rest)).2.length ≤ rest.length := (takeItems_of_some htext).length_le
  have hlength := congrArg List.length htaken
  rw [List.nil_append, List.length_cons] at hlength
  omega

theorem bind_spacedRest_ne_none {after : Option JsString} (h : ∀ rest, after = some rest → Clean rest)
    (hstart : after.any spacedStart = true) : after.bind spacedRest ≠ none := by
  obtain ⟨rest, rfl, hspaced⟩ := exists_of_any hstart
  rw [spacedStart_eq (h rest rfl)] at hspaced
  rw [Option.bind_some, spacedRest_eq (h rest rfl), if_pos hspaced]
  exact Option.some_ne_none _

theorem quotedLine_ne_none {s : JsString} (h : Clean s) (hstart : startsQuoted s = true) : quotedLine s ≠ none := by
  obtain ⟨rest, hrest⟩ := Option.isSome_iff_exists.mp hstart
  rw [quotedLine, hrest, Option.bind_some, ne_eq, quotedRest_eq_none_iff]
  obtain rfl := afterQuote_eq_some_iff.mp hrest
  have hdots := (h.suffix (List.suffix_cons 62 rest)).dots
  have hnone : ∀ t : JsString, t.all isDot = true → t.any isLineTerminator = false := by
    intro t ht
    refine List.any_eq_false.mpr fun c hc => ?_
    have hdot := List.all_eq_true.mp ht c hc
    simpa [isDot] using hdot
  cases rest with
  | nil => exact Bool.false_ne_true
  | cons c rest =>
    rw [hidesInQuote, hnone _ hdots, hnone rest (Bool.and_eq_true_iff.mp hdots).2, ite_self]
    exact Bool.false_ne_true

theorem IsBulleted.visible {s text : JsString} (h : IsBulleted s text) : s.isEmpty = false := by
  obtain ⟨mark, rest, -, rfl, -⟩ := h
  rfl

theorem IsNumbered.visible {s text : JsString} (h : IsNumbered s text) : s.isEmpty = false := by
  obtain ⟨digits, mark, rest, -, -, -, rfl, -⟩ := h
  exact List.isEmpty_eq_false_iff.mpr (List.append_ne_nil_of_right_ne_nil digits (List.cons_ne_nil mark rest))

theorem IsQuoted.visible {s text : JsString} (h : IsQuoted s text) : s.isEmpty = false := by
  obtain ⟨space, rfl, -⟩ := h
  rfl

theorem forall₂_imp_of_mem {R S : JsString → JsString → Prop} {ls texts : List JsString} (h : List.Forall₂ R ls texts)
    (himp : ∀ line ∈ ls, ∀ text, R line text → S line text) : List.Forall₂ S ls texts := by
  have hboth : List.Forall₂ (fun line text => line ∈ ls ∧ R line text) ls texts :=
    (List.forall₂_and_left ls texts).mpr ⟨fun _ hline => hline, h⟩
  exact hboth.imp fun line text hline => himp line hline.1 text hline.2

theorem visible_of_forall₂ {R : JsString → JsString → Prop} (hR : ∀ line text, R line text → (trim line).isEmpty = false)
    {ls texts : List JsString} (h : List.Forall₂ R ls texts) : ∀ line ∈ ls, (trim line).isEmpty = false := by
  induction h with
  | nil => exact fun _ hline => absurd hline List.not_mem_nil
  | cons hfirst _ ih =>
    intro line hline
    rcases List.mem_cons.mp hline with rfl | hrest
    · exact hR _ _ hfirst
    · exact ih line hrest

/-! ## One round of the loop -/

/-- A block and the lines it takes. -/
structure StartsBlock (lower : JsString → JsString) (taken : List JsString) (block : MarkdownBlock) : Prop where
  holds : Holds lower taken block
  nonempty : taken ≠ []
  visible : ∀ line ∈ taken, (trim line).isEmpty = false

/-- What a round does: it skips a blank line, or pushes a block that takes the lines it consumes. -/
inductive Round (lower : JsString → JsString) (lines left : List JsString) (blocks : List MarkdownBlock) :
    List MarkdownBlock → Prop
  | skips {line : JsString} : lines = line :: left → (trim line).isEmpty = true → Round lower lines left blocks blocks
  | pushes {taken : List JsString} {block : MarkdownBlock} : lines = taken ++ left → StartsBlock lower taken block →
      Round lower lines left blocks (blocks ++ [block])

theorem round_one {line : JsString} {rest : List JsString} {blocks : List MarkdownBlock} {block : MarkdownBlock}
    (hvisible : (trim line).isEmpty = false) (hholds : Holds lower [line] block) :
    Round lower (line :: rest) rest blocks (blocks ++ [block]) :=
  .pushes (show line :: rest = [line] ++ rest from rfl)
    ⟨hholds, List.cons_ne_nil line [], fun _ hline => List.mem_singleton.mp hline ▸ hvisible⟩

/-- The branches of lists and quotes. -/
theorem round_items {item : JsString → Option JsString} {R : JsString → JsString → Prop} {line : JsString}
    {rest : List JsString} {blocks : List MarkdownBlock} {block : MarkdownBlock} (hitem : item (trim line) ≠ none)
    (hR : ∀ l ∈ line :: rest, ∀ text, item (trim l) = some text → R l text)
    (hvisible : ∀ l text, R l text → (trim l).isEmpty = false)
    (hholds : ∀ taken, List.Forall₂ R taken (takeItems item (line :: rest)).1 → Holds lower taken block) :
    Round lower (line :: rest) (takeItems item (line :: rest)).2 blocks (blocks ++ [block]) := by
  obtain ⟨taken, htaken, hitems⟩ := takeItems_eq item (line :: rest)
  have htexts : List.Forall₂ R taken (takeItems item (line :: rest)).1 :=
    forall₂_imp_of_mem hitems fun l hl => hR l (htaken ▸ List.mem_append_left _ hl)
  exact .pushes htaken ⟨hholds taken htexts, takeItems_ne_nil hitem htaken, visible_of_forall₂ hvisible htexts⟩

theorem parseRound_round {line : JsString} {rest left : List JsString} {blocks blocks' : List MarkdownBlock}
    (hdots : ∀ l ∈ line :: rest, l.all isDot = true)
    (hround : parseRound lower (line :: rest) blocks = some (left, blocks')) :
    Round lower (line :: rest) left blocks blocks' := by
  have hclean : ∀ l ∈ line :: rest, Clean (trim l) := fun l hl => clean_trim (hdots l hl)
  have hfirst := hclean line List.mem_cons_self
  rw [parseRound] at hround
  dsimp only at hround
  by_cases hblank : (trim line).isEmpty = true
  · rw [if_pos hblank] at hround
    obtain ⟨rfl, rfl⟩ := Prod.mk.inj (Option.some.inj hround)
    exact .skips rfl hblank
  have hvisible : (trim line).isEmpty = false := Bool.not_eq_true _ ▸ hblank
  rw [if_neg hblank] at hround
  cases hheading : heading (trim line) with
  | some found =>
    obtain ⟨level, text⟩ := found
    rw [hheading] at hround
    obtain ⟨rfl, rfl⟩ := Prod.mk.inj (Option.some.inj hround)
    exact round_one hvisible ⟨line, rfl, isHeading_of_heading hfirst hheading⟩
  | none =>
    rw [hheading] at hround
    dsimp only at hround
    by_cases hlabel : isSectionLabel lower (trim line) = true
    · rw [if_pos hlabel] at hround
      obtain ⟨rfl, rfl⟩ := Prod.mk.inj (Option.some.inj hround)
      exact round_one hvisible ⟨line, rfl, hlabel, rfl⟩
    rw [if_neg hlabel] at hround
    by_cases hrule : isRule (trim line) = true
    · rw [if_pos hrule] at hround
      obtain ⟨rfl, rfl⟩ := Prod.mk.inj (Option.some.inj hround)
      exact round_one hvisible ⟨line, rfl, hrule⟩
    rw [if_neg hrule] at hround
    by_cases hbulleted : startsBulleted (trim line) = true
    · rw [if_pos hbulleted] at hround
      obtain ⟨rfl, rfl⟩ := Prod.mk.inj (Option.some.inj hround)
      refine round_items (bind_spacedRest_ne_none (fun _ => clean_afterBullet hfirst) hbulleted)
        (R := fun l text => IsBulleted (trim l) (trim text)) (fun l hl text => isBulleted_of_item (hclean l hl))
        (fun _ _ => IsBulleted.visible) fun taken htaken => ?_
      exact List.forall₂_map_right_iff.mpr htaken
    rw [if_neg hbulleted] at hround
    by_cases hnumbered : startsNumbered (trim line) = true
    · rw [if_pos hnumbered] at hround
      obtain ⟨rfl, rfl⟩ := Prod.mk.inj (Option.some.inj hround)
      refine round_items (bind_spacedRest_ne_none (fun _ => clean_afterNumber hfirst) hnumbered)
        (R := fun l text => IsNumbered (trim l) (trim text)) (fun l hl text => isNumbered_of_item (hclean l hl))
        (fun _ _ => IsNumbered.visible) fun taken htaken => ?_
      exact List.forall₂_map_right_iff.mpr htaken
    rw [if_neg hnumbered] at hround
    by_cases hquoted : startsQuoted (trim line) = true
    · rw [if_pos hquoted] at hround
      obtain ⟨rfl, rfl⟩ := Prod.mk.inj (Option.some.inj hround)
      refine round_items (quotedLine_ne_none hfirst hquoted) (R := fun l text => IsQuoted (trim l) text)
        (fun l hl text => isQuoted_of_line (hclean l hl)) (fun _ _ => IsQuoted.visible) fun taken htaken => ?_
      exact ⟨_, htaken, rfl⟩
    rw [if_neg hquoted] at hround
    obtain ⟨rfl, rfl⟩ := Prod.mk.inj (Option.some.inj hround)
    -- the paragraph goes on as long as no line is blank or marked
    have hplain : Plain lower (trim line) :=
      ⟨not_isHeading hfirst hheading, Bool.not_eq_true _ ▸ hlabel, Bool.not_eq_true _ ▸ hrule,
        not_isBulleted hfirst (Bool.not_eq_true _ ▸ hbulleted), not_isNumbered hfirst (Bool.not_eq_true _ ▸ hnumbered),
        not_isQuoted (Bool.not_eq_true _ ▸ hquoted)⟩
    have hgoes : ∀ l ∈ rest.takeWhile (continuesParagraph lower), (trim l).isEmpty = false ∧ Plain lower (trim l) := by
      intro l hl
      have hcontinues := List.mem_takeWhile_imp hl
      unfold continuesParagraph at hcontinues
      obtain ⟨hfull, hstart⟩ := Bool.and_eq_true_iff.mp hcontinues
      have hmem := List.mem_cons_of_mem line ((List.takeWhile_sublist _).subset hl)
      exact ⟨Bool.not_eq_true' _ ▸ hfull, plain_of_not_isBlockStart (hclean l hmem) (Bool.not_eq_true' _ ▸ hstart)⟩
    have hlines : line :: rest =
        (line :: rest.takeWhile (continuesParagraph lower)) ++ rest.dropWhile (continuesParagraph lower) := by
      rw [List.cons_append, List.takeWhile_append_dropWhile]
    refine .pushes hlines ⟨⟨?_, rfl⟩, List.cons_ne_nil _ _, ?_⟩
    · intro l hl
      rcases List.mem_cons.mp hl with rfl | hrest
      · exact hplain
      · exact (hgoes l hrest).2
    · intro l hl
      rcases List.mem_cons.mp hl with rfl | hrest
      · exact hvisible
      · exact (hgoes l hrest).1

/-! ## Blocks without a text -/

/-- The block has nothing in it; a rule has nothing to hold. -/
def MarkdownBlock.IsEmpty : MarkdownBlock → Prop
  | .heading _ text => text = []
  | .label text => text = []
  | .paragraph text => text = []
  | .unorderedList items => items = []
  | .orderedList items => items = []
  | .blockquote text => text = []
  | .horizontalRule => False

theorem not_spaced_nil {rest : JsString} : ¬ Spaced rest [] := by
  rintro ⟨space, -, -, -, htext⟩
  cases htext

theorem eq_nil_of_unlines_eq_nil {ls : List JsString} (h : unlines ls = []) : ∀ line ∈ ls, line = [] := by
  cases ls with
  | nil => exact fun _ hline => absurd hline List.not_mem_nil
  | cons first rest =>
    cases rest with
    | nil =>
      intro line hline
      rw [List.mem_singleton.mp hline]
      rwa [unlines, List.intercalate_singleton] at h
    | cons second rest =>
      -- a second line comes with a break
      rw [unlines, List.intercalate_cons_cons] at h
      exact absurd h (by simp)

/-- A quote mark by itself, which is the only line that leaves nothing. -/
theorem eq_quoteMark {line : JsString} (h : IsQuoted (trim line) []) : trim line = [62] := by
  obtain ⟨space, hline, -, hspace, -⟩ := h
  cases space with
  | nil => exact hline
  | cons c space =>
    have hlast : (c :: space).getLast (List.cons_ne_nil c space) ∈ (trim line).getLast? := by
      rw [hline, List.append_nil, List.getLast?_cons_cons, List.getLast?_eq_some_getLast (List.cons_ne_nil c space)]
      rfl
    have hvisible := last_trim hlast
    rw [hspace _ (List.getLast_mem _)] at hvisible
    cases hvisible

/-- **Only bare quote marks make a block without a text.** -/
theorem StartsBlock.bare_of_isEmpty {taken : List JsString} {block : MarkdownBlock} (h : StartsBlock lower taken block)
    (hempty : block.IsEmpty) : ∀ line ∈ taken, trim line = [62] := by
  obtain ⟨hholds, hnonempty, hvisible⟩ := h
  cases block with
  | heading level text =>
    obtain rfl : text = [] := hempty
    obtain ⟨line, -, -, -, rest, -, hspaced⟩ := hholds
    exact absurd hspaced not_spaced_nil
  | label text =>
    obtain ⟨line, rfl, -, htext⟩ := hholds
    obtain rfl : text = [] := hempty
    have hfull := hvisible line List.mem_cons_self
    rw [← htext] at hfull
    cases hfull
  | paragraph text =>
    obtain rfl : text = [] := hempty
    obtain ⟨line, hline⟩ := List.exists_mem_of_ne_nil taken hnonempty
    have hfull := hvisible line hline
    rw [eq_nil_of_unlines_eq_nil hholds.2.symm _ (List.mem_map_of_mem hline)] at hfull
    cases hfull
  | unorderedList items =>
    obtain rfl : items = [] := hempty
    exact absurd (List.forall₂_nil_right_iff.mp hholds) hnonempty
  | orderedList items =>
    obtain rfl : items = [] := hempty
    exact absurd (List.forall₂_nil_right_iff.mp hholds) hnonempty
  | blockquote text =>
    obtain ⟨quoteLines, hquoted, htext⟩ := hholds
    obtain rfl : text = [] := hempty
    have hnil := eq_nil_of_unlines_eq_nil htext.symm
    clear hnonempty hvisible htext
    induction hquoted with
    | nil => exact fun _ hline => absurd hline List.not_mem_nil
    | cons hfirst _ ih =>
      intro line hline
      rcases List.mem_cons.mp hline with rfl | hrest
      · exact eq_quoteMark (hnil _ List.mem_cons_self ▸ hfirst)
      · exact ih (fun text htext => hnil text (List.mem_cons_of_mem _ htext)) line hrest
  | horizontalRule => exact absurd hempty not_false

/-! ## The whole text -/

/-- The line is not blank. -/
def isVisible (line : JsString) : Bool := !(trim line).isEmpty

theorem ends_opens {state final : List JsString × List MarkdownBlock} (hends : Machine.Ends (parseBody lower) state final)
    (hdots : ∀ line ∈ state.1, line.all isDot = true) :
    ∃ groups : List (List JsString × MarkdownBlock), final.2 = state.2 ++ groups.map Prod.snd ∧
      state.1.filter isVisible = groups.flatMap Prod.fst ++ final.1.filter isVisible ∧
      ∀ g ∈ groups, StartsBlock lower g.1 g.2 := by
  induction hends with
  | done _ => exact ⟨[], by simp, by simp, fun _ hg => absurd hg List.not_mem_nil⟩
  | @next state next final hround _ ih =>
    obtain ⟨lines, blocks⟩ := state
    obtain ⟨left, blocks'⟩ := next
    cases lines with
    | nil => cases hround
    | cons line rest =>
      cases parseRound_round hdots hround with
      | skips hlines hblank =>
        obtain ⟨rfl, rfl⟩ := List.cons.inj hlines
        obtain ⟨groups, hblocks, hleft, hopens⟩ := ih fun l hl => hdots l (List.mem_cons_of_mem line hl)
        refine ⟨groups, hblocks, ?_, hopens⟩
        rw [← hleft, List.filter_cons_of_neg (by simp [isVisible, hblank])]
      | @pushes taken block hlines hopen =>
        obtain ⟨groups, hblocks, hleft, hopens⟩ := ih fun l hl => hdots l (hlines ▸ List.mem_append_right taken hl)
        have hall : taken.filter isVisible = taken :=
          List.filter_eq_self.mpr fun l hl => by rw [isVisible, hopen.visible l hl, Bool.not_false]
        refine ⟨(taken, block) :: groups, ?_, ?_, ?_⟩
        · rw [hblocks, List.append_assoc]
          rfl
        · show (line :: rest).filter isVisible = _
          rw [hlines, List.filter_append, hall, hleft, List.flatMap_cons, List.append_assoc]
        · intro g hg
          rcases List.mem_cons.mp hg with rfl | hrest
          · exact hopen
          · exact hopens g hrest

theorem not_stuck_of_dots (lower : JsString → JsString) {line : JsString} (h : line.all isDot = true) : ¬ Stuck lower line := by
  have hclean := clean_trim h
  rintro ⟨-, ⟨hstarts, hitem⟩ | ⟨hstarts, hitem⟩ | ⟨hstarts, hitem⟩⟩
  · exact bind_spacedRest_ne_none (fun _ => clean_afterBullet hclean) hstarts hitem
  · exact bind_spacedRest_ne_none (fun _ => clean_afterNumber hclean) hstarts hitem
  · exact quotedLine_ne_none hclean hstarts hitem

/-- **No line is lost**: the blocks take the lines that are not blank, in their order, and each holds what its lines
    say.  Only bare quote marks leave a block without a text. -/
theorem parse_keeps_lines (lower : JsString → JsString) (markdown : JsString)
    (h : ∀ line ∈ lines markdown, ∀ c ∈ line, c.val ≠ 0x2028 ∧ c.val ≠ 0x2029) :
    ∃ groups : List (List JsString × MarkdownBlock),
      Machine.Ends (parseBody lower) (lines markdown, []) ([], groups.map Prod.snd) ∧
      groups.flatMap Prod.fst = (lines markdown).filter isVisible ∧
      ∀ g ∈ groups, g.1 ≠ [] ∧ Holds lower g.1 g.2 ∧ (g.2.IsEmpty → ∀ line ∈ g.1, trim line = [62]) := by
  have hdots : ∀ line ∈ lines markdown, line.all isDot = true := by
    refine fun line hline => List.all_eq_true.mpr fun c hc => ?_
    obtain ⟨hlf, hcr⟩ := of_mem_lines hline hc
    obtain ⟨hls, hps⟩ := h line hline c hc
    have hvals : c.val ≠ 10 ∧ c.val ≠ 13 := ⟨fun heq => hlf (Fin.ext heq), fun heq => hcr (Fin.ext heq)⟩
    simp [isDot, isLineTerminator, hvals, hls, hps]
  obtain ⟨blocks, hends⟩ :=
    ends_of_everyRoundConsumes (everyRoundConsumes_of_not_stuck fun line hline =>
      not_stuck_of_dots lower (hdots line hline))
  obtain ⟨groups, hblocks, hlines, hopens⟩ := ends_opens hends hdots
  obtain rfl : blocks = groups.map Prod.snd := hblocks
  refine ⟨groups, hends, ?_, fun g hg => ⟨(hopens g hg).nonempty, (hopens g hg).holds, (hopens g hg).bare_of_isEmpty⟩⟩
  rw [hlines]
  exact (List.append_nil _).symm

/-- A quote mark by itself. -/
def bareQuote : JsString := ofString ">"

/-- **It makes a block without a text.** -/
theorem parse_pushes_empty :
    Machine.Ends (parseBody asciiLower) (lines bareQuote, []) ([], [.blockquote []]) ∧
      (MarkdownBlock.blockquote []).IsEmpty := by
  refine ⟨.next ?_ (.done rfl), rfl⟩
  decide +kernel

/-- `# A`, a blank line, and two lines of text. -/
def sampleMarkdown : JsString := ofString "# A\n\nb\n c"

theorem parse_keeps_lines_sample :
    ∃ groups : List (List JsString × MarkdownBlock),
      Machine.Ends (parseBody asciiLower) (lines sampleMarkdown, []) ([], groups.map Prod.snd) ∧
      groups.flatMap Prod.fst = (lines sampleMarkdown).filter isVisible ∧
      ∀ g ∈ groups, g.1 ≠ [] ∧ Holds asciiLower g.1 g.2 ∧ (g.2.IsEmpty → ∀ line ∈ g.1, trim line = [62]) := by
  refine parse_keeps_lines asciiLower sampleMarkdown fun line hline c hc => ?_
  have hall : (lines sampleMarkdown).all (fun l => l.all fun c => decide (c.val < 128)) = true := by decide +kernel
  have hless := of_decide_eq_true (List.all_eq_true.mp (List.all_eq_true.mp hall line hline) c hc)
  omega

end FinancialRag.Frontend
