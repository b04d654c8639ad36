/-
  When `parseRestrictedMarkdown` ends.

  The branches for lists and quotes are ENTERED on one regular expression and ADVANCE on another, which
  asks more: `.` does not match U+2028 and U+2029, which a line may hold.  A line that passes the first and
  not the second (`Stuck`) is never consumed by any branch, so the loop ends exactly if there is none
  (`parse_ends_iff`), and a line is stuck exactly if such a separator is in its text
  (`stuck_iff_hidesSeparator`).
-/
import Mathlib.Logic.Relation
import FinancialRag.Frontend.ReportPresentation

set_option linter.unusedVariables false

namespace FinancialRag.Frontend

open JsString

variable {lower : JsString → JsString}

/-! ## Lines that no branch consumes -/

/-- A line that opens a list or a quote and is not consumed by it. -/
def Stuck (lower : JsString → JsString) (line : JsString) : Prop :=
  isSectionLabel lower (trim line) = false ∧
    ((startsBulleted (trim line) = true ∧ bulletedItem (trim line) = none) ∨
      (startsNumbered (trim line) = true ∧ numberedItem (trim line) = none) ∨
      (startsQuoted (trim line) = true ∧ quotedLine (trim line) = none))

/-- The first unit of a line, which tells the marks apart. -/
def firstUnit (s : JsString) : Nat := (s.head?.map Fin.val).getD 0

theorem firstUnit_of_afterBullet {s rest : JsString} (h : afterBullet s = some rest) :
    firstUnit s = 45 ∨ firstUnit s = 42 ∨ firstUnit s = 43 := by
  cases s with
  | nil => cases h
  | cons c cs =>
    rw [afterBullet] at h
    split at h
    · rename_i hc
      exact hc.imp (congrArg Fin.val) (Or.imp (congrArg Fin.val) (congrArg Fin.val))
    · cases h

theorem firstUnit_of_afterQuote {s rest : JsString} (h : afterQuote s = some rest) :
    firstUnit s = 62 := by
  cases s with
  | nil => cases h
  | cons c cs =>
    rw [afterQuote] at h
    split at h
    · rename_i hc
      exact congrArg Fin.val hc
    · cases h

theorem firstUnit_of_afterNumber {s rest : JsString} (h : afterNumber s = some rest) :
    48 ≤ firstUnit s ∧ firstUnit s ≤ 57 := by
  cases s with
  | nil => cases h
  | cons c cs =>
    by_cases hdigit : 48 ≤ c.val ∧ c.val ≤ 57
    · exact hdigit
    · have hnone : (c :: cs).takeWhile
          (fun c : CodeUnit => decide (48 ≤ c.val) && decide (c.val ≤ 57)) = [] := by
        refine List.takeWhile_cons_of_neg ?_
        simpa using hdigit
      unfold afterNumber at h
      simp only [hnone] at h
      cases h

theorem firstUnit_of_hashes {s rest : JsString} {hi level : Nat} (h : hashes 1 hi s = some (level, rest)) :
    firstUnit s = 35 := by
  cases s with
  | nil => cases h
  | cons c cs =>
    by_cases hmark : c = 35
    · exact congrArg Fin.val hmark
    · have hnone : (c :: cs).takeWhile (· == 35) = [] :=
        List.takeWhile_cons_of_neg (by simpa using hmark)
      unfold hashes at h
      rw [hnone] at h
      cases h

theorem firstUnit_of_isRule {s : JsString} (h : isRule s = true) :
    firstUnit s = 45 ∨ firstUnit s = 42 ∨ firstUnit s = 95 := by
  obtain ⟨hlong, hmarks⟩ := Bool.and_eq_true_iff.mp h
  cases s with
  | nil => exact absurd (of_decide_eq_true hlong) (by decide)
  | cons c cs =>
    obtain ⟨mark, hmark, hall⟩ := List.any_eq_true.mp hmarks
    have hc : c = mark := by
      have hfirst := List.all_eq_true.mp hall c List.mem_cons_self
      simpa using hfirst
    subst hc
    simp only [List.mem_cons, List.not_mem_nil, or_false] at hmark
    exact hmark.imp (congrArg Fin.val) (Or.imp (congrArg Fin.val) (congrArg Fin.val))

/-! ## Which branch a line takes -/

theorem exists_of_any {o : Option JsString} {p : JsString → Bool} (h : o.any p = true) :
    ∃ rest, o = some rest ∧ p rest = true := by
  cases o with
  | none => cases h
  | some rest => exact ⟨rest, rfl, h⟩

/-- A list item is no rule: a mark with white space behind it. -/
theorem isRule_of_startsBulleted {s : JsString} (h : startsBulleted s = true) : isRule s = false := by
  obtain ⟨rest, hrest, hspaced⟩ := exists_of_any h
  cases s with
  | nil => cases hrest
  | cons c cs =>
    rw [afterBullet] at hrest
    split at hrest
    · obtain rfl := Option.some.inj hrest
      by_contra hrule
      obtain ⟨_, hmarks⟩ := Bool.and_eq_true_iff.mp (Bool.not_eq_false _ ▸ hrule)
      obtain ⟨mark, hmark, hall⟩ := List.any_eq_true.mp hmarks
      cases cs with
      | nil => cases hspaced
      | cons d cs =>
        have hd : d = mark := by
          have hsecond := List.all_eq_true.mp hall d (by simp)
          simpa using hsecond
        have hspace : isSpace d = true := (Bool.and_eq_true_iff.mp hspaced).1
        subst hd
        simp only [List.mem_cons, List.not_mem_nil, or_false] at hmark
        rcases hmark with rfl | rfl | rfl <;> cases hspace
    · cases hrest

/-- A stuck line has none of the items, and is neither blank, a heading nor a rule. -/
structure Unconsumed (lower : JsString → JsString) (trimmed : JsString) : Prop where
  bulleted : bulletedItem trimmed = none
  numbered : numberedItem trimmed = none
  quoted : quotedLine trimmed = none
  visible : trimmed.isEmpty = false
  heading : heading trimmed = none
  label : isSectionLabel lower trimmed = false
  rule : isRule trimmed = false
  opens : startsBulleted trimmed = true ∨ startsNumbered trimmed = true ∨ startsQuoted trimmed = true

theorem none_of_firstUnit {α : Type} {o : Option JsString} {f : JsString → Option α} {P : Prop}
    (hfirst : ∀ rest, o = some rest → P) (hnot : ¬P) : o.bind f = none := by
  cases h : o with
  | none => rfl
  | some rest => exact absurd (hfirst rest h) hnot

theorem heading_of_firstUnit {s : JsString} (h : firstUnit s ≠ 35) : heading s = none := by
  unfold Frontend.heading
  cases hhashes : hashes 1 4 s with
  | none => rfl
  | some marks =>
    obtain ⟨level, rest⟩ := marks
    exact absurd (firstUnit_of_hashes hhashes) h

theorem visible_of_firstUnit {s : JsString} (h : firstUnit s ≠ 0) : s.isEmpty = false := by
  cases s with
  | nil => exact absurd rfl h
  | cons c cs => rfl

theorem rule_of_firstUnit {s : JsString} (h : firstUnit s ≠ 45 ∧ firstUnit s ≠ 42 ∧ firstUnit s ≠ 95) :
    isRule s = false := by
  by_contra hrule
  have hmarks := firstUnit_of_isRule (Bool.not_eq_false _ ▸ hrule)
  omega

theorem Stuck.unconsumed {line : JsString} (h : Stuck lower line) : Unconsumed lower (trim line) := by
  obtain ⟨hlabel, hopens⟩ := h
  generalize trim line = trimmed at hlabel hopens
  -- the first unit of a line rules all the other branches out
  have hbullet : ∀ rest, afterBullet trimmed = some rest → _ := fun rest => firstUnit_of_afterBullet
  have hnumber : ∀ rest, afterNumber trimmed = some rest → _ := fun rest => firstUnit_of_afterNumber
  have hquote : ∀ rest, afterQuote trimmed = some rest → _ := fun rest => firstUnit_of_afterQuote
  rcases hopens with ⟨hstarts, hitem⟩ | ⟨hstarts, hitem⟩ | ⟨hstarts, hitem⟩
  · obtain ⟨rest, hrest, _⟩ := exists_of_any hstarts
    have hfirst := hbullet rest hrest
    exact ⟨hitem, none_of_firstUnit hnumber (by omega), none_of_firstUnit hquote (by omega),
      visible_of_firstUnit (by omega), heading_of_firstUnit (by omega), hlabel,
      isRule_of_startsBulleted hstarts, Or.inl hstarts⟩
  · obtain ⟨rest, hrest, _⟩ := exists_of_any hstarts
    have hfirst := hnumber rest hrest
    exact ⟨none_of_firstUnit hbullet (by omega), hitem, none_of_firstUnit hquote (by omega),
      visible_of_firstUnit (by omega), heading_of_firstUnit (by omega), hlabel,
      rule_of_firstUnit (by omega), Or.inr (Or.inl hstarts)⟩
  · obtain ⟨rest, hrest⟩ := Option.isSome_iff_exists.mp hstarts
    have hfirst := hquote rest hrest
    exact ⟨none_of_firstUnit hbullet (by omega), none_of_firstUnit hnumber (by omega), hitem,
      visible_of_firstUnit (by omega), heading_of_firstUnit (by omega), hlabel,
      rule_of_firstUnit (by omega), Or.inr (Or.inr hstarts)⟩

theorem isBlockStart_of_stuck {line : JsString} (h : Stuck lower line) : isBlockStart lower line = true := by
  unfold isBlockStart
  dsimp only
  rcases h.unconsumed.opens with hstarts | hstarts | hstarts <;> simp [hstarts]

/-! ## One round of the loop -/

section TakeItems

variable {item : JsString → Option JsString}

theorem takeItems_suffix (lines : List JsString) : (takeItems item lines).2 <:+ lines := by
  induction lines with
  | nil => exact List.suffix_refl _
  | cons line rest ih =>
    rw [takeItems]
    split
    · exact ih.trans (List.suffix_cons line rest)
    · exact List.suffix_refl _

/-- A line without an item stays. -/
theorem mem_takeItems {lines : List JsString} {line : JsString} (hline : line ∈ lines)
    (hnone : item (trim line) = none) : line ∈ (takeItems item lines).2 := by
  induction lines with
  | nil => cases hline
  | cons first rest ih =>
    rw [takeItems]
    split
    · rename_i text hsome
      rcases List.mem_cons.mp hline with rfl | hrest
      · rw [hnone] at hsome
        cases hsome
      · exact ih hrest
    · exact hline

theorem takeItems_of_none {line : JsString} {rest : List JsString} (h : item (trim line) = none) :
    (takeItems item (line :: rest)).2 = line :: rest := by
  rw [takeItems, h]

theorem takeItems_of_some {line text : JsString} {rest : List JsString}
    (h : item (trim line) = some text) : (takeItems item (line :: rest)).2 <:+ rest := by
  rw [takeItems, h]
  exact takeItems_suffix rest

end TakeItems

/-- **What a round does with the lines.**  It drops the first one, and perhaps more, if that is not stuck,
    and nothing if it is; other stuck lines stay. -/
structure RoundLeaves (lower : JsString → JsString) (line : JsString) (rest left : List JsString) :
    Prop where
  stuck : Stuck lower line → left = line :: rest
  consumed : ¬Stuck lower line → left <:+ rest
  keeps : ∀ other ∈ rest, Stuck lower other → other ∈ left

/-- The branches that consume the first line only. -/
theorem roundLeaves_one {line : JsString} {rest : List JsString} (h : ¬Stuck lower line) :
    RoundLeaves lower line rest rest where
  stuck hstuck := absurd hstuck h
  consumed _ := List.suffix_refl rest
  keeps _ hother _ := hother

/-- The branches that consume the lines of a list or a quote. -/
theorem roundLeaves_items {line : JsString} {rest : List JsString} {item : JsString → Option JsString}
    (hstuck : Stuck lower line → item (trim line) = none)
    (hnot : ¬Stuck lower line → item (trim line) ≠ none)
    (hothers : ∀ other, Stuck lower other → item (trim other) = none) :
    RoundLeaves lower line rest (takeItems item (line :: rest)).2 where
  stuck h := takeItems_of_none (hstuck h)
  consumed h := by
    obtain ⟨text, htext⟩ := Option.ne_none_iff_exists'.mp (hnot h)
    exact takeItems_of_some htext
  keeps other hother h := mem_takeItems (List.mem_cons_of_mem line hother) (hothers other h)

theorem parseRound_leaves (lower : JsString → JsString) (line : JsString) (rest : List JsString)
    (blocks : List MarkdownBlock) :
    ∃ left blocks', parseRound lower (line :: rest) blocks = some (left, blocks') ∧
      RoundLeaves lower line rest left := by
  rw [parseRound]
  dsimp only
  -- blank lines, headings, section labels and rules are consumed, and no stuck line is one of them
  by_cases hblank : (trim line).isEmpty = true
  · rw [if_pos hblank]
    refine ⟨_, _, rfl, roundLeaves_one fun h => ?_⟩
    rw [h.unconsumed.visible] at hblank
    cases hblank
  rw [if_neg hblank]
  cases hheading : heading (trim line) with
  | some found =>
    refine ⟨_, _, rfl, roundLeaves_one fun h => ?_⟩
    rw [h.unconsumed.heading] at hheading
    cases hheading
  | none =>
    dsimp only
    by_cases hlabel : isSectionLabel lower (trim line) = true
    · rw [if_pos hlabel]
      refine ⟨_, _, rfl, roundLeaves_one fun h => ?_⟩
      rw [h.unconsumed.label] at hlabel
      cases hlabel
    rw [if_neg hlabel]
    by_cases hrule : isRule (trim line) = true
    · rw [if_pos hrule]
      refine ⟨_, _, rfl, roundLeaves_one fun h => ?_⟩
      rw [h.unconsumed.rule] at hrule
      cases hrule
    rw [if_neg hrule]
    have hlabel' : isSectionLabel lower (trim line) = false := Bool.not_eq_true _ ▸ hlabel
    -- in a list or a quote the first line is consumed exactly if it has an item, that is if it is not stuck
    by_cases hbulleted : startsBulleted (trim line) = true
    · rw [if_pos hbulleted]
      exact ⟨_, _, rfl, roundLeaves_items (fun h => h.unconsumed.bulleted)
        (fun h hnone => h ⟨hlabel', Or.inl ⟨hbulleted, hnone⟩⟩) fun _ h => h.unconsumed.bulleted⟩
    rw [if_neg hbulleted]
    by_cases hnumbered : startsNumbered (trim line) = true
    · rw [if_pos hnumbered]
      exact ⟨_, _, rfl, roundLeaves_items (fun h => h.unconsumed.numbered)
        (fun h hnone => h ⟨hlabel', Or.inr (Or.inl ⟨hnumbered, hnone⟩)⟩) fun _ h => h.unconsumed.numbered⟩
    rw [if_neg hnumbered]
    by_cases hquoted : startsQuoted (trim line) = true
    · rw [if_pos hquoted]
      exact ⟨_, _, rfl, roundLeaves_items (fun h => h.unconsumed.quoted)
        (fun h hnone => h ⟨hlabel', Or.inr (Or.inr ⟨hquoted, hnone⟩)⟩) fun _ h => h.unconsumed.quoted⟩
    rw [if_neg hquoted]
    -- a paragraph goes on until a line opens another block, as every stuck line does
    have hnot : ¬Stuck lower line := by
      intro h
      rcases h.unconsumed.opens with hstarts | hstarts | hstarts
      · exact hbulleted hstarts
      · exact hnumbered hstarts
      · exact hquoted hstarts
    refine ⟨_, _, rfl, fun h => absurd h hnot, fun _ => List.dropWhile_suffix _, ?_⟩
    intro other hother hstuck
    have hstops : continuesParagraph lower other = false := by
      unfold continuesParagraph
      rw [isBlockStart_of_stuck hstuck, Bool.not_true, Bool.and_false]
    rw [← List.takeWhile_append_dropWhile (p := continuesParagraph lower) (l := rest)] at hother
    rcases List.mem_append.mp hother with htake | hdrop
    · rw [List.mem_takeWhile_imp htake] at hstops
      cases hstops
    · exact hdrop

/-! ## The whole loop -/

/-- A stuck line is never consumed, so the loop does not come to the end of the lines. -/
theorem not_ends_of_stuck {state final : List JsString × List MarkdownBlock} {line : JsString}
    (hline : line ∈ state.1) (hstuck : Stuck lower line) (hfinal : final.1 = []) :
    ¬ Machine.Ends (parseBody lower) state final := by
  intro hends
  induction hends with
  | done _ =>
    rw [hfinal] at hline
    cases hline
  | @next state next _ hround _ ih =>
    obtain ⟨lines, blocks⟩ := state
    cases lines with
    | nil => cases hline
    | cons first rest =>
      obtain ⟨left, blocks', hleft, hleaves⟩ := parseRound_leaves lower first rest blocks
      obtain rfl : (left, blocks') = next := Option.some.inj (hleft.symm.trans hround)
      refine ih ?_ hfinal
      show line ∈ left
      rcases List.mem_cons.mp hline with rfl | hrest
      · rw [hleaves.stuck hstuck]
        exact List.mem_cons_self
      · exact hleaves.keeps line hrest hstuck

/-- Every round that the loop comes to consumes a line. -/
def EveryRoundConsumes (lower : JsString → JsString) (lines : List JsString) : Prop :=
  ∀ state next, Relation.ReflTransGen (fun a b => parseBody lower a = some b) (lines, []) state →
    parseBody lower state = some next → next.1.length < state.1.length

theorem everyRoundConsumes_of_not_stuck {lines : List JsString}
    (h : ∀ line ∈ lines, ¬Stuck lower line) : EveryRoundConsumes lower lines := by
  have hround : ∀ state next : List JsString × List MarkdownBlock, (∀ line ∈ state.1, ¬Stuck lower line) →
      parseBody lower state = some next →
        (∀ line ∈ next.1, ¬Stuck lower line) ∧ next.1.length < state.1.length := by
    rintro ⟨lines, blocks⟩ next hlines hnext
    cases lines with
    | nil => cases hnext
    | cons first rest =>
      obtain ⟨left, blocks', hleft, hleaves⟩ := parseRound_leaves lower first rest blocks
      obtain rfl : (left, blocks') = next := Option.some.inj (hleft.symm.trans hnext)
      have hsuffix := hleaves.consumed (hlines first List.mem_cons_self)
      have hle := hsuffix.length_le
      refine ⟨fun line hline => hlines line (List.mem_cons_of_mem _ (hsuffix.subset hline)), ?_⟩
      show left.length < (first :: rest).length
      rw [List.length_cons]
      omega
  intro state next hreach
  have hkeep : ∀ line ∈ state.1, ¬Stuck lower line := by
    induction hreach with
    | refl => exact h
    | tail _ hstep ih => exact (hround _ _ ih hstep).1
  intro hnext
  exact (hround state next hkeep hnext).2

/-- A loop whose rounds all consume a line comes to the end of the lines. -/
theorem ends_of_everyRoundConsumes {lines : List JsString} (h : EveryRoundConsumes lower lines) :
    ∃ blocks, Machine.Ends (parseBody lower) (lines, []) ([], blocks) := by
  have hround : ∀ s t, Relation.ReflTransGen (fun a b => parseBody lower a = some b) (lines, []) s →
      parseBody lower s = some t →
        Relation.ReflTransGen (fun a b => parseBody lower a = some b) (lines, []) t ∧
          t.1.length < s.1.length :=
    fun s t hreach hnext => ⟨hreach.tail hnext, h s t hreach hnext⟩
  obtain ⟨⟨left, blocks⟩, hends, hstop⟩ := Machine.exists_ends hround .refl
  cases left with
  | nil => exact ⟨blocks, hends⟩
  | cons first rest =>
    -- a round is only refused when no line is left
    obtain ⟨left, blocks', hleft, _⟩ := parseRound_leaves lower first rest blocks
    cases hleft.symm.trans hstop

/-- With a stuck line some round consumes nothing: otherwise the lines would run out. -/
theorem not_everyRoundConsumes_of_stuck {lines : List JsString} {line : JsString}
    (hline : line ∈ lines) (hstuck : Stuck lower line) : ¬ EveryRoundConsumes lower lines := by
  intro hconsumes
  obtain ⟨blocks, hends⟩ := ends_of_everyRoundConsumes hconsumes
  exact not_ends_of_stuck hline hstuck rfl hends

/-! ## Separators in the text of a line -/

/-- The text of a list item has a line terminator (a line has no other than U+2028 and U+2029). -/
def hidesInItem (rest : JsString) : Bool :=
  spacedStart rest && (rest.dropWhile isSpace).any isLineTerminator

/-- The text of a quote, behind one unit of white space, has one. -/
def hidesInQuote : JsString → Bool
  | [] => false
  | c :: cs => if isSpace c then cs.any isLineTerminator else (c :: cs).any isLineTerminator

/-- The line is a list item or a quote, not a section label, and its text has such a separator. -/
def hidesSeparator (lower : JsString → JsString) (line : JsString) : Bool :=
  let trimmed := trim line
  !isSectionLabel lower trimmed &&
    ((afterBullet trimmed).any hidesInItem || (afterNumber trimmed).any hidesInItem ||
      (afterQuote trimmed).any hidesInQuote)

theorem not_all_isDot_iff (s : JsString) : s.all isDot = false ↔ s.any isLineTerminator = true := by
  rw [List.any_eq_not_all_not]
  simp [isDot]

/-- The item is not matched exactly if its text has a line terminator, wherever the white space before
    it is cut. -/
theorem spacedRest_eq_none_iff {rest : JsString} (h : spacedStart rest = true) :
    spacedRest rest = none ↔ (rest.dropWhile isSpace).any isLineTerminator = true := by
  obtain ⟨hspace, hvisible⟩ := Bool.and_eq_true_iff.mp h
  have hparts := List.takeWhile_append_dropWhile (p := isSpace) (l := rest)
  have hpos : 0 < (rest.takeWhile isSpace).length := by
    cases rest with
    | nil => cases hspace
    | cons c cs =>
      have hc : isSpace c = true := hspace
      rw [List.takeWhile_cons_of_pos hc]
      exact Nat.zero_lt_succ _
  unfold spacedRest
  rw [List.find?_eq_none, ← not_all_isDot_iff]
  constructor
  -- all white space cut, what is left is the text; with less of it cut, the text is still in there
  · intro hnone
    have hcut : rest.drop (rest.takeWhile isSpace).length = rest.dropWhile isSpace := by
      calc rest.drop (rest.takeWhile isSpace).length
          = (rest.takeWhile isSpace ++ rest.dropWhile isSpace).drop (rest.takeWhile isSpace).length := by
            rw [hparts]
        _ = rest.dropWhile isSpace := List.drop_left
    have hlast := hnone (rest.dropWhile isSpace) (by
      rw [← hcut]
      refine List.mem_map_of_mem (List.mem_reverse.mpr ?_)
      rw [List.mem_range'_1]
      omega)
    rw [hvisible, Bool.true_and] at hlast
    exact Bool.not_eq_true _ ▸ hlast
  · intro hnot part hpart
    obtain ⟨n, hn, rfl⟩ := List.mem_map.mp hpart
    rw [List.mem_reverse, List.mem_range'_1] at hn
    have hle : n ≤ (rest.takeWhile isSpace).length := by omega
    have hdrop : rest.drop n = (rest.takeWhile isSpace).drop n ++ rest.dropWhile isSpace := by
      rw [← List.drop_append_of_le_length hle, hparts]
    rw [hdrop, List.all_append, hnot, Bool.and_false, Bool.and_false]
    exact Bool.false_ne_true

theorem quotedRest_eq_none_iff (rest : JsString) : quotedRest rest = none ↔ hidesInQuote rest = true := by
  cases rest with
  | nil => simp [quotedRest, hidesInQuote]
  | cons c cs =>
    rw [hidesInQuote, quotedRest]
    have hall : (c :: cs).all isDot = true → cs.all isDot = true := fun h =>
      (Bool.and_eq_true_iff.mp h).2
    by_cases hc : isSpace c = true
    · rw [if_pos hc, ← not_all_isDot_iff, hc, Bool.true_and]
      by_cases hrest : cs.all isDot = true
      · simp [hrest]
      · have hwhole : ¬(c :: cs).all isDot = true := fun h => hrest (hall h)
        rw [if_neg hrest, if_neg hwhole]
        exact iff_of_true rfl (Bool.not_eq_true _ ▸ hrest)
    · have hc' : isSpace c = false := Bool.not_eq_true _ ▸ hc
      rw [if_neg hc, ← not_all_isDot_iff, hc', Bool.false_and, if_neg Bool.false_ne_true]
      by_cases hwhole : (c :: cs).all isDot = true
      · simp [hwhole]
      · rw [if_neg hwhole]
        exact iff_of_true rfl (Bool.not_eq_true _ ▸ hwhole)

theorem stuck_item_iff {after : Option JsString} :
    after.any spacedStart = true ∧ after.bind spacedRest = none ↔ after.any hidesInItem = true := by
  cases after with
  | none => simp
  | some rest =>
    rw [Option.any_some, Option.any_some, Option.bind_some]
    unfold hidesInItem
    rw [Bool.and_eq_true_iff]
    exact and_congr_right fun h => spacedRest_eq_none_iff h

theorem stuck_quote_iff {after : Option JsString} :
    after.isSome = true ∧ after.bind quotedRest = none ↔ after.any hidesInQuote = true := by
  cases after with
  | none => simp
  | some rest =>
    rw [Option.any_some, Option.bind_some, quotedRest_eq_none_iff]
    simp

/-- **A line is stuck exactly if it hides a separator.** -/
theorem stuck_iff_hidesSeparator (lower : JsString → JsString) (line : JsString) :
    Stuck lower line ↔ hidesSeparator lower line = true := by
  unfold Stuck hidesSeparator startsBulleted startsNumbered startsQuoted bulletedItem numberedItem
    quotedLine
  rw [stuck_item_iff, stuck_item_iff, stuck_quote_iff]
  simp only [Bool.and_eq_true, Bool.not_eq_true', Bool.or_eq_true, or_assoc]

/-- Nothing in the text hides a separator. -/
def NothingHidden (lower : JsString → JsString) (markdown : JsString) : Prop :=
  ∀ line ∈ lines markdown, hidesSeparator lower line = false

theorem nothingHidden_iff (lower : JsString → JsString) (markdown : JsString) :
    NothingHidden lower markdown ↔ ∀ line ∈ lines markdown, ¬Stuck lower line := by
  unfold NothingHidden
  simp only [stuck_iff_hidesSeparator, Bool.not_eq_true]

/-- **When the parser ends**, and every round of its loop consumes a line: exactly if no list item and no
    quote hides a separator. -/
theorem parse_ends_iff (lower : JsString → JsString) (markdown : JsString) :
    ((∃ blocks, Machine.Ends (parseBody lower) (lines markdown, []) ([], blocks)) ↔
        NothingHidden lower markdown) ∧
      (EveryRoundConsumes lower (lines markdown) ↔ NothingHidden lower markdown) := by
  rw [nothingHidden_iff]
  refine ⟨⟨?_, fun h => ends_of_everyRoundConsumes (everyRoundConsumes_of_not_stuck h)⟩, ?_,
    everyRoundConsumes_of_not_stuck⟩
  · rintro ⟨blocks, hends⟩ line hline hstuck
    exact not_ends_of_stuck hline hstuck rfl hends
  · exact fun h line hline hstuck => not_everyRoundConsumes_of_stuck hline hstuck h

/-- `- a` and `b` with U+2028 between them. -/
def hiddenItem : JsString := ofString "- a\u2028b"

/-- The first round of the loop pushes an empty list and consumes nothing, and so do all others. -/
theorem parse_does_not_end :
    parseBody asciiLower (lines hiddenItem, []) = some (lines hiddenItem, [.unorderedList []]) ∧
      ¬ ∃ blocks, Machine.Ends (parseBody asciiLower) (lines hiddenItem, []) ([], blocks) := by
  refine ⟨by decide +kernel, ?_⟩
  rintro ⟨blocks, hends⟩
  have hline : hiddenItem ∈ lines hiddenItem := by decide +kernel
  have hstuck : Stuck asciiLower hiddenItem :=
    (stuck_iff_hidesSeparator _ _).mpr (by decide +kernel)
  exact not_ends_of_stuck hline hstuck rfl hends

end FinancialRag.Frontend
