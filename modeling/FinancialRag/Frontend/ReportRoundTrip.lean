/-
  Reports, written by the server and read by the browser.

  `splitResearchReport` looks for the first line of each kind.  `report_roundtrip_iff`: the parts come back
  exactly if the question has no line that is an answer heading, the answer none that is the agent's
  heading, something to see stands before the answer's evidence heading, and no carriage return is lost
  in what must come back unchanged.
-/
import FinancialRag.Frontend.ReportBuilder

set_option linter.unusedVariables false

namespace FinancialRag.Frontend

open JsString

/-! ## What the reader finds -/

theorem findFrom_eq_some {p : JsString → Bool} {before : List JsString} {line : JsString} {start : Nat}
    (hstart : start ≤ before.length) (hbefore : ∀ l ∈ before.drop start, p l = false)
    (hline : p line = true) (after : List JsString) :
    findFrom p start (before ++ line :: after) = some before.length := by
  have hnone : (before.drop start).findIdx? p = none := List.findIdx?_eq_none_iff.mpr hbefore
  unfold findFrom
  rw [List.drop_append_of_le_length hstart, List.findIdx?_append, hnone, Option.none_or,
    List.findIdx?_cons, hline, if_pos rfl, Option.map_some, Option.map_some, List.length_drop]
  congr 1
  omega

theorem findFrom_eq_none {p : JsString → Bool} {ls : List JsString} {start : Nat}
    (h : ∀ l ∈ ls.drop start, p l = false) : findFrom p start ls = none := by
  unfold findFrom
  rw [List.findIdx?_eq_none_iff.mpr h, Option.map_none]

/-- The text of some lines, wherever they are counted to begin and to end. -/
theorem textBetween_eq {ls : List JsString} (before middle after : List JsString) {start stop : Nat}
    (hls : ls = before ++ middle ++ after) (hstart : before.length = start)
    (hstop : start + middle.length = stop) : textBetween ls start stop = trim (unlines middle) := by
  unfold textBetween
  rw [hls, ← hstop, ← hstart, List.append_assoc, List.drop_left, Nat.add_sub_cancel_left, List.take_left]

section Reader

variable {lower : JsString → JsString}

/-- The lines before the first evidence heading. -/
def modelLines (lower : JsString → JsString) (answer : List JsString) : List JsString :=
  answer.takeWhile fun line => !isEvidenceHeading lower line

/-- The lines behind it. -/
def evidenceLines (lower : JsString → JsString) (answer : List JsString) : List JsString :=
  (answer.dropWhile fun line => !isEvidenceHeading lower line).tail

theorem modelLines_append {before : List JsString} {line : JsString}
    (hbefore : ∀ l ∈ before, isEvidenceHeading lower l = false)
    (hline : isEvidenceHeading lower line = true) (after : List JsString) :
    modelLines lower (before ++ line :: after) = before ∧
      evidenceLines lower (before ++ line :: after) = after := by
  have hall : ∀ l ∈ before, (!isEvidenceHeading lower l) = true := fun l hl => by rw [hbefore l hl]; rfl
  unfold modelLines evidenceLines
  rw [List.takeWhile_append_of_pos hall, List.dropWhile_append_of_pos hall,
    List.takeWhile_cons_of_neg (by simp [hline]), List.dropWhile_cons_of_neg (by simp [hline])]
  exact ⟨List.append_nil _, rfl⟩

theorem modelLines_of_none {answer : List JsString}
    (h : ∀ l ∈ answer, isEvidenceHeading lower l = false) :
    modelLines lower answer = answer ∧ evidenceLines lower answer = [] := by
  have hall : ∀ l ∈ answer, (!isEvidenceHeading lower l) = true := fun l hl => by rw [h l hl]; rfl
  unfold modelLines evidenceLines
  rw [List.takeWhile_eq_self_iff.mpr hall, List.dropWhile_eq_nil_iff.mpr hall]
  exact ⟨rfl, rfl⟩

/-- Either no line passes a test, or there is a first one. -/
theorem first_cases (p : JsString → Bool) (ls : List JsString) :
    (∀ l ∈ ls, p l = false) ∨
      ∃ before line after, ls = before ++ line :: after ∧ (∀ l ∈ before, p l = false) ∧ p line = true := by
  cases hfind : ls.find? p with
  | none =>
    left
    simpa using List.find?_eq_none.mp hfind
  | some line =>
    right
    obtain ⟨hline, before, after, rfl, hbefore⟩ := List.find?_eq_some_iff_append.mp hfind
    exact ⟨before, line, after, rfl, by simpa using hbefore, hline⟩

/-- The parts of a report, given the lines of each. -/
def partsOf (lower : JsString → JsString) (question answer analysis : List JsString) :
    Option ResearchReportParts :=
  let modelAnswer := trim (unlines (modelLines lower answer))
  if modelAnswer.isEmpty then none
  else some ⟨trim (unlines question), modelAnswer, trim (unlines (evidenceLines lower answer)),
    trim (unlines analysis)⟩

/-- The answer's part of the report, and the evidence behind it. -/
theorem reportParts_eq {front answer analysis question : List JsString} {answerLine agentLine : JsString}
    {top : List JsString} (htop : top.length = 4) (hfront : front = top ++ question)
    (legacyAgentStartIndex : Option Nat) :
    reportParts lower (front ++ answerLine :: (answer ++ agentLine :: analysis)) front.length (some 3)
        (some (front.length + 1 + answer.length)) legacyAgentStartIndex =
      partsOf lower question answer analysis := by
  obtain ⟨ls, hls⟩ : ∃ ls, ls = front ++ answerLine :: (answer ++ agentLine :: analysis) := ⟨_, rfl⟩
  have hbefore : ls.take (front.length + 1 + answer.length) = front ++ answerLine :: answer := by
    have hlength : (front ++ answerLine :: answer).length = front.length + 1 + answer.length := by
      rw [List.length_append, List.length_cons]
      omega
    rw [hls, ← List.cons_append, ← List.append_assoc, ← hlength, List.take_left]
  have hquestionText : textBetween ls 4 front.length = trim (unlines question) := by
    refine textBetween_eq top question (answerLine :: (answer ++ agentLine :: analysis)) ?_ htop ?_
    · rw [hls, hfront]
    · rw [hfront, List.length_append, htop]
  have hanalysisText : textBetween ls (front.length + 1 + answer.length + 1) ls.length =
      trim (unlines analysis) := by
    refine textBetween_eq (front ++ answerLine :: (answer ++ [agentLine])) analysis [] ?_ ?_ ?_
    · rw [hls]
      simp only [List.append_assoc, List.cons_append, List.nil_append, List.append_nil]
    · simp only [List.length_append, List.length_cons, List.length_nil]
      omega
    · rw [hls]
      simp only [List.length_append, List.length_cons]
      omega
  have hmodelText : ∀ before after, answer = before ++ after →
      textBetween ls (front.length + 1) (front.length + 1 + before.length) = trim (unlines before) := by
    rintro before after rfl
    refine textBetween_eq (front ++ [answerLine]) before (after ++ agentLine :: analysis) ?_ ?_ rfl
    · rw [hls]
      simp only [List.append_assoc, List.cons_append, List.nil_append]
    · rw [List.length_append, List.length_singleton]
  have hasked : Option.filter (fun index => decide (index < front.length)) (some 3) = some 3 := by
    rw [Option.filter_some, if_pos]
    rw [hfront, List.length_append, htop]
    exact decide_eq_true (by omega)
  -- with no evidence heading the answer is one part, else it ends at the first one
  unfold partsOf
  rw [← hls]
  simp only [reportParts, Option.some_or, Option.map_some, Option.getD_some, hbefore, hasked,
    hquestionText, hanalysisText]
  rcases first_cases (isEvidenceHeading lower) answer with hnone | ⟨before, line, after, rfl, hfree, hline⟩
  · have hdrop : ∀ l ∈ (front ++ answerLine :: answer).drop (front.length + 1),
        isEvidenceHeading lower l = false := by
      rwa [List.drop_length_add_append]
    rw [findFrom_eq_none hdrop, (modelLines_of_none hnone).1, (modelLines_of_none hnone).2,
      Option.getD_none, Option.map_none, Option.getD_none,
      hmodelText answer [] (List.append_nil _).symm]
    rfl
  · have hindex : findFrom (isEvidenceHeading lower) (front.length + 1)
        (front ++ answerLine :: (before ++ line :: after)) = some (front.length + 1 + before.length) := by
      have h : findFrom (isEvidenceHeading lower) (front.length + 1)
          ((front ++ answerLine :: before) ++ line :: after) = some (front ++ answerLine :: before).length :=
        findFrom_eq_some (by simp) (by rwa [List.drop_length_add_append]) hline after
      rw [List.append_assoc, List.cons_append] at h
      rw [h, List.length_append, List.length_cons]
      congr 1
      omega
    have hafter : textBetween ls (front.length + 1 + before.length + 1)
        (front.length + 1 + (before ++ line :: after).length) = trim (unlines after) := by
      refine textBetween_eq (front ++ answerLine :: (before ++ [line])) after (agentLine :: analysis) ?_ ?_ ?_
      · rw [hls]
        simp only [List.append_assoc, List.cons_append, List.nil_append]
      · simp only [List.length_append, List.length_cons, List.length_nil]
        omega
      · rw [List.length_append, List.length_cons]
        omega
    rw [hindex, (modelLines_append hfree hline after).1, (modelLines_append hfree hline after).2,
      Option.getD_some, Option.map_some, Option.getD_some, hmodelText before (line :: after) rfl, hafter]

/-- **What the reader makes of a report**: its question goes to the first answer heading, its answer to
    the first heading of the agent behind that. -/
theorem splitResearchReport_eq {labels : ReportLabels} {report answerLine agentLine : JsString}
    {question answer analysis : List JsString} (hheadings : Headings lower labels)
    (hlines : lines report = [[], headingLine "# " labels.title, [], headingLine "## " labels.question] ++
      question ++ answerLine :: (answer ++ agentLine :: analysis))
    (hquestion : ∀ l ∈ question, isHeadingOf lower answerHeadings 2 l = false)
    (hanswerLine : isHeadingOf lower answerHeadings 2 answerLine = true)
    (hanswer : ∀ l ∈ answer, isHeadingOf lower agentBoundaryHeadings 2 l = false)
    (hagentLine : isHeadingOf lower agentBoundaryHeadings 2 agentLine = true) :
    splitResearchReport lower report = partsOf lower question answer analysis := by
  have hblank : ∀ headings minimumLevel, isHeadingOf lower headings minimumLevel [] = false :=
    fun _ _ => rfl
  obtain ⟨front, hfront⟩ : ∃ front, front =
      [[], headingLine "# " labels.title, [], headingLine "## " labels.question] ++ question := ⟨_, rfl⟩
  have hfromFront : lines report = front ++ answerLine :: (answer ++ agentLine :: analysis) := by
    rw [hlines, hfront]
  have htitle : findMarkdownHeadingIndex lower (lines report) reportTitleHeadings 1 0 = some 1 := by
    have hbefore : ∀ l ∈ ([[]] : List JsString).drop 0, isHeadingOf lower reportTitleHeadings 1 l = false :=
      List.forall_mem_singleton.mpr (hblank _ _)
    rw [hlines]
    exact findFrom_eq_some (Nat.zero_le _) hbefore hheadings.titleIsTitle _
  have hanswerIndex :
      findMarkdownHeadingIndex lower (lines report) answerHeadings 2 1 = some front.length := by
    have hbefore : ∀ l ∈ front.drop 1, isHeadingOf lower answerHeadings 2 l = false := by
      rw [hfront]
      simp only [List.cons_append, List.nil_append, List.drop_succ_cons, List.drop_zero,
        List.forall_mem_cons]
      exact ⟨hheadings.titleNotAnswer, hblank _ _, hheadings.questionNotAnswer, hquestion⟩
    rw [hfromFront]
    exact findFrom_eq_some (by rw [hfront]; simp) hbefore hanswerLine _
  have hquestionIndex :
      findMarkdownHeadingIndex lower (lines report) questionHeadings 2 1 = some 3 := by
    have hbefore : ∀ l ∈ ([[], headingLine "# " labels.title, []] : List JsString).drop 1,
        isHeadingOf lower questionHeadings 2 l = false := by
      simp only [List.drop_succ_cons, List.drop_zero, List.forall_mem_cons]
      exact ⟨hheadings.titleNotQuestion, hblank _ _, fun l hl => absurd hl List.not_mem_nil⟩
    rw [hlines]
    exact findFrom_eq_some (by simp) hbefore hheadings.questionIsQuestion _
  have hagentIndex : findMarkdownHeadingIndex lower (lines report) agentBoundaryHeadings 2
      (front.length + 1) = some (front.length + 1 + answer.length) := by
    have hbefore : ∀ l ∈ (front ++ answerLine :: answer).drop (front.length + 1),
        isHeadingOf lower agentBoundaryHeadings 2 l = false := by
      rwa [List.drop_length_add_append]
    have h := findFrom_eq_some (by simp) hbefore hagentLine analysis
    rw [List.append_assoc, List.cons_append, ← hfromFront] at h
    refine h.trans ?_
    rw [List.length_append, List.length_cons]
    congr 1
    omega
  unfold splitResearchReport
  simp only [htitle, hanswerIndex, hquestionIndex, hagentIndex, Option.bind_some]
  rw [hfromFront]
  exact reportParts_eq rfl hfront _

/-! ## What comes back -/

/-- The parts hold the answer, without its evidence heading if they are two. -/
def HoldsAnswer (lower : JsString → JsString) (answer modelAnswer evidenceUsed : JsString) : Prop :=
  (modelAnswer = trim (normalizeBreaks false answer) ∧ evidenceUsed = []) ∨
    ∃ before line after, lines answer = before ++ line :: after ∧ isEvidenceHeading lower line = true ∧
      modelAnswer = trim (unlines before) ∧ evidenceUsed = trim (unlines after)

/-- A report comes back in its parts. -/
def Recovered (lower : JsString → JsString) (question answer analysis : JsString)
    (parts : Option ResearchReportParts) : Prop :=
  ∃ p, parts = some p ∧ p.question = trim question ∧
    HoldsAnswer lower answer p.modelAnswer p.evidenceUsed ∧ p.agentAnalysis = trim analysis

/-- The lines of a text, with or without a blank line behind them. -/
def LinesOf (s : JsString) (ls : List JsString) : Prop := ls = lines s ∨ ls = lines s ++ [[]]

/-- The lines of a text within a report. -/
theorem linesOf_dropLastCr (s : JsString) : LinesOf s (lines (dropLastCr s) ++ [[]]) := by
  unfold LinesOf
  rcases lines_eq_dropLastCr s with h | h
  · exact .inr (by rw [h])
  · exact .inl h.symm

theorem LinesOf.trim_unlines {s : JsString} {ls : List JsString} (h : LinesOf s ls) :
    trim (unlines ls) = trim (unlines (lines s)) := by
  rcases h with rfl | rfl
  · rfl
  · exact trim_unlines_concat_nil _

theorem LinesOf.flatMap_ink {s : JsString} {ls : List JsString} (h : LinesOf s ls) :
    ls.flatMap ink = ink s := by
  rcases h with rfl | rfl
  · exact flatMap_ink_lines s
  · rw [List.flatMap_append, flatMap_ink_lines]
    exact List.append_nil _

theorem LinesOf.forall_iff {s : JsString} {ls : List JsString} (h : LinesOf s ls) {p : JsString → Bool}
    (hp : p [] = false) : (∀ l ∈ ls, p l = false) ↔ ∀ l ∈ lines s, p l = false := by
  rcases h with rfl | rfl
  · rfl
  · rw [List.forall_mem_append, List.forall_mem_singleton]
    exact and_iff_left hp

theorem LinesOf.holdsAnswer {answer : JsString} {ls : List JsString} (h : LinesOf answer ls)
    (hempty : isEvidenceHeading lower [] = false) :
    HoldsAnswer lower answer (trim (unlines (modelLines lower ls)))
      (trim (unlines (evidenceLines lower ls))) := by
  rcases first_cases (isEvidenceHeading lower) (lines answer) with hnone | ⟨before, line, after, hfirst⟩
  · obtain ⟨hmodel, hevidence⟩ := modelLines_of_none ((h.forall_iff hempty).mpr hnone)
    left
    rw [hmodel, hevidence, h.trim_unlines, unlines_lines]
    exact ⟨rfl, rfl⟩
  · obtain ⟨hlines, hbefore, hline⟩ := hfirst
    refine .inr ⟨before, line, after, hlines, hline, ?_⟩
    rcases h with rfl | rfl
    · obtain ⟨hmodel, hevidence⟩ := modelLines_append hbefore hline after
      rw [hlines, hmodel, hevidence]
      exact ⟨rfl, rfl⟩
    · obtain ⟨hmodel, hevidence⟩ := modelLines_append hbefore hline (after ++ [[]])
      rw [hlines, List.append_assoc, List.cons_append, hmodel, hevidence, trim_unlines_concat_nil]
      exact ⟨rfl, rfl⟩

/-- Something is to be seen before the first evidence heading. -/
def ShowsAnswer (lower : JsString → JsString) (answer : JsString) : Prop :=
  ∃ line ∈ modelLines lower (lines answer), trim line ≠ []

theorem LinesOf.showsAnswer_iff {answer : JsString} {ls : List JsString} (h : LinesOf answer ls) :
    ShowsAnswer lower answer ↔ trim (unlines (modelLines lower ls)) ≠ [] := by
  have hseen : trim (unlines (modelLines lower ls)) ≠ [] ↔ ∃ line ∈ modelLines lower ls, trim line ≠ [] := by
    have hink : ∀ s : JsString, trim s ≠ [] ↔ ink s ≠ [] := fun s => not_congr Strip.strip_eq_nil_iff
    rw [hink, ink_unlines, Ne, List.flatMap_eq_nil_iff]
    simp only [hink, not_forall, exists_prop, ne_eq]
  rw [hseen]
  unfold ShowsAnswer
  rcases h with rfl | rfl
  · rfl
  · unfold modelLines
    rw [List.takeWhile_append]
    split
    · rename_i hall
      rw [(List.takeWhile_prefix _).eq_of_length hall]
      constructor
      · rintro ⟨line, hline, hseen⟩
        exact ⟨line, List.mem_append_left _ hline, hseen⟩
      · rintro ⟨line, hline, hseen⟩
        rcases List.mem_append.mp hline with hline | hline
        · exact ⟨line, hline, hseen⟩
        · rw [List.mem_singleton.mp ((List.takeWhile_sublist _).mem hline)] at hseen
          exact absurd rfl hseen
    · rfl

theorem ink_ne_nil_of_isHeadingOf {headings : List JsString} {minimumLevel : Nat} {line : JsString}
    (h : isHeadingOf lower headings minimumLevel line = true) : ink line ≠ [] := by
  intro hink
  have htrim : trim line = [] := Strip.strip_eq_nil_iff.mpr hink
  unfold isHeadingOf at h
  rw [htrim] at h
  exact absurd h Bool.false_ne_true

/-- A part that misses the ink of one line is not the whole text. -/
theorem trim_ne_of_missing {s line : JsString} {ls : List JsString} (hline : ink line ≠ [])
    (hlength : (ls.flatMap ink).length + (ink line).length ≤ (ink s).length ∨
      (ink s).length + (ink line).length ≤ (ls.flatMap ink).length) :
    trim (unlines ls) ≠ trim s := by
  intro heq
  have hink : ls.flatMap ink = ink s := by
    have h := congrArg ink heq
    rwa [ink_trim, ink_trim, ink_unlines] at h
  have hpos : 0 < (ink line).length := List.length_pos_iff.mpr hline
  rw [hink] at hlength
  omega

theorem recovered_partsOf (question answer analysis : JsString) (qs as ns : List JsString) :
    Recovered lower question answer analysis (partsOf lower qs as ns) ↔
      trim (unlines (modelLines lower as)) ≠ [] ∧ trim (unlines qs) = trim question ∧
        HoldsAnswer lower answer (trim (unlines (modelLines lower as)))
          (trim (unlines (evidenceLines lower as))) ∧ trim (unlines ns) = trim analysis := by
  unfold Recovered partsOf
  by_cases hshown : trim (unlines (modelLines lower as)) = []
  · simp [hshown]
  · simp [hshown]

/-- The parts of a report, when its question and answer hide the headings from the reader or not. -/
theorem recovered_iff {labels : ReportLabels} {report question answer analysis : JsString}
    (hheadings : Headings lower labels) (hempty : isEvidenceHeading lower [] = false)
    (hlines : lines report = reportLines labels (lines (dropLastCr question)) (lines (dropLastCr answer))
      (lines analysis)) :
    Recovered lower question answer analysis (splitResearchReport lower report) ↔
      (∀ line ∈ lines question, isHeadingOf lower answerHeadings 2 line = false) ∧
        (∀ line ∈ lines answer, isHeadingOf lower agentBoundaryHeadings 2 line = false) ∧
          ShowsAnswer lower answer ∧ cr ∉ trim question ∧ cr ∉ trim analysis := by
  have hquestion := linesOf_dropLastCr question
  have hanswer := linesOf_dropLastCr answer
  have hwhole : lines report = [[], headingLine "# " labels.title, [], headingLine "## " labels.question] ++
      (lines (dropLastCr question) ++ [[]]) ++ headingLine "## " labels.answer ::
        ((lines (dropLastCr answer) ++ [[]]) ++ headingLine "## " labels.agentAnalysis :: lines analysis) := by
    rw [hlines]
    simp only [reportLines, List.append_assoc, List.cons_append, List.nil_append]
  generalize lines (dropLastCr question) ++ [[]] = qs at hquestion hwhole
  generalize lines (dropLastCr answer) ++ [[]] = as at hanswer hwhole
  have hblank : ∀ headings, isHeadingOf lower headings 2 [] = false := fun _ => rfl
  rw [← hquestion.forall_iff (hblank _), ← hanswer.forall_iff (hblank _)]
  -- the first line that is taken for a heading too early decides what the reader gets
  rcases first_cases (isHeadingOf lower answerHeadings 2) qs with hq | ⟨before, line, after, hfirst⟩
  · rcases first_cases (isHeadingOf lower agentBoundaryHeadings 2) as with ha | ⟨before, line, after, hfirst⟩
    · rw [splitResearchReport_eq hheadings hwhole hq hheadings.answerIsAnswer ha hheadings.agentIsAgent,
        recovered_partsOf, ← hanswer.showsAnswer_iff, hquestion.trim_unlines, trim_unlines_lines_eq_iff,
        trim_unlines_lines_eq_iff]
      constructor
      · rintro ⟨hshown, hbreaks, -, hanalysis⟩
        exact ⟨hq, ha, hshown, hbreaks, hanalysis⟩
      · rintro ⟨-, -, hshown, hbreaks, hanalysis⟩
        exact ⟨hshown, hbreaks, hanswer.holdsAnswer hempty, hanalysis⟩
    · -- the reader takes the rest of the answer for the agent's
      obtain ⟨rfl, hfree, hline⟩ := hfirst
      refine iff_of_false ?_ fun h => ?_
      · have hsplit : (before ++ line :: after) ++ headingLine "## " labels.agentAnalysis :: lines analysis =
            before ++ line :: (after ++ headingLine "## " labels.agentAnalysis :: lines analysis) := by
          rw [List.append_assoc, List.cons_append]
        rw [hsplit] at hwhole
        rw [splitResearchReport_eq hheadings hwhole hq hheadings.answerIsAnswer hfree hline,
          recovered_partsOf]
        rintro ⟨-, -, -, hanalysis⟩
        refine trim_ne_of_missing (ink_ne_nil_of_isHeadingOf hheadings.agentIsAgent) (.inr ?_) hanalysis
        rw [List.flatMap_append, List.flatMap_cons, flatMap_ink_lines]
        simp only [List.length_append]
        omega
      · have hnot := h.2.1 line (List.mem_append_right _ List.mem_cons_self)
        rw [hline] at hnot
        cases hnot
  · -- the reader takes the rest of the question for the answer
    obtain ⟨rfl, hfree, hline⟩ := hfirst
    refine iff_of_false ?_ fun h => ?_
    · rcases first_cases (isHeadingOf lower agentBoundaryHeadings 2)
        (after ++ headingLine "## " labels.answer ::
          (as ++ headingLine "## " labels.agentAnalysis :: lines analysis)) with
        hnone | ⟨model, agentLine, tail, hrest, hmodel, hagentLine⟩
      · have hnot := hnone (headingLine "## " labels.agentAnalysis) (by simp)
        rw [hheadings.agentIsAgent] at hnot
        cases hnot
      · have hsplit : lines report =
            [[], headingLine "# " labels.title, [], headingLine "## " labels.question] ++ before ++
              line :: (model ++ agentLine :: tail) := by
          rw [hwhole, ← hrest]
          simp only [List.append_assoc, List.cons_append, List.nil_append]
        rw [splitResearchReport_eq hheadings hsplit hfree hline hmodel hagentLine, recovered_partsOf]
        rintro ⟨-, hasked, -, -⟩
        refine trim_ne_of_missing (ink_ne_nil_of_isHeadingOf hline) (.inl ?_) hasked
        rw [← hquestion.flatMap_ink, List.flatMap_append, List.flatMap_cons]
        simp only [List.length_append]
        omega
    · have hnot := h.1 line (List.mem_append_right _ List.mem_cons_self)
      rw [hline] at hnot
      cases hnot

end Reader

/-! ## The round trip -/

/-- The report can be read back: no line of the question or of the answer is taken for a heading that
    ends it, something to see stands before the answer's evidence heading, and what must come back
    unchanged has no carriage return. -/
structure Recoverable (lower : JsString → JsString) (question answer : PyStr)
    (evidenceStats : List (PyStr × PyStr)) (reasoningResult : Option ReasoningResult) : Prop where
  questionOpen : ∀ line ∈ lines (ofPyStr question), isHeadingOf lower answerHeadings 2 line = false
  answerOpen : ∀ line ∈ lines (ofPyStr answer), isHeadingOf lower agentBoundaryHeadings 2 line = false
  answerShown : ShowsAnswer lower (ofPyStr answer)
  questionUnbroken : cr ∉ trim (ofPyStr question)
  analysisUnbroken : ∀ s ∈ analysisTexts evidenceStats reasoningResult, carriageReturn ∉ s

/-- **When a report comes back**: exactly if it is recoverable. -/
theorem report_roundtrip_iff (lower : JsString → JsString) (hlower : LowersPlain lower)
    (question answer : PyStr) (evidenceStats : List (PyStr × PyStr))
    (reasoningResult : Option ReasoningResult) :
    Recovered lower (ofPyStr question) (ofPyStr answer)
        (ofPyStr (agentAnalysisText (labelsForQuestion question) evidenceStats reasoningResult))
        (splitResearchReport lower
          (ofPyStr (buildResearchReport question answer evidenceStats reasoningResult))) ↔
      Recoverable lower question answer evidenceStats reasoningResult := by
  have hheadings := headings_labels hlower question
  have hlabels := analysisLabels question
  have hempty : isEvidenceHeading lower [] = false := by
    unfold isEvidenceHeading
    rw [show trim (withoutMarks (trim [])) = [] from rfl, hlower [] rfl]
    decide +kernel
  rw [recovered_iff hheadings hempty
    (lines_report question answer evidenceStats reasoningResult hheadings),
    cr_mem_trim_agentAnalysisText hlabels]
  simp only [not_exists, not_and]
  constructor
  · rintro ⟨hquestion, hanswer, hshown, hbreaks, hanalysis⟩
    exact ⟨hquestion, hanswer, hshown, hbreaks, hanalysis⟩
  · intro h
    exact ⟨h.questionOpen, h.answerOpen, h.answerShown, h.questionUnbroken, h.analysisUnbroken⟩

def fallQuestion : PyStr := text "Why did sales fall?"
def fallAnswer : PyStr := text "Costs rose.\n## Evidence Used\nPage 3"
def fallReasoning : ReasoningResult := ⟨[text "Sales fell"], [], [], text "Weak demand"⟩

theorem report_roundtrip_fall :
    Recovered asciiLower (ofPyStr fallQuestion) (ofPyStr fallAnswer)
      (ofPyStr (agentAnalysisText (labelsForQuestion fallQuestion) [(text "10-K", text "3")] fallReasoning))
      (splitResearchReport asciiLower
        (ofPyStr (buildResearchReport fallQuestion fallAnswer [(text "10-K", text "3")] fallReasoning))) :=
  (report_roundtrip_iff asciiLower lowersPlain_asciiLower fallQuestion fallAnswer
    [(text "10-K", text "3")] fallReasoning).mpr
    ⟨by decide +kernel, by decide +kernel, ⟨ofPyStr (text "Costs rose."), by decide +kernel, by decide +kernel⟩,
      by decide +kernel, by decide +kernel⟩

/-- A question that quotes a heading. -/
def quotingQuestion : PyStr := text "Explain:\n## Answer\nSales fell."

/-- The reader takes the rest of the question for the answer. -/
theorem report_loses_question :
    splitResearchReport asciiLower (ofPyStr (buildResearchReport quotingQuestion (text "Costs rose.") [] none)) =
        some ⟨ofString "Explain:", ofString "Sales fell.\n\n## Answer (LLM Answer)\nCosts rose.", [],
          ofString "## Source Coverage"⟩ ∧
      ¬ Recovered asciiLower (ofPyStr quotingQuestion) (ofPyStr (text "Costs rose."))
        (ofPyStr (agentAnalysisText (labelsForQuestion quotingQuestion) [] none))
        (splitResearchReport asciiLower
          (ofPyStr (buildResearchReport quotingQuestion (text "Costs rose.") [] none))) := by
  have hsplit : splitResearchReport asciiLower
      (ofPyStr (buildResearchReport quotingQuestion (text "Costs rose.") [] none)) =
        some ⟨ofString "Explain:", ofString "Sales fell.\n\n## Answer (LLM Answer)\nCosts rose.", [],
          ofString "## Source Coverage"⟩ := by decide +kernel
  refine ⟨hsplit, ?_⟩
  rintro ⟨p, hp, hquestion, -⟩
  rw [hsplit] at hp
  rw [← Option.some.inj hp] at hquestion
  exact absurd hquestion (by decide +kernel)

end FinancialRag.Frontend
