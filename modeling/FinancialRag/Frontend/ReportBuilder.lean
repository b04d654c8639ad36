/-
  Reports, as the server writes them (`core/report_builder.py`).

  `build_research_report` writes the question and the answer BETWEEN its own headings and escapes neither.
  `lines_report` says which lines the browser gets, `Headings` what it makes of the writer's own, and
  `cr_mem_trim_agentAnalysisText` where a carriage return in the appended analysis comes from.
-/
import FinancialRag.Frontend.ReportPresentation

set_option linter.unusedVariables false

namespace FinancialRag.Frontend

open JsString

/-! ## `build_research_report` -/

structure ReasoningResult where
  facts : List PyStr
  risks : List PyStr
  opportunities : List PyStr
  conclusion : PyStr

structure ReportLabels where
  title : PyStr
  question : PyStr
  answer : PyStr
  agentAnalysis : PyStr
  facts : PyStr
  risks : PyStr
  opportunities : PyStr
  conclusion : PyStr
  coverage : PyStr
  chunks : PyStr

def text (s : String) : PyStr := PyStr.ofString s

def reportLabelsEn : ReportLabels where
  title := text "Research Report"
  question := text "Question"
  answer := text "Answer (LLM Answer)"
  agentAnalysis := text "Agent Evidence Analysis"
  facts := text "Key Facts"
  risks := text "Risk Signals"
  opportunities := text "Opportunity Signals"
  conclusion := text "AI Conclusion"
  coverage := text "Source Coverage"
  chunks := text "chunks"

def reportLabelsZh : ReportLabels where
  title := text "研究报告"
  question := text "问题"
  answer := text "回答（LLM 模型回答）"
  agentAnalysis := text "智能体证据分析"
  facts := text "关键事实"
  risks := text "风险信号"
  opportunities := text "机会信号"
  conclusion := text "AI 结论"
  coverage := text "来源覆盖"
  chunks := text "个文本块"

/-- `_CHINESE_CHARACTER`. -/
def isChineseCharacter (c : CodePoint) : Bool := decide (0x3400 ≤ c.val) && decide (c.val ≤ 0x9FFF)

/-- `_labels_for_question`. -/
def labelsForQuestion (question : PyStr) : ReportLabels :=
  if question.any isChineseCharacter then reportLabelsZh else reportLabelsEn

/-- A heading of the second level, and the line break behind it. -/
def sectionHeading (label : PyStr) : PyStr := text "\n## " ++ label ++ text "\n"

/-- A heading and its items, if there are any. -/
def itemSection (label : PyStr) (items : List PyStr) : PyStr :=
  if items.isEmpty then []
  else sectionHeading label ++ items.flatMap fun item => text "- " ++ item ++ text "\n"

/-- The sections of a reasoning result. -/
def reasoningSections (labels : ReportLabels) (result : ReasoningResult) : PyStr :=
  itemSection labels.facts result.facts ++ itemSection labels.risks result.risks ++
    itemSection labels.opportunities result.opportunities ++
    if result.conclusion.isEmpty then []
    else sectionHeading labels.conclusion ++ text "\n" ++ result.conclusion ++ text "\n"

/-- `coverage_text`; the sources and counts are as `format` writes them. -/
def coverageText (labels : ReportLabels) (evidenceStats : List (PyStr × PyStr)) : PyStr :=
  evidenceStats.flatMap fun stat =>
    text "- " ++ stat.1 ++ text ": " ++ stat.2 ++ text " " ++ labels.chunks ++ text "\n"

/-- What stands behind the heading of the agent's analysis. -/
def agentAnalysisText (labels : ReportLabels) (evidenceStats : List (PyStr × PyStr))
    (reasoningResult : Option ReasoningResult) : PyStr :=
  (reasoningResult.map (reasoningSections labels)).getD [] ++
    sectionHeading labels.coverage ++ coverageText labels evidenceStats ++ text "\n"

/-- `build_research_report`. -/
def buildResearchReport (question answer : PyStr) (evidenceStats : List (PyStr × PyStr))
    (reasoningResult : Option ReasoningResult) : PyStr :=
  let labels := labelsForQuestion question
  text "\n# " ++ labels.title ++ text "\n\n## " ++ labels.question ++ text "\n" ++ question ++
    text "\n\n## " ++ labels.answer ++ text "\n" ++ answer ++ text "\n" ++
    sectionHeading labels.agentAnalysis ++ agentAnalysisText labels evidenceStats reasoningResult

/-! ## The lines of a report -/

/-- A heading line as the browser gets it. -/
def headingLine (marks : String) (label : PyStr) : JsString := ofPyStr (text marks ++ label)

/-- The lines of a report, with those of the question, the answer and the analysis. -/
def reportLines (labels : ReportLabels) (question answer analysis : List JsString) : List JsString :=
  [[], headingLine "# " labels.title, [], headingLine "## " labels.question] ++ question ++
    [[], headingLine "## " labels.answer] ++ answer ++ [[], headingLine "## " labels.agentAnalysis] ++
    analysis

/-- A text of one line, without a carriage return at its end. -/
def OneLine (s : JsString) : Prop := dropLastCr s = s ∧ lines s = [s]

instance (s : JsString) : Decidable (OneLine s) := inferInstanceAs (Decidable (_ ∧ _))

theorem OneLine.append_lf {s : JsString} (h : OneLine s) (t : JsString) :
    lines (s ++ lf :: t) = s :: lines t := by
  rw [lines_append_lf, h.1, h.2, List.singleton_append]

/-- What the browser's `toLowerCase` promises makes the writer's headings headings for the reader. -/
structure Headings (lower : JsString → JsString) (labels : ReportLabels) : Prop where
  title : OneLine (headingLine "# " labels.title)
  question : OneLine (headingLine "## " labels.question)
  answer : OneLine (headingLine "## " labels.answer)
  agent : OneLine (headingLine "## " labels.agentAnalysis)
  titleIsTitle : isHeadingOf lower reportTitleHeadings 1 (headingLine "# " labels.title) = true
  titleNotAnswer : isHeadingOf lower answerHeadings 2 (headingLine "# " labels.title) = false
  titleNotQuestion : isHeadingOf lower questionHeadings 2 (headingLine "# " labels.title) = false
  questionIsQuestion : isHeadingOf lower questionHeadings 2 (headingLine "## " labels.question) = true
  questionNotAnswer : isHeadingOf lower answerHeadings 2 (headingLine "## " labels.question) = false
  answerIsAnswer : isHeadingOf lower answerHeadings 2 (headingLine "## " labels.answer) = true
  agentIsAgent : isHeadingOf lower agentBoundaryHeadings 2 (headingLine "## " labels.agentAnalysis) = true

theorem mem_of_mem_spacedRest {s found : JsString} {c : CodeUnit} (hfound : spacedRest s = some found)
    (h : c ∈ found) : c ∈ s := by
  obtain ⟨n, -, rfl⟩ := List.mem_map.mp (List.mem_of_find?_eq_some hfound)
  exact List.mem_of_mem_drop h

theorem mem_of_mem_hashes {lo hi level : Nat} {s rest : JsString} {c : CodeUnit}
    (hmarks : hashes lo hi s = some (level, rest)) (h : c ∈ rest) : c ∈ s := by
  unfold hashes at hmarks
  dsimp only at hmarks
  split at hmarks
  · obtain ⟨-, rfl⟩ := Prod.mk.inj (Option.some.inj hmarks)
    exact List.mem_of_mem_drop h
  · cases hmarks

/-- On plain lines any `toLowerCase` finds the headings that the one of ASCII finds. -/
theorem isHeadingOf_plain {lower : JsString → JsString} (hlower : LowersPlain lower)
    {line : JsString} (hline : line.all isPlain = true) (headings : List JsString) (minimumLevel : Nat) :
    isHeadingOf lower headings minimumLevel line = isHeadingOf asciiLower headings minimumLevel line := by
  unfold isHeadingOf
  cases hmarks : hashes 1 6 (trim line) with
  | none => rfl
  | some marks =>
    obtain ⟨level, rest⟩ := marks
    cases htext : spacedRest rest with
    | none => simp only [Option.bind_some, htext, Option.map_none]
    | some found =>
      have hplain : (trim found).all isPlain = true := by
        rw [List.all_eq_true] at hline ⊢
        intro c hc
        exact hline c (mem_of_mem_trim (mem_of_mem_hashes hmarks
          (mem_of_mem_spacedRest htext (mem_of_mem_trim hc))))
      simp only [Option.bind_some, htext, Option.map_some, hlower _ hplain]

theorem headings_labels {lower : JsString → JsString} (hlower : LowersPlain lower) (question : PyStr) :
    Headings lower (labelsForQuestion question) := by
  unfold labelsForQuestion
  split
  · constructor
    all_goals first | decide +kernel | (rw [isHeadingOf_plain hlower (by decide +kernel)]; decide +kernel)
  · constructor
    all_goals first | decide +kernel | (rw [isHeadingOf_plain hlower (by decide +kernel)]; decide +kernel)

theorem lines_report (question answer : PyStr) (evidenceStats : List (PyStr × PyStr))
    (reasoningResult : Option ReasoningResult) {lower : JsString → JsString}
    (hheadings : Headings lower (labelsForQuestion question)) :
    lines (ofPyStr (buildResearchReport question answer evidenceStats reasoningResult)) =
      reportLines (labelsForQuestion question) (lines (dropLastCr (ofPyStr question)))
        (lines (dropLastCr (ofPyStr answer)))
        (lines (ofPyStr (agentAnalysisText (labelsForQuestion question) evidenceStats reasoningResult))) := by
  have hempty : OneLine [] := by decide
  -- the report, cut at the line breaks that the writer put in
  have hwritten : ofPyStr (buildResearchReport question answer evidenceStats reasoningResult) =
      [] ++ lf :: (headingLine "# " (labelsForQuestion question).title ++ lf :: ([] ++ lf ::
        (headingLine "## " (labelsForQuestion question).question ++ lf :: (ofPyStr question ++ lf ::
          ([] ++ lf :: (headingLine "## " (labelsForQuestion question).answer ++ lf :: (ofPyStr answer ++
            lf :: ([] ++ lf :: (headingLine "## " (labelsForQuestion question).agentAnalysis ++ lf ::
              ofPyStr (agentAnalysisText (labelsForQuestion question) evidenceStats
                reasoningResult)))))))))) := by
    have hbreak : ofPyStr (text "\n") = [lf] := by decide
    have htitle : ofPyStr (text "\n# ") = lf :: ofPyStr (text "# ") := by decide
    have hsection : ofPyStr (text "\n## ") = lf :: ofPyStr (text "## ") := by decide
    have hafter : ofPyStr (text "\n\n## ") = lf :: lf :: ofPyStr (text "## ") := by decide
    simp only [buildResearchReport, sectionHeading, headingLine, ofPyStr_append, hbreak, htitle, hsection,
      hafter, List.append_assoc, List.cons_append, List.nil_append]
  rw [hwritten, hempty.append_lf, hheadings.title.append_lf, hempty.append_lf,
    hheadings.question.append_lf, lines_append_lf, hempty.append_lf, hheadings.answer.append_lf,
    lines_append_lf, hempty.append_lf, hheadings.agent.append_lf]
  simp only [reportLines, List.append_assoc, List.cons_append, List.nil_append]

/-! ## Carriage returns in the analysis -/

/-- The texts that the analysis quotes. -/
def analysisTexts (evidenceStats : List (PyStr × PyStr)) (reasoningResult : Option ReasoningResult) :
    List PyStr :=
  (evidenceStats.flatMap fun stat => [stat.1, stat.2]) ++
    (reasoningResult.map fun result =>
      result.facts ++ result.risks ++ result.opportunities ++ [result.conclusion]).getD []

/-- A carriage return, as Python has it. -/
def carriageReturn : CodePoint := ⟨13, by decide⟩

/-- What the labels of the analysis are like. -/
structure AnalysisLabels (labels : ReportLabels) : Prop where
  facts : carriageReturn ∉ labels.facts
  risks : carriageReturn ∉ labels.risks
  opportunities : carriageReturn ∉ labels.opportunities
  conclusion : carriageReturn ∉ labels.conclusion
  coverage : carriageReturn ∉ labels.coverage
  chunks : carriageReturn ∉ labels.chunks
  coverageEnd : (ofPyStr labels.coverage).getLast?.any (fun c => !isSpace c) = true
  chunksEnd : (ofPyStr labels.chunks).getLast?.any (fun c => !isSpace c) = true

theorem analysisLabels (question : PyStr) : AnalysisLabels (labelsForQuestion question) := by
  unfold labelsForQuestion
  split
  · constructor <;> decide +kernel
  · constructor <;> decide +kernel

theorem cr_mem_ofPyStr {s : PyStr} : cr ∈ ofPyStr s ↔ carriageReturn ∈ s := by
  unfold ofPyStr
  rw [List.mem_flatMap]
  constructor
  · rintro ⟨c, hc, hunit⟩
    unfold CodePoint.units at hunit
    split at hunit
    · rename_i hsmall
      have hval : c.val = 13 := (congrArg Fin.val (List.mem_singleton.mp hunit)).symm
      rwa [show c = carriageReturn from Fin.ext hval] at hc
    · -- a surrogate is no carriage return
      have hval : ∀ d : CodeUnit, 0xD800 ≤ d.val → cr ≠ d := by
        rintro d hd rfl
        exact absurd hd (by decide)
      rcases List.mem_cons.mp hunit with heq | heq
      · exact absurd heq (hval _ (Nat.le_add_right _ _))
      · exact absurd (List.mem_singleton.mp heq) (hval _ (by simp; omega))
  · exact fun h => ⟨carriageReturn, h, by decide⟩

theorem cr_mem_itemSection {label : PyStr} (hlabel : carriageReturn ∉ label) (items : List PyStr) :
    carriageReturn ∈ itemSection label items ↔ ∃ item ∈ items, carriageReturn ∈ item := by
  have hmarks : carriageReturn ∉ text "\n## " ∧ carriageReturn ∉ text "\n" ∧ carriageReturn ∉ text "- " := by
    decide
  unfold itemSection sectionHeading
  split
  · rename_i hnone
    rw [List.isEmpty_iff.mp hnone]
    simp
  · simp [hmarks, hlabel]

/-- A carriage return in the analysis comes from a text that it quotes. -/
theorem cr_mem_agentAnalysisText {labels : ReportLabels} (hlabels : AnalysisLabels labels)
    (evidenceStats : List (PyStr × PyStr)) (reasoningResult : Option ReasoningResult) :
    carriageReturn ∈ agentAnalysisText labels evidenceStats reasoningResult ↔
      ∃ s ∈ analysisTexts evidenceStats reasoningResult, carriageReturn ∈ s := by
  have hmarks : carriageReturn ∉ text "\n## " ∧ carriageReturn ∉ text "\n" ∧ carriageReturn ∉ text "- " ∧
      carriageReturn ∉ text ": " ∧ carriageReturn ∉ text " " := by decide
  have hsections : ∀ result : ReasoningResult, carriageReturn ∈ reasoningSections labels result ↔
      ∃ s ∈ result.facts ++ result.risks ++ result.opportunities ++ [result.conclusion],
        carriageReturn ∈ s := by
    intro result
    unfold reasoningSections sectionHeading
    simp only [List.mem_append, cr_mem_itemSection hlabels.facts, cr_mem_itemSection hlabels.risks,
      cr_mem_itemSection hlabels.opportunities, or_and_right, exists_or, List.mem_singleton,
      exists_eq_left, or_assoc]
    by_cases hnone : result.conclusion.isEmpty = true
    · rw [if_pos hnone, List.isEmpty_iff.mp hnone]
    · rw [if_neg hnone]
      simp [hmarks, hlabels.conclusion]
  have hcoverage : carriageReturn ∈ coverageText labels evidenceStats ↔
      ∃ s ∈ evidenceStats.flatMap fun stat => [stat.1, stat.2], carriageReturn ∈ s := by
    unfold coverageText
    induction evidenceStats with
    | nil => simp
    | cons stat evidenceStats ih =>
      rw [List.flatMap_cons, List.mem_append, ih]
      simp [hmarks, hlabels.chunks, or_and_right, exists_or, or_assoc]
  unfold agentAnalysisText analysisTexts sectionHeading
  cases reasoningResult with
  | none => simp [hmarks, hlabels.coverage, hcoverage]
  | some result =>
    simp only [Option.map_some, Option.getD_some, List.mem_append, hsections, hcoverage, hmarks,
      hlabels.coverage, or_false, or_and_right, exists_or]
    exact or_comm

/-- A text that is empty or starts with the mark of a heading. -/
def Opens (s : PyStr) : Prop := s = [] ∨ ∃ rest, s = text "\n#" ++ rest

theorem Opens.append {s t : PyStr} (hs : Opens s) (ht : Opens t) : Opens (s ++ t) := by
  rcases hs with rfl | ⟨rest, rfl⟩
  · exact ht
  · exact .inr ⟨rest ++ t, List.append_assoc _ _ _⟩

theorem opens_sectionHeading (label after : PyStr) : Opens (sectionHeading label ++ after) := by
  refine .inr ⟨text "# " ++ label ++ text "\n" ++ after, ?_⟩
  have hmark : text "\n## " = text "\n#" ++ text "# " := by decide
  unfold sectionHeading
  rw [hmark]
  simp only [List.append_assoc]

theorem opens_itemSection (label : PyStr) (items : List PyStr) : Opens (itemSection label items) := by
  unfold itemSection
  split
  · exact .inl rfl
  · exact opens_sectionHeading label _

theorem opens_agentAnalysisText (labels : ReportLabels) (evidenceStats : List (PyStr × PyStr))
    (reasoningResult : Option ReasoningResult) :
    ∃ rest, agentAnalysisText labels evidenceStats reasoningResult = text "\n#" ++ rest := by
  have hsections : Opens ((reasoningResult.map (reasoningSections labels)).getD []) := by
    cases reasoningResult with
    | none => exact .inl rfl
    | some result =>
      have hconclusion : Opens (if result.conclusion.isEmpty then [] else
          sectionHeading labels.conclusion ++ text "\n" ++ result.conclusion ++ text "\n") := by
        split
        · exact .inl rfl
        · rw [List.append_assoc, List.append_assoc]
          exact opens_sectionHeading _ _
      exact (((opens_itemSection _ _).append (opens_itemSection _ _)).append
        (opens_itemSection _ _)).append hconclusion
  have hwhole := hsections.append
    (opens_sectionHeading labels.coverage (coverageText labels evidenceStats ++ text "\n"))
  rw [← List.append_assoc, ← List.append_assoc] at hwhole
  rcases hwhole with hnil | hrest
  · have hmark : (10 : CodePoint) ∈ agentAnalysisText labels evidenceStats reasoningResult :=
      List.mem_append_right _ (by decide)
    rw [agentAnalysisText, hnil] at hmark
    exact absurd hmark List.not_mem_nil
  · exact hrest

/-- The analysis ends in a label and two line breaks. -/
theorem agentAnalysisText_ends {labels : ReportLabels} (hlabels : AnalysisLabels labels)
    (evidenceStats : List (PyStr × PyStr)) (reasoningResult : Option ReasoningResult) :
    ∃ before label, agentAnalysisText labels evidenceStats reasoningResult =
        before ++ (label ++ text "\n\n") ∧
      (ofPyStr label).getLast?.any (fun c => !isSpace c) = true := by
  have hbreaks : text "\n" ++ text "\n" = text "\n\n" := by decide
  unfold agentAnalysisText sectionHeading
  rw [← hbreaks]
  rcases List.eq_nil_or_concat evidenceStats with rfl | ⟨stats, stat, rfl⟩
  · refine ⟨(reasoningResult.map (reasoningSections labels)).getD [] ++ text "\n## ", labels.coverage, ?_,
      hlabels.coverageEnd⟩
    simp only [coverageText, List.flatMap_nil, List.append_nil, List.append_assoc]
  · have hcoverage : coverageText labels (stats.concat stat) = coverageText labels stats ++
        (text "- " ++ stat.1 ++ text ": " ++ stat.2 ++ text " " ++ labels.chunks ++ text "\n") := by
      unfold coverageText
      rw [List.concat_eq_append, List.flatMap_append, List.flatMap_singleton]
    refine ⟨(reasoningResult.map (reasoningSections labels)).getD [] ++
      (text "\n## " ++ labels.coverage ++ text "\n") ++ coverageText labels stats ++
        (text "- " ++ stat.1 ++ text ": " ++ stat.2 ++ text " "), labels.chunks, ?_, hlabels.chunksEnd⟩
    rw [hcoverage]
    simp only [List.append_assoc]

/-- Trimming the analysis takes no carriage return away. -/
theorem cr_mem_trim_agentAnalysisText {labels : ReportLabels} (hlabels : AnalysisLabels labels)
    (evidenceStats : List (PyStr × PyStr)) (reasoningResult : Option ReasoningResult) :
    cr ∈ trim (ofPyStr (agentAnalysisText labels evidenceStats reasoningResult)) ↔
      ∃ s ∈ analysisTexts evidenceStats reasoningResult, carriageReturn ∈ s := by
  rw [← cr_mem_agentAnalysisText hlabels, ← cr_mem_ofPyStr]
  refine ⟨mem_of_mem_trim, fun hcr => ?_⟩
  obtain ⟨rest, hopens⟩ := opens_agentAnalysisText labels evidenceStats reasoningResult
  obtain ⟨before, label, hends, hlast⟩ := agentAnalysisText_ends hlabels evidenceStats reasoningResult
  obtain ⟨c, hc, hspace⟩ := (Option.any_eq_true _ _).mp hlast
  obtain ⟨init, hlabel⟩ := List.getLast?_eq_some_iff.mp hc
  -- between the first mark and the last unit of the label nothing is trimmed, and outside is no `cr`
  have hmark : ofPyStr (text "\n#") = [lf, 35] := by decide
  have hbreaks : ofPyStr (text "\n\n") = [lf, lf] := by decide
  have hfirst : ofPyStr (agentAnalysisText labels evidenceStats reasoningResult) =
      [lf] ++ 35 :: ofPyStr rest := by
    rw [hopens, ofPyStr_append, hmark]
    rfl
  have hend : ofPyStr (agentAnalysisText labels evidenceStats reasoningResult) =
      (ofPyStr before ++ init) ++ c :: [lf, lf] := by
    rw [hends, ofPyStr_append, ofPyStr_append, hlabel, hbreaks]
    simp only [List.append_assoc, List.cons_append, List.nil_append]
  exact Strip.mem_strip hfirst hend (by decide) (by simpa using hspace) hcr (by decide) (by decide)

end FinancialRag.Frontend
