/-
  Classification of a question (`agent/planning/`): the task it is, the entities it names, and how complex
  it is.

  `TaskAnalyzer` looks keywords up in the order of their priority.  `ComplexityAnalyzer` adds five
  weighted factors as floats and compares the sum with two thresholds.  The factors do not grow beyond
  three companies and three years, so the level is a finite table (`levelFor_eq`): everything later modules
  know about complexity they read off it.

  `float` is a value as a float, and every operation rounds.  `sum` is the compensated one of Python
  3.12: for a chat about two companies and two years the exact sum is the lower threshold, and what is
  added in which way decides the level.
-/
import FinancialRag.Lib.FloatSum
import FinancialRag.Lib.PyList
import FinancialRag.Lib.PyText
import FinancialRag.Lib.Regex

set_option linter.unusedVariables false

namespace FinancialRag.Agent

/-! ## Tasks -/

inductive TaskType where
  | chat
  | documentQa
  | research
  | financialAnalysis
  | comparison
  | summarization
  | ocr
  | imageAnalysis
  | codeGeneration
  | unknown
  deriving DecidableEq, Repr

def TaskType.value : TaskType → String
  | .chat => "chat"
  | .documentQa => "document_qa"
  | .research => "research"
  | .financialAnalysis => "financial_analysis"
  | .comparison => "comparison"
  | .summarization => "summarization"
  | .ocr => "ocr"
  | .imageAnalysis => "image_analysis"
  | .codeGeneration => "code_generation"
  | .unknown => "unknown"

inductive ComplexityLevel where
  | low
  | medium
  | high
  deriving DecidableEq, Repr

/-- The request as the planner sees it. -/
structure PlanningContext where
  question : String
  companies : List String := []
  years : List String := []

structure TaskModel where
  taskType : TaskType
  confidence : ℚ
  complexity : ComplexityLevel

structure TaskResult where
  task : TaskModel
  reason : String
  extractedEntities : List String
  estimatedTokens : Nat

/-! ## Keywords (`keyword_rules.py`) -/

def ocrKeywords : List String :=
  ["ocr", "scan", "扫描", "识别"]

def imageAnalysisKeywords : List String :=
  ["image", "photo", "picture", "chart", "图片", "截图", "图表"]

def comparisonKeywords : List String :=
  ["compare", "comparison", "vs", "versus", "比较", "对比"]

def documentQaKeywords : List String :=
  ["10-k", "10-q", "annual report", "annual reports", "financial report",
   "financial statement", "filing", "财报", "年报", "季报", "财务报告", "risk factor", "risk factors",
   "risk", "revenue", "profit", "margin", "ebitda", "balance sheet", "income statement",
   "cash flow", "cap", "market cap", "dividend", "earnings", "eps", "p/e", "pe ratio", "增长率",
   "营收", "利润", "净利润", "毛利率", "净利率", "现金流", "股息", "市盈率", "市净率"]

def researchKeywords : List String :=
  ["research", "analyze", "analysis", "研究", "深入", "分析", "deep dive", "deep research",
   "investigate", "调查", "调研", "评估", "assessment", "展望", "outlook", "forecast", "预测", "trend",
   "趋势", "strategy", "战略", "market", "industry", "行业", "sector"]

/-- `_PRIORITY_ORDER` -/
def priorityOrder : List (TaskType × List String) :=
  [(.ocr, ocrKeywords), (.imageAnalysis, imageAnalysisKeywords), (.comparison, comparisonKeywords),
    (.documentQa, documentQaKeywords), (.research, researchKeywords)]

/-- `classify_by_keyword`: the first keyword that occurs, in the order of the lists. -/
def classifyByKeyword (questionLower : String) : TaskType × Option String :=
  let rule := fun entry : TaskType × List String =>
    (entry.2.find? fun keyword => PyText.isIn keyword questionLower).map fun keyword =>
      (entry.1, some keyword)
  (priorityOrder.findSome? rule).getD (.chat, none)

/-! ## Entities (`entity_extractor.py`) -/

/-- `_COMPANY_MAP` -/
def companyMap : List (String × String) :=
  [("apple", "Apple"), ("苹果", "Apple"), ("tesla", "Tesla"), ("特斯拉", "Tesla"),
   ("nvidia", "NVIDIA"), ("英伟达", "NVIDIA"), ("amd", "AMD"), ("超威", "AMD"),
   ("microsoft", "Microsoft"), ("微软", "Microsoft"), ("google", "Google"),
   ("alphabet", "Alphabet"), ("谷歌", "Google"), ("amazon", "Amazon"), ("亚马逊", "Amazon"),
   ("meta", "Meta"), ("facebook", "Meta"), ("netflix", "Netflix"), ("奈飞", "Netflix"),
   ("intel", "Intel"), ("英特尔", "Intel"), ("tsmc", "TSMC"), ("台积电", "TSMC"),
   ("samsung", "Samsung"), ("三星", "Samsung"), ("qualcomm", "Qualcomm"), ("高通", "Qualcomm"),
   ("broadcom", "Broadcom"), ("博通", "Broadcom"), ("jpmorgan", "JPMorgan"),
   ("摩根大通", "JPMorgan"), ("berkshire", "Berkshire Hathaway"), ("伯克希尔", "Berkshire Hathaway"),
   ("visa", "Visa"), ("mastercard", "Mastercard"), ("万事达", "Mastercard"),
   ("walmart", "Walmart"), ("沃尔玛", "Walmart"), ("cocacola", "Coca-Cola"),
   ("coca-cola", "Coca-Cola"), ("可口可乐", "Coca-Cola"), ("pepsi", "Pepsi"), ("百事", "Pepsi"),
   ("disney", "Disney"), ("迪士尼", "Disney"), ("toyota", "Toyota"), ("丰田", "Toyota"),
   ("alibaba", "Alibaba"), ("阿里巴巴", "Alibaba"), ("tencent", "Tencent"), ("腾讯", "Tencent"),
   ("byd", "BYD"), ("比亚迪", "BYD"), ("huawei", "Huawei"), ("华为", "Huawei"),
   ("xiaomi", "Xiaomi"), ("小米", "Xiaomi"), ("baidu", "Baidu"), ("百度", "Baidu"),
   ("jd", "JD.com"), ("京东", "JD.com"), ("pdd", "Pinduoduo"), ("拼多多", "Pinduoduo"),
   ("meituan", "Meituan"), ("美团", "Meituan"), ("netease", "NetEase"), ("网易", "NetEase")]

section Entities

variable (T : PyText)

/-- `extract_companies` -/
def extractCompanies (question : String) : List String :=
  PyList.firsts ((companyMap.filter fun entry => PyText.isIn entry.1 (T.lower question)).map Prod.snd)

/-- `_YEAR_PATTERN` -/
def yearPattern : Re :=
  .seqs [.boundary T.isWord, .cls (· == '2'), .cls (· == '0'), .oneOf "012", .cls T.isDecimal,
    .boundary T.isWord]

/-- `extract_years` -/
def extractYears (question : String) : List String :=
  PyList.firsts (((yearPattern T).findallFrom none 0 question.toList).map String.ofList)

end Entities

/-! ## The task (`task_analyzer.py`) -/

/-- `_merge_entities` -/
def mergeEntities (contextEntities extracted : List String) : List String :=
  PyList.firsts (contextEntities ++ extracted)

/-- `_confidence` -/
def confidence (taskType : TaskType) (matchedKeyword : Option String) : ℚ :=
  if matchedKeyword.isSome then 95 / 100
  else if taskType = .chat then 8 / 10
  else 5 / 10

/-- `_estimate_complexity` -/
def estimateComplexity (taskType : TaskType) (companyCount : Nat) : ComplexityLevel :=
  if taskType = .research ∨ taskType = .financialAnalysis ∨ taskType = .comparison then
    if 2 ≤ companyCount then .high else .medium
  else if 2 ≤ companyCount then .medium
  else .low

/-- `TaskAnalyzer._build_reason` -/
def taskReason (taskType : TaskType) : Option String → String
  | some keyword => "Detected " ++ taskType.value ++ " keyword: '" ++ keyword ++ "'"
  | none =>
    if taskType = .financialAnalysis then "Detected financial analysis task"
    else "Default " ++ taskType.value

/-- `TaskAnalyzer._estimate_tokens` -/
def estimateTaskTokens (questionLen companyCount yearCount : Nat) : Nat :=
  128 + questionLen / 4 + 32 * companyCount + 8 * yearCount

/-- `TaskAnalyzer.analyze` -/
def analyzeTask (T : PyText) (context : PlanningContext) : TaskResult :=
  let classified := classifyByKeyword (T.lower context.question)
  let companies := mergeEntities context.companies (extractCompanies T context.question)
  let years := mergeEntities context.years (extractYears T context.question)
  { task :=
      { taskType := classified.1
        confidence := confidence classified.1 classified.2
        complexity := estimateComplexity classified.1 companies.length }
    reason := taskReason classified.1 classified.2
    extractedEntities := companies ++ years
    estimatedTokens := estimateTaskTokens context.question.length companies.length years.length }

/-! ## Complexity (`complexity_analyzer.py`) -/

/-- A value as a float. -/
def float (q : ℚ) : ℚ := FloatFormat.binary64.round q

/-- `sum` of floats. -/
def sumFloats : List ℚ → ℚ := FloatSum.sumCompensated float

structure ComplexityWeights where
  promptLength : ℚ := float (1 / 10)
  companyCount : ℚ := float (2 / 10)
  yearCount : ℚ := float (1 / 10)
  taskWeight : ℚ := float (5 / 10)
  comparison : ℚ := float (1 / 10)

/-- The factors, in the order of the weights. -/
structure ComplexityFactors where
  promptLength : ℚ
  companyCount : ℚ
  yearCount : ℚ
  taskWeight : ℚ
  comparison : ℚ

structure ComplexityModel where
  level : ComplexityLevel
  score : ℚ
  estimatedTokens : Nat
  estimatedLatencyMs : Nat
  estimatedCost : ℚ

structure ComplexityResult where
  complexity : ComplexityModel
  reason : String
  factors : ComplexityFactors

/-- `_prompt_score` -/
def promptScore (companyCount yearCount : Nat) : ℚ :=
  let base := 1 + companyCount + yearCount
  if base ≤ 1 then float (2 / 10)
  else if base ≤ 3 then float (5 / 10)
  else float (8 / 10)

/-- `_company_score` -/
def companyScore : Nat → ℚ
  | 0 => float 0
  | 1 => float (3 / 10)
  | 2 => float (6 / 10)
  | _ => float (9 / 10)

/-- `_year_score` -/
def yearScore : Nat → ℚ
  | 0 => float 0
  | 1 => float (3 / 10)
  | 2 => float (5 / 10)
  | _ => float (8 / 10)

/-- `_task_type_score` -/
def taskTypeScore : TaskType → ℚ
  | .chat => float 0
  | .documentQa | .summarization | .imageAnalysis => float (5 / 10)
  | .ocr | .unknown => float (3 / 10)
  | .comparison => float (7 / 10)
  | .research | .financialAnalysis => float 1
  | .codeGeneration => float (6 / 10)

/-- `_comparison_score` -/
def comparisonScore (taskType : TaskType) (companyCount : Nat) : ℚ :=
  if taskType = .comparison ∧ 2 ≤ companyCount then float (8 / 10)
  else if 2 ≤ companyCount then float (5 / 10)
  else float 0

def complexityFactors (taskType : TaskType) (companyCount yearCount : Nat) : ComplexityFactors where
  promptLength := promptScore companyCount yearCount
  companyCount := companyScore companyCount
  yearCount := yearScore yearCount
  taskWeight := taskTypeScore taskType
  comparison := comparisonScore taskType companyCount

/-- `sum(factors[k] * w[k] for k in w)` -/
def complexityScore (w : ComplexityWeights) (factors : ComplexityFactors) : ℚ :=
  sumFloats
    [float (factors.promptLength * w.promptLength), float (factors.companyCount * w.companyCount),
      float (factors.yearCount * w.yearCount), float (factors.taskWeight * w.taskWeight),
      float (factors.comparison * w.comparison)]

/-- `_score_to_level` -/
def scoreToLevel (score : ℚ) : ComplexityLevel :=
  if score ≤ float (30 / 100) then .low
  else if score ≤ float (50 / 100) then .medium
  else .high

/-- `_LATENCY` -/
def latencyMs : ComplexityLevel → Nat
  | .low => 700
  | .medium => 1500
  | .high => 3000

/-- `_COST` -/
def levelCost : ComplexityLevel → ℚ
  | .low => float (2 / 1000)
  | .medium => float (8 / 1000)
  | .high => float (20 / 1000)

/-- `ComplexityAnalyzer._estimate_tokens` -/
def estimateTokens (companyCount yearCount : Nat) (level : ComplexityLevel) : Nat :=
  let taskBonus :=
    match level with
    | .low => 100
    | .medium => 300
    | .high => 500
  128 + (1 + companyCount + yearCount) * 50 + companyCount * 64 + yearCount * 16 + taskBonus

/-- `ComplexityAnalyzer._build_reason` -/
def complexityReason (taskType : TaskType) (companyCount yearCount : Nat) : String :=
  let task :=
    match taskType with
    | .comparison => if 2 ≤ companyCount then ["Multi-company comparison"] else ["Comparison task"]
    | .financialAnalysis => ["Financial analysis task"]
    | .research => ["Research task"]
    | .documentQa => ["Document QA task"]
    | _ => []
  let companies :=
    if 3 ≤ companyCount then ["multiple companies"]
    else if companyCount = 2 then ["two companies"]
    else []
  let years := if 2 ≤ yearCount then ["multiple years"] else []
  let parts := task ++ companies ++ years
  if parts.isEmpty then "Simple task" else ", ".intercalate parts

/-- The level of a task with so many companies and years, under the default weights. -/
def levelFor (taskType : TaskType) (companyCount yearCount : Nat) : ComplexityLevel :=
  scoreToLevel (complexityScore {} (complexityFactors taskType companyCount yearCount))

/-- `ComplexityAnalyzer.analyze`, with the default weights; `isDigit` is `str.isdigit`. -/
def analyzeComplexity (isDigit : String → Bool) (taskResult : TaskResult) : ComplexityResult :=
  let companyCount := (taskResult.extractedEntities.filter fun e => !isDigit e).length
  let yearCount := (taskResult.extractedEntities.filter isDigit).length
  let taskType := taskResult.task.taskType
  let factors := complexityFactors taskType companyCount yearCount
  let score := complexityScore {} factors
  let level := scoreToLevel score
  { complexity :=
      { level := level
        score := float (roundHalfEven score 4)
        estimatedTokens := estimateTokens companyCount yearCount level
        estimatedLatencyMs := latencyMs level
        estimatedCost := levelCost level }
    reason := complexityReason taskType companyCount yearCount
    factors := factors }

/-! ## The table of levels -/

def promptTenths (companyCount yearCount : Nat) : Nat :=
  if companyCount + yearCount = 0 then 2 else if companyCount + yearCount ≤ 2 then 5 else 8

def companyTenths (companyCount : Nat) : Nat := 3 * min companyCount 3

def yearTenths (yearCount : Nat) : Nat :=
  if yearCount ≤ 1 then 3 * yearCount else if yearCount = 2 then 5 else 8

def taskTenths : TaskType → Nat
  | .chat => 0
  | .documentQa | .summarization | .imageAnalysis => 5
  | .ocr | .unknown => 3
  | .comparison => 7
  | .research | .financialAnalysis => 10
  | .codeGeneration => 6

def comparisonTenths (taskType : TaskType) (companyCount : Nat) : Nat :=
  if companyCount < 2 then 0 else if taskType = .comparison then 8 else 5

/-- A score in hundredths, in exact arithmetic. -/
def scorePercent (taskType : TaskType) (companyCount yearCount : Nat) : Nat :=
  promptTenths companyCount yearCount + 2 * companyTenths companyCount + yearTenths yearCount +
    5 * taskTenths taskType + comparisonTenths taskType companyCount

/-- The level of a score in hundredths. -/
def percentLevel (percent : Nat) : ComplexityLevel :=
  if percent < 30 then .low
  else if percent ≤ 50 then .medium
  else .high

theorem percentLevel_eq_low {p : Nat} : percentLevel p = .low ↔ p < 30 := by
  unfold percentLevel
  split_ifs <;> simp <;> omega

theorem percentLevel_eq_high {p : Nat} : percentLevel p = .high ↔ 50 < p := by
  unfold percentLevel
  split_ifs <;> simp <;> omega

theorem promptScore_eq (c y : Nat) : promptScore c y = float (promptTenths c y / 10) := by
  have hone : (1 + c + y ≤ 1) = (c + y = 0) := propext (by omega)
  have hthree : (1 + c + y ≤ 3) = (c + y ≤ 2) := propext (by omega)
  simp only [promptScore, promptTenths, hone, hthree]
  split_ifs
  · rfl
  · rfl
  · rfl

theorem companyScore_eq (c : Nat) : companyScore c = float (companyTenths c / 10) := by
  match c with
  | 0 => exact congrArg float (by norm_num [companyTenths])
  | 1 => exact congrArg float (by norm_num [companyTenths])
  | 2 => exact congrArg float (by norm_num [companyTenths])
  | c + 3 =>
    have hmin : min (c + 3) 3 = 3 := by omega
    exact congrArg float (by rw [companyTenths, hmin]; norm_num)

theorem yearScore_eq (y : Nat) : yearScore y = float (yearTenths y / 10) := by
  match y with
  | 0 => exact congrArg float (by norm_num [yearTenths])
  | 1 => exact congrArg float (by norm_num [yearTenths])
  | 2 => exact congrArg float (by norm_num [yearTenths])
  | y + 3 =>
    have htenths : yearTenths (y + 3) = 8 := by
      rw [yearTenths, if_neg (by omega), if_neg (by omega)]
    exact congrArg float (by rw [htenths]; norm_num)

theorem taskTypeScore_eq (t : TaskType) : taskTypeScore t = float (taskTenths t / 10) := by
  cases t <;> exact congrArg float (by norm_num [taskTenths])

theorem comparisonScore_eq (t : TaskType) (c : Nat) :
    comparisonScore t c = float (comparisonTenths t c / 10) := by
  unfold comparisonScore comparisonTenths
  by_cases hc : 2 ≤ c
  · rw [if_neg (show ¬ c < 2 by omega)]
    by_cases ht : t = .comparison
    · rw [if_pos ⟨ht, hc⟩, if_pos ht]
      rfl
    · rw [if_neg (fun h => ht h.1), if_pos hc, if_neg ht]
      rfl
  · rw [if_neg (fun h => hc h.2), if_neg hc, if_pos (show c < 2 by omega)]
    exact congrArg float (by norm_num)

/-- How far a float of a magnitude up to two is from the value. -/
def roundoff : ℚ := 1 / 2 ^ 52

theorem rounds_float : FloatSum.Rounds float roundoff 2 := by
  have h := FloatSum.rounds_format FloatFormat.binary64 (m := 1) (by decide)
  have hunit : FloatFormat.binary64.unit (1 - (FloatFormat.binary64.precision - 1)) / 2 = roundoff := by
    norm_num [FloatFormat.unit, FloatFormat.binary64, roundoff]
  have htwo : FloatFormat.binary64.unit 1 = 2 := zpow_one _
  rwa [hunit, htwo] at h

theorem float_zero : float 0 = 0 := FloatFormat.round_zero

theorem complexityScore_eq (t : TaskType) (c y : Nat) :
    complexityScore {} (complexityFactors t c y) =
      FloatSum.sumCompensated float
        ([((promptTenths c y / 10 : ℚ), (1 / 10 : ℚ)), (companyTenths c / 10, 2 / 10),
          (yearTenths y / 10, 1 / 10), (taskTenths t / 10, 5 / 10), (comparisonTenths t c / 10, 1 / 10)].map
          fun p => float (float p.1 * float p.2)) := by
  simp only [complexityScore, complexityFactors, promptScore_eq, companyScore_eq, yearScore_eq,
    taskTypeScore_eq, comparisonScore_eq]
  rfl

theorem tenths_le (t : TaskType) (c y : Nat) :
    promptTenths c y ≤ 10 ∧ companyTenths c ≤ 10 ∧ yearTenths y ≤ 10 ∧ taskTenths t ≤ 10 ∧
      comparisonTenths t c ≤ 10 := by
  refine ⟨?_, ?_, ?_, ?_, ?_⟩
  · unfold promptTenths
    split_ifs <;> omega
  · unfold companyTenths
    omega
  · unfold yearTenths
    split_ifs <;> omega
  · cases t <;> decide
  · unfold comparisonTenths
    split_ifs <;> omega

theorem abs_tenths_le {n : Nat} (h : n ≤ 10) : |(n / 10 : ℚ)| ≤ 1 := by
  have hcast : (n : ℚ) ≤ 10 := by exact_mod_cast h
  rw [abs_of_nonneg (by positivity)]
  linarith

/-- The computed score is near the exact one. -/
theorem complexityScore_near (t : TaskType) (c y : Nat) :
    |complexityScore {} (complexityFactors t c y) - scorePercent t c y / 100| ≤ 46 * roundoff := by
  obtain ⟨hprompt, hcompany, hyear, htask, hcomparison⟩ := tenths_le t c y
  rw [complexityScore_eq]
  have hterms : ∀ p ∈ [((promptTenths c y / 10 : ℚ), (1 / 10 : ℚ)), (companyTenths c / 10, 2 / 10),
      (yearTenths y / 10, 1 / 10), (taskTenths t / 10, 5 / 10), (comparisonTenths t c / 10, 1 / 10)],
      |p.1| ≤ 1 ∧ |p.2| ≤ 1 := by
    simp only [List.forall_mem_cons, List.not_mem_nil, false_implies, implies_true, and_true]
    exact ⟨⟨abs_tenths_le hprompt, by norm_num⟩, ⟨abs_tenths_le hcompany, by norm_num⟩,
      ⟨abs_tenths_le hyear, by norm_num⟩, ⟨abs_tenths_le htask, by norm_num⟩,
      abs_tenths_le hcomparison, by norm_num⟩
  have hweighted := FloatSum.abs_weighted_sub_le rounds_float (by norm_num [roundoff])
    (by norm_num [roundoff]) le_rfl hterms ?_
  · have hsum : (scorePercent t c y : ℚ) / 100 =
        ([((promptTenths c y / 10 : ℚ), (1 / 10 : ℚ)), (companyTenths c / 10, 2 / 10),
          (yearTenths y / 10, 1 / 10), (taskTenths t / 10, 5 / 10), (comparisonTenths t c / 10, 1 / 10)].map
          fun p => p.1 * p.2).sum := by
      simp only [scorePercent, List.map_cons, List.map_nil, List.sum_cons, List.sum_nil]
      push_cast
      ring
    rw [hsum]
    refine hweighted.trans (le_of_eq ?_)
    norm_num
  · have hshare : ∀ n : Nat, ∀ w : ℚ, n ≤ 10 → 0 ≤ w → |(n / 10 : ℚ) * w| ≤ w := by
      intro n w hn hw
      rw [abs_mul, abs_of_nonneg hw]
      exact mul_le_of_le_one_left hw (abs_tenths_le hn)
    have h1 := hshare _ (1 / 10) hprompt (by norm_num)
    have h2 := hshare _ (2 / 10) hcompany (by norm_num)
    have h3 := hshare _ (1 / 10) hyear (by norm_num)
    have h4 := hshare _ (5 / 10) htask (by norm_num)
    have h5 := hshare _ (1 / 10) hcomparison (by norm_num)
    have hsmall : ((9 : ℚ) * (5 : Nat) + 1) * roundoff ≤ 1 := by norm_num [roundoff]
    simp only [FloatSum.mass, List.map_cons, List.map_nil, List.sum_cons, List.sum_nil,
      List.length_cons, List.length_nil]
    norm_num only at hsmall ⊢
    linarith

/-- Beyond three companies and three years the score does not grow. -/
theorem scorePercent_min (t : TaskType) (c y : Nat) :
    scorePercent t c y = scorePercent t (min c 3) (min y 3) := by
  have hprompt : promptTenths c y = promptTenths (min c 3) (min y 3) := by
    have hzero : (c + y = 0) = (min c 3 + min y 3 = 0) := propext (by omega)
    have htwo : (c + y ≤ 2) = (min c 3 + min y 3 ≤ 2) := propext (by omega)
    simp only [promptTenths, hzero, htwo]
  have hyear : yearTenths y = yearTenths (min y 3) := by
    unfold yearTenths
    split_ifs <;> omega
  have hcomparison : comparisonTenths t c = comparisonTenths t (min c 3) := by
    have htwo : (c < 2) = (min c 3 < 2) := propext (by omega)
    simp only [comparisonTenths, htwo]
  have hcompany : companyTenths c = companyTenths (min c 3) := by
    unfold companyTenths
    omega
  rw [scorePercent, hprompt, hcompany, hyear, hcomparison]
  rfl

/-- Only a chat about two companies and two years lies exactly on a threshold. -/
theorem scorePercent_threshold (t : TaskType) (c y : Nat) :
    scorePercent t c y ≠ 50 ∧ (scorePercent t c y = 30 → t = .chat ∧ c = 2 ∧ y = 2) := by
  have htable : ∀ c ∈ List.range 4, ∀ y ∈ List.range 4,
      scorePercent t c y ≠ 50 ∧ (scorePercent t c y = 30 → t = .chat ∧ c = 2 ∧ y = 2) := by
    cases t <;> decide
  obtain ⟨hfifty, hthirty⟩ := htable (min c 3) (List.mem_range.mpr (by omega)) (min y 3)
    (List.mem_range.mpr (by omega))
  rw [scorePercent_min]
  refine ⟨hfifty, fun h => ?_⟩
  obtain ⟨ht, hc, hy⟩ := hthirty h
  exact ⟨ht, by omega, by omega⟩

/-- A score away from a threshold is on the same side of its float. -/
theorem compare_float {score : ℚ} {percent : Nat} {threshold : Nat}
    (hnear : |score - percent / 100| ≤ 46 * roundoff) (hthreshold : threshold ≤ 100)
    (hne : percent ≠ threshold) : score ≤ float (threshold / 100) ↔ percent < threshold := by
  have hfloat := rounds_float (threshold / 100) (by
    have hcast : (threshold : ℚ) ≤ 100 := by exact_mod_cast hthreshold
    rw [abs_of_nonneg (by positivity)]
    linarith)
  have hsmall : roundoff ≤ 1 / 10000 := by norm_num [roundoff]
  obtain ⟨hlow, hhigh⟩ := abs_le.mp hnear
  obtain ⟨hlow', hhigh'⟩ := abs_le.mp hfloat
  constructor
  · intro hle
    by_contra hnot
    have hcast : (threshold : ℚ) + 1 ≤ percent := by exact_mod_cast (by omega : threshold + 1 ≤ percent)
    linarith
  · intro hlt
    have hcast : (percent : ℚ) + 1 ≤ threshold := by exact_mod_cast hlt
    linarith

/-- **The level is that of the exact score**, with the lower threshold counted as above it. -/
theorem levelFor_eq (t : TaskType) (c y : Nat) : levelFor t c y = percentLevel (scorePercent t c y) := by
  obtain ⟨hfifty, hthirty⟩ := scorePercent_threshold t c y
  have hnear := complexityScore_near t c y
  have hhigh := compare_float hnear (by omega) hfifty
  by_cases htie : scorePercent t c y = 30
  · -- the exact score is the threshold, and the computed one is above it
    obtain ⟨rfl, rfl, rfl⟩ := hthirty htie
    decide +kernel
  · have hlow := compare_float hnear (by omega) htie
    norm_num only at hlow hhigh
    unfold levelFor scoreToLevel percentLevel
    have hfifty' : scorePercent t c y < 50 ↔ scorePercent t c y ≤ 50 := by omega
    norm_num only [hlow, hhigh, hfifty']

/-- The levels in their order. -/
def ComplexityLevel.rank : ComplexityLevel → Nat
  | .low => 0
  | .medium => 1
  | .high => 2

theorem rank_percentLevel_mono {p q : Nat} (h : p ≤ q) : (percentLevel p).rank ≤ (percentLevel q).rank := by
  unfold percentLevel
  split_ifs <;> simp only [ComplexityLevel.rank] <;> omega

/-- No factor falls when more companies or years are named. -/
theorem scorePercent_mono (t : TaskType) {c c' y y' : Nat} (hc : c ≤ c') (hy : y ≤ y') :
    scorePercent t c y ≤ scorePercent t c' y' := by
  have hprompt : promptTenths c y ≤ promptTenths c' y' := by
    unfold promptTenths
    split_ifs <;> omega
  have hcompany : companyTenths c ≤ companyTenths c' := by
    unfold companyTenths
    omega
  have hyear : yearTenths y ≤ yearTenths y' := by
    unfold yearTenths
    split_ifs <;> omega
  have hcomparison : comparisonTenths t c ≤ comparisonTenths t c' := by
    unfold comparisonTenths
    split_ifs <;> omega
  unfold scorePercent
  omega

/-- A task result that names further entities. -/
def TaskResult.naming (r : TaskResult) (more : List String) : TaskResult :=
  { r with extractedEntities := r.extractedEntities ++ more }

end FinancialRag.Agent
