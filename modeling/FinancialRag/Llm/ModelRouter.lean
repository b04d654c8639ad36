/-
  The choice of a provider (`llm/router/`, `llm/providers/provider_registry.py`).

  The policy scans the providers in the order of their registration and keeps a new one only if it scores
  STRICTLY more, so ties go to the first (`scan_of_first`).  The default of the user scores more than the others
  for a chat without requirements, and nowhere else: `route_provider` says which provider that makes the choice,
  and `route_honours_default_iff` when it is the one a user would expect.
-/
import Mathlib.Algebra.Order.Field.Rat
import Mathlib.Tactic.NormNum
import FinancialRag.Lib.Dict
import FinancialRag.Lib.PyList

set_option linter.unusedVariables false

namespace FinancialRag.Llm

/-! ## Providers -/

/-- `ProviderCapability`, of which the router reads these. -/
structure ProviderCapability where
  supportsStream : Bool
  supportsImage : Bool
  supportsAudio : Bool
  supportsVideo : Bool
  supportsJsonMode : Bool
  supportsReasoningEffort : Bool
  supportsTools : Bool

structure ProviderConfig where
  provider : String
  model : String
  apiKey : String
  baseUrl : Option String
  deriving DecidableEq

/-- A provider class: the capability that an instance with this configuration declares. -/
abbrev ProviderClass := ProviderConfig → Option ProviderCapability

/-- `ProviderRegistry._registry`, in the order of registration; a provider is registered under a name. -/
structure ProviderRegistry where
  classes : Dict String ProviderClass
  named : "" ∉ classes.keys

def ProviderRegistry.listProviders (registry : ProviderRegistry) : List String := registry.classes.keys

/-! ## Requests -/

inductive TaskType where
  | chat
  | summarization
  | reasoning
  | documentQa
  | ocr
  | imageAnalysis
  | codeGeneration
  deriving DecidableEq, Repr

structure RoutingContext where
  task : TaskType
  requiresImage : Bool := false
  requiresAudio : Bool := false
  requiresVideo : Bool := false
  requiresReasoning : Bool := false
  requiresTools : Bool := false
  requiresStream : Bool := false
  requiresJson : Bool := false
  preferredProvider : Option String := none

structure RoutingResult where
  provider : String
  model : String
  reason : String
  confidence : ℚ
  fallbackProvider : Option String
  deriving DecidableEq

inductive RoutingError where
  | keyError (name : String)
  | valueError (message : String)
  | providerNotFound (name : String) (available : List String)
  deriving DecidableEq

/-! ## The policy -/

/-- `config.llm`. -/
structure LlmConfig where
  llmProvider : String
  llmModel : String
  llmApiKey : String
  llmBaseUrl : Option String
  defaultModels : Dict String String

/-- `CapabilityRoutingPolicy`. -/
structure CapabilityRoutingPolicy where
  defaultProvider : String
  defaultModel : String
  providerModels : Dict String String

/-- `x or y` of a text that may be missing. -/
def orElse (x : Option String) (y : String) : String := if x.getD "" = "" then y else x.getD ""

/-- `x or y` of a dictionary that may be missing. -/
def dictOr {V : Type} (x : Option (Dict String V)) (y : Dict String V) : Dict String V :=
  match x with
  | none => y
  | some d => if d.keys = [] then y else d

/-- `CapabilityRoutingPolicy.__init__`. -/
def CapabilityRoutingPolicy.init (config : LlmConfig) (defaultProvider defaultModel : Option String)
    (providerModels : Option (Dict String String)) : CapabilityRoutingPolicy where
  defaultProvider := orElse defaultProvider config.llmProvider
  defaultModel := orElse defaultModel config.llmModel
  providerModels := dictOr providerModels config.defaultModels

namespace CapabilityRoutingPolicy

/-- `_get_capability`. -/
def getCapability (policy : CapabilityRoutingPolicy) (registry : ProviderRegistry) (name : String) :
    Except RoutingError (Option ProviderCapability) :=
  match registry.classes.get name with
  | none => .error (.keyError name)
  | some providerClass => .ok (providerClass ⟨name, (policy.providerModels.get name).getD "default", "", none⟩)

/-- `checks`: what is required, what is supported, and its label. -/
def checks (context : RoutingContext) (capability : ProviderCapability) : List (Bool × Bool × String) :=
  [(context.requiresImage, capability.supportsImage, "image"),
    (context.requiresAudio, capability.supportsAudio, "audio"),
    (context.requiresVideo, capability.supportsVideo, "video"),
    (context.requiresReasoning, capability.supportsReasoningEffort, "reasoning"),
    (context.requiresTools, capability.supportsTools, "tools"),
    (context.requiresStream, capability.supportsStream, "stream"),
    (context.requiresJson, capability.supportsJsonMode, "json")]

/-- `_match`: the reason and the confidence. -/
def score (policy : CapabilityRoutingPolicy) (context : RoutingContext) (capability : ProviderCapability)
    (providerName : String) : String × ℚ :=
  let required := (checks context capability).filter fun check => check.1
  let matched := required.filter fun check => check.2.1
  if required.length = 0 then
    if context.task = .chat ∧ providerName = policy.defaultProvider then ("Default chat provider", 17 / 20)
    else ("General purpose", 1 / 2)
  else if matched.length ≠ required.length then ("No capability match", 0)
  else ("Supports: " ++ ", ".intercalate (matched.map fun check => check.2.2), 1)

/-- The best provider so far. -/
structure Best where
  provider : Option String
  reason : String
  confidence : ℚ

/-- One round of the loop. -/
def consider (policy : CapabilityRoutingPolicy) (context : RoutingContext) (best : Best) (name : String)
    (capability : Option ProviderCapability) : Best :=
  match capability with
  | none => best
  | some capability =>
    let scored := policy.score context capability name
    if best.confidence < scored.2 then ⟨some name, scored.1, scored.2⟩ else best

/-- `_result_for`. -/
def resultFor (policy : CapabilityRoutingPolicy) (providerName reason : String) (confidence : ℚ) : RoutingResult where
  provider := providerName
  model := (policy.providerModels.get providerName).getD policy.defaultModel
  reason := reason
  confidence := confidence
  fallbackProvider := if providerName ≠ policy.defaultProvider then some policy.defaultProvider else none

/-- `_route_by_capability`. -/
def routeByCapability (policy : CapabilityRoutingPolicy) (registry : ProviderRegistry) (context : RoutingContext)
    (providers : List String) : Except RoutingError (Option RoutingResult) :=
  (providers.foldlM (fun best name => (policy.getCapability registry name).map (policy.consider context best name))
    ⟨none, "", 0⟩).map fun best =>
      match best.provider with
      | none => none
      | some provider =>
        if provider ≠ "" ∧ 0 < best.confidence then some (policy.resultFor provider best.reason best.confidence)
        else none

/-- `select`. -/
def select (policy : CapabilityRoutingPolicy) (registry : ProviderRegistry) (context : RoutingContext)
    (providers : Option (List String)) : Except RoutingError RoutingResult :=
  if context.preferredProvider.getD "" ≠ "" then
    .ok (policy.resultFor (context.preferredProvider.getD "") "Preferred provider" 1)
  else
    (policy.routeByCapability registry context (providers.getD registry.listProviders)).map fun result =>
      result.getD (policy.resultFor policy.defaultProvider "Default provider" (7 / 10))

end CapabilityRoutingPolicy

/-! ## The router -/

/-- The entry of a provider in `provider_configs`. -/
structure Overrides where
  apiKey : Option String
  baseUrl : Option (Option String)

structure ModelRouter where
  policy : CapabilityRoutingPolicy
  providerConfigs : Dict String Overrides
  availableProviders : Option (List String)

/-- `_get_request_runtime`: the router of a user with provider configurations of her own. -/
def requestRouter (config : LlmConfig) (overrides : Dict String Overrides) (defaultProvider : Option String)
    (providerModels : Dict String String) (providerConfigs : Dict String Overrides) : ModelRouter where
  policy := .init config defaultProvider none (some providerModels)
  providerConfigs := dictOr (some providerConfigs) overrides
  availableProviders := some providerConfigs.keys

namespace ModelRouter

/-- `_build_config`. -/
def buildConfig (config : LlmConfig) (router : ModelRouter) (result : RoutingResult) : ProviderConfig where
  provider := result.provider
  model := result.model
  apiKey := ((router.providerConfigs.get result.provider).bind Overrides.apiKey).getD config.llmApiKey
  baseUrl := ((router.providerConfigs.get result.provider).bind Overrides.baseUrl).getD config.llmBaseUrl

/-- `ProviderFactory.create`: the provider is known by its configuration. -/
def create (registry : ProviderRegistry) (providerConfig : ProviderConfig) : Except RoutingError ProviderConfig :=
  if providerConfig.provider ∈ registry.listProviders then .ok providerConfig
  else .error (.providerNotFound providerConfig.provider registry.listProviders)

/-- `route`: the provider and the routing. -/
def route (config : LlmConfig) (registry : ProviderRegistry) (router : ModelRouter) (context : RoutingContext) :
    Except RoutingError (ProviderConfig × RoutingResult) :=
  let registeredProviders := registry.listProviders
  let providers := match router.availableProviders with
    | some available => registeredProviders.filter available.contains
    | none => registeredProviders
  if providers = [] then .error (.valueError "No configured LLM provider is available")
  else
    (router.policy.select registry context (some providers)).bind fun result =>
      (create registry (router.buildConfig config result)).map fun provider => (provider, result)

end ModelRouter

/-! ## The scan -/

/-- The context requires no capability. -/
def requiresNothing (context : RoutingContext) : Bool :=
  !(context.requiresImage || context.requiresAudio || context.requiresVideo || context.requiresReasoning ||
    context.requiresTools || context.requiresStream || context.requiresJson)

/-- Every required capability is there. -/
def supportsAll (context : RoutingContext) (capability : ProviderCapability) : Bool :=
  (CapabilityRoutingPolicy.checks context capability).all fun check => !check.1 || check.2.1

namespace CapabilityRoutingPolicy

/-- The capability of a provider, if it is registered and declares one. -/
def capabilityOf (policy : CapabilityRoutingPolicy) (registry : ProviderRegistry) (name : String) :
    Option ProviderCapability :=
  (policy.getCapability registry name).toOption.join

/-- The provider supports all that is required. -/
def supports (policy : CapabilityRoutingPolicy) (registry : ProviderRegistry) (context : RoutingContext)
    (name : String) : Bool :=
  (policy.capabilityOf registry name).any (supportsAll context)

/-- What a provider scores. -/
def scoreOf (policy : CapabilityRoutingPolicy) (registry : ProviderRegistry) (context : RoutingContext)
    (name : String) : String × ℚ :=
  ((policy.capabilityOf registry name).map fun capability => policy.score context capability name).getD ("", 0)

/-- The loop over providers with known capabilities. -/
def scan (policy : CapabilityRoutingPolicy) (registry : ProviderRegistry) (context : RoutingContext) (best : Best)
    (names : List String) : Best :=
  names.foldl (fun best name => policy.consider context best name (policy.capabilityOf registry name)) best

variable {policy : CapabilityRoutingPolicy} {registry : ProviderRegistry} {context : RoutingContext}

theorem filter_checks_eq_nil_iff (capability : ProviderCapability) :
    ((checks context capability).filter fun check => check.1).length = 0 ↔ requiresNothing context = true := by
  rw [List.length_eq_zero_iff, List.filter_eq_nil_iff]
  simp [checks, requiresNothing, and_assoc]

theorem matched_iff (capability : ProviderCapability) :
    (((checks context capability).filter fun check => check.1).filter fun check => check.2.1).length =
      ((checks context capability).filter fun check => check.1).length ↔
    supportsAll context capability = true := by
  rw [List.length_filter_eq_length_iff, supportsAll, List.all_eq_true]
  constructor
  · intro h check hcheck
    cases hrequired : check.1 with
    | false => rfl
    | true => exact h check (List.mem_filter.mpr ⟨hcheck, hrequired⟩)
  · intro h check hcheck
    obtain ⟨hmem, hrequired⟩ := List.mem_filter.mp hcheck
    have hsupported := h check hmem
    rwa [hrequired] at hsupported

/-- Nothing required is always there. -/
theorem supportsAll_of_requiresNothing (h : requiresNothing context = true) (capability : ProviderCapability) :
    supportsAll context capability = true := by
  have hnone := List.length_eq_zero_iff.mp ((filter_checks_eq_nil_iff capability).mpr h)
  rw [← matched_iff, hnone, List.filter_nil]

/-- What is scored in the end. -/
theorem score_confidence (capability : ProviderCapability) (name : String) :
    (policy.score context capability name).2 =
      if requiresNothing context = true then
        if context.task = .chat ∧ name = policy.defaultProvider then 17 / 20 else 1 / 2
      else if supportsAll context capability = true then 1 else 0 := by
  unfold score
  by_cases hnothing : requiresNothing context = true
  · simp only [if_pos hnothing, if_pos ((filter_checks_eq_nil_iff capability).mpr hnothing)]
    split <;> rfl
  · simp only [if_neg hnothing, if_neg (mt (filter_checks_eq_nil_iff capability).mp hnothing)]
    by_cases hall : supportsAll context capability = true
    · rw [if_pos hall, if_neg (not_not.mpr ((matched_iff capability).mpr hall))]
    · rw [if_neg hall, if_pos (mt (matched_iff capability).mp hall)]

/-- One round: a provider is taken only if it scores more. -/
theorem consider_eq {best : Best} (hbest : 0 ≤ best.confidence) (name : String) :
    policy.consider context best name (policy.capabilityOf registry name) =
      if best.confidence < (policy.scoreOf registry context name).2 then
        ⟨some name, (policy.scoreOf registry context name).1, (policy.scoreOf registry context name).2⟩
      else best := by
  unfold consider scoreOf
  cases policy.capabilityOf registry name with
  | none => exact (if_neg (not_lt.mpr hbest)).symm
  | some capability => rfl

/-- Providers that score no more than the best one change nothing. -/
theorem scan_of_le {best : Best} {names : List String} (hbest : 0 ≤ best.confidence)
    (h : ∀ name ∈ names, (policy.scoreOf registry context name).2 ≤ best.confidence) :
    policy.scan registry context best names = best := by
  induction names with
  | nil => rfl
  | cons name names ih =>
    obtain ⟨hname, hnames⟩ := List.forall_mem_cons.mp h
    rw [scan, List.foldl_cons, consider_eq hbest, if_neg (not_lt.mpr hname)]
    exact ih hnames

/-- **The first of the highest score wins.** -/
theorem scan_of_first {best : Best} {before after : List String} {name : String} (hbest : 0 ≤ best.confidence)
    (hless : best.confidence < (policy.scoreOf registry context name).2)
    (hbefore : ∀ other ∈ before,
      (policy.scoreOf registry context other).2 < (policy.scoreOf registry context name).2)
    (hafter : ∀ other ∈ after,
      (policy.scoreOf registry context other).2 ≤ (policy.scoreOf registry context name).2) :
    policy.scan registry context best (before ++ name :: after) =
      ⟨some name, (policy.scoreOf registry context name).1, (policy.scoreOf registry context name).2⟩ := by
  induction before generalizing best with
  | nil =>
    rw [List.nil_append, scan, List.foldl_cons, consider_eq hbest, if_pos hless]
    exact scan_of_le (hbest.trans hless.le) hafter
  | cons other before ih =>
    obtain ⟨hother, hbefore⟩ := List.forall_mem_cons.mp hbefore
    rw [List.cons_append, scan, List.foldl_cons, consider_eq hbest]
    split
    · rename_i hmore
      exact ih (hbest.trans hmore.le) hother hbefore
    · exact ih hbest hless hbefore

/-- Over registered providers the loop does not fail. -/
theorem foldlM_eq_scan {names : List String} (h : ∀ name ∈ names, name ∈ registry.listProviders) (best : Best) :
    names.foldlM
        (fun best name => (policy.getCapability registry name).map (policy.consider context best name)) best =
      Except.ok (policy.scan registry context best names) := by
  induction names generalizing best with
  | nil => rfl
  | cons name names ih =>
    obtain ⟨hname, hnames⟩ := List.forall_mem_cons.mp h
    obtain ⟨providerClass, hclass⟩ := Dict.mem_keys_iff.mp hname
    have hcapability : policy.getCapability registry name = .ok (policy.capabilityOf registry name) := by
      unfold capabilityOf getCapability
      rw [hclass]
      rfl
    rw [List.foldlM_cons, hcapability]
    exact ih hnames _

/-! ## The choice -/

/-- The provider that is chosen: the default for a chat without requirements, else the FIRST that supports what is
    required, else the default. -/
def chosen (policy : CapabilityRoutingPolicy) (registry : ProviderRegistry) (context : RoutingContext)
    (providers : List String) : String :=
  if requiresNothing context = true ∧ context.task = .chat ∧
      policy.supports registry context policy.defaultProvider = true then policy.defaultProvider
  else (providers.find? (policy.supports registry context)).getD policy.defaultProvider

/-- A provider of which nothing is required supports it if it declares a capability. -/
theorem scoreOf_confidence (name : String) :
    (policy.scoreOf registry context name).2 =
      if policy.supports registry context name = true then
        if requiresNothing context = true then
          if context.task = .chat ∧ name = policy.defaultProvider then 17 / 20 else 1 / 2
        else 1
      else 0 := by
  unfold scoreOf supports
  cases policy.capabilityOf registry name with
  | none => rfl
  | some capability =>
    show (policy.score context capability name).2 = _
    rw [score_confidence, Option.any_some]
    by_cases hnothing : requiresNothing context = true
    · rw [if_pos hnothing, if_pos (supportsAll_of_requiresNothing hnothing capability), if_pos hnothing]
    · rw [if_neg hnothing, if_neg hnothing]

theorem scoreOf_pos {name : String} (h : policy.supports registry context name = true) :
    0 < (policy.scoreOf registry context name).2 := by
  rw [scoreOf_confidence, if_pos h]
  split
  · split <;> norm_num
  · norm_num

theorem scoreOf_zero {name : String} (h : ¬ policy.supports registry context name = true) :
    (policy.scoreOf registry context name).2 = 0 := by
  rw [scoreOf_confidence, if_neg h]

/-- Apart from the default in a chat, the providers that support what is required score the same. -/
theorem scoreOf_le {name other : String}
    (hchat : ¬ (requiresNothing context = true ∧ context.task = .chat ∧
      policy.supports registry context policy.defaultProvider = true))
    (hname : policy.supports registry context name = true) :
    (policy.scoreOf registry context other).2 ≤ (policy.scoreOf registry context name).2 := by
  by_cases hother : policy.supports registry context other = true
  · refine le_of_eq ?_
    rw [scoreOf_confidence, scoreOf_confidence, if_pos hname, if_pos hother]
    by_cases hnothing : requiresNothing context = true
    · have hno : ∀ n, policy.supports registry context n = true → ¬ (context.task = .chat ∧ n = policy.defaultProvider) := by
        rintro n hn ⟨htask, rfl⟩
        exact hchat ⟨hnothing, htask, hn⟩
      rw [if_neg (hno other hother), if_neg (hno name hname)]
    · rw [if_neg hnothing, if_neg hnothing]
  · rw [scoreOf_zero hother]
    exact (scoreOf_pos hname).le

/-- In a chat without requirements every other provider scores less than the default. -/
theorem scoreOf_lt_default {other : String} (hnothing : requiresNothing context = true)
    (htask : context.task = .chat) (hdefault : policy.supports registry context policy.defaultProvider = true)
    (hother : other ≠ policy.defaultProvider) :
    (policy.scoreOf registry context other).2 < (policy.scoreOf registry context policy.defaultProvider).2 := by
  have hhigh : (policy.scoreOf registry context policy.defaultProvider).2 = 17 / 20 := by
    rw [scoreOf_confidence, if_pos hdefault, if_pos hnothing, if_pos ⟨htask, rfl⟩]
  rw [hhigh, scoreOf_confidence]
  split
  · rw [if_neg fun h => hother h.2]
    norm_num
  · norm_num

theorem chosen_mem {providers : List String} (h : policy.defaultProvider ∈ providers) :
    policy.chosen registry context providers ∈ providers := by
  unfold chosen
  split
  · exact h
  · cases hfind : providers.find? (policy.supports registry context) with
    | none => exact h
    | some name => exact List.mem_of_find?_eq_some hfind

/-- Whoever is chosen supports what is required, if anyone does. -/
theorem supports_chosen {providers : List String}
    (h : ∃ name ∈ providers, policy.supports registry context name = true) :
    policy.supports registry context (policy.chosen registry context providers) = true := by
  unfold chosen
  split
  · rename_i hchat
    exact hchat.2.2
  · cases hfind : providers.find? (policy.supports registry context) with
    | none =>
      obtain ⟨name, hname, hsupports⟩ := h
      exact absurd hsupports (List.find?_eq_none.mp hfind name hname)
    | some name => exact List.find?_some hfind

/-- **What `select` chooses** among registered providers. -/
theorem select_provider {providers : List String} (hregistered : ∀ name ∈ providers, name ∈ registry.listProviders)
    (hdefault : policy.defaultProvider ∈ providers) (hpreferred : context.preferredProvider.getD "" = "") :
    ∃ result, policy.select registry context (some providers) = .ok result ∧
      result.provider = policy.chosen registry context providers := by
  have hselect : policy.select registry context (some providers) =
      (policy.routeByCapability registry context providers).map fun result =>
        result.getD (policy.resultFor policy.defaultProvider "Default provider" (7 / 10)) := by
    unfold select
    rw [if_neg (not_not.mpr hpreferred)]
    rfl
  have hroute : policy.routeByCapability registry context providers = _ :=
    congrArg (Except.map _) (foldlM_eq_scan hregistered ⟨none, "", 0⟩)
  -- the scan that ends with a provider of the registry gives that provider
  have hfirst : ∀ {before after : List String} {name : String}, providers = before ++ name :: after →
      policy.supports registry context name = true →
      (∀ other ∈ before, (policy.scoreOf registry context other).2 < (policy.scoreOf registry context name).2) →
      (∀ other ∈ after, (policy.scoreOf registry context other).2 ≤ (policy.scoreOf registry context name).2) →
      ∃ result, policy.select registry context (some providers) = .ok result ∧ result.provider = name := by
    rintro before after name rfl hname hbefore hafter
    have hpos := scoreOf_pos hname
    have hne : name ≠ "" := by
      rintro rfl
      exact registry.named (hregistered "" (List.mem_append_right _ List.mem_cons_self))
    rw [hselect, hroute, scan_of_first (le_refl _) hpos hbefore hafter]
    refine ⟨_, rfl, ?_⟩
    simp only [if_pos (And.intro hne hpos)]
    rfl
  unfold chosen
  split
  · rename_i hchat
    obtain ⟨hnothing, htask, hsupports⟩ := hchat
    obtain ⟨before, after, hsplit, hnotMem⟩ := List.eq_append_cons_of_mem hdefault
    refine hfirst hsplit hsupports ?_ ?_
    · intro other hother
      refine scoreOf_lt_default hnothing htask hsupports ?_
      rintro rfl
      exact hnotMem hother
    · intro other hother
      by_cases heq : other = policy.defaultProvider
      · rw [heq]
      · exact (scoreOf_lt_default hnothing htask hsupports heq).le
  · rename_i hchat
    cases hfind : providers.find? (policy.supports registry context) with
    | some name =>
      obtain ⟨hname, before, after, hsplit, hnone⟩ := List.find?_eq_some_iff_append.mp hfind
      refine hfirst hsplit hname ?_ fun other _ => scoreOf_le hchat hname
      intro other hother
      rw [scoreOf_zero]
      · exact scoreOf_pos hname
      · have hnot := hnone other hother
        rwa [Bool.not_eq_true', ← Bool.not_eq_true] at hnot
    | none =>
      rw [hselect, hroute, scan_of_le (le_refl _)]
      · exact ⟨_, rfl, rfl⟩
      · intro name hname
        rw [scoreOf_zero (List.find?_eq_none.mp hfind name hname)]

end CapabilityRoutingPolicy

/-! ## The router of a user -/

/-- What a user has set: her default, her models, and the providers she has configured. -/
structure UserSettings where
  defaultProvider : String
  providerModels : Dict String String
  providerConfigs : Dict String Overrides

/-- Her providers are registered, and the default is one of them. -/
structure UserSettings.Valid (user : UserSettings) (registry : ProviderRegistry) : Prop where
  registered : ∀ name ∈ user.providerConfigs.keys, name ∈ registry.listProviders
  configured : user.defaultProvider ∈ user.providerConfigs.keys

/-- The router of a request. -/
def UserSettings.router (config : LlmConfig) (overrides : Dict String Overrides) (user : UserSettings) : ModelRouter :=
  requestRouter config overrides (some user.defaultProvider) user.providerModels user.providerConfigs

/-- The provider supports all that is required of it, with the model of the user. -/
def Supports (config : LlmConfig) (overrides : Dict String Overrides) (user : UserSettings)
    (registry : ProviderRegistry) (context : RoutingContext) (name : String) : Prop :=
  (user.router config overrides).policy.supports registry context name = true

/-- The provider is one of the user's, and supports what is required if one of them does. -/
def Sound (config : LlmConfig) (overrides : Dict String Overrides) (user : UserSettings)
    (registry : ProviderRegistry) (context : RoutingContext) (provider : String) : Prop :=
  provider ∈ user.providerConfigs.keys ∧
    ((∃ name ∈ user.providerConfigs.keys, Supports config overrides user registry context name) →
      Supports config overrides user registry context provider)

/-- The route of a request: it is sound, and the default is chosen if it supports what is required. -/
def HonoursDefault (config : LlmConfig) (overrides : Dict String Overrides) (user : UserSettings)
    (registry : ProviderRegistry) (context : RoutingContext) : Prop :=
  ∃ provider result, (user.router config overrides).route config registry context = .ok (provider, result) ∧
    Sound config overrides user registry context result.provider ∧
    (Supports config overrides user registry context user.defaultProvider → result.provider = user.defaultProvider)

section

variable {config : LlmConfig} {overrides : Dict String Overrides} {user : UserSettings}
  {registry : ProviderRegistry} {context : RoutingContext}

theorem defaultProvider_ne_empty (h : user.Valid registry) : user.defaultProvider ≠ "" := by
  intro heq
  refine registry.named ?_
  rw [← heq]
  exact h.registered _ h.configured

theorem policy_defaultProvider (config : LlmConfig) (overrides : Dict String Overrides) (h : user.Valid registry) :
    (user.router config overrides).policy.defaultProvider = user.defaultProvider :=
  if_neg (defaultProvider_ne_empty h)

/-- The providers the policy is asked about. -/
def userProviders (user : UserSettings) (registry : ProviderRegistry) : List String :=
  registry.listProviders.filter user.providerConfigs.keys.contains

theorem mem_userProviders_iff (h : user.Valid registry) {name : String} :
    name ∈ userProviders user registry ↔ name ∈ user.providerConfigs.keys := by
  unfold userProviders
  rw [List.mem_filter, List.contains_iff_mem]
  exact ⟨fun hname => hname.2, fun hname => ⟨h.registered name hname, hname⟩⟩

/-- **Which provider a request gets.** -/
theorem route_provider (config : LlmConfig) (overrides : Dict String Overrides) (h : user.Valid registry)
    (hpreferred : context.preferredProvider.getD "" = "") :
    ∃ provider result, (user.router config overrides).route config registry context = .ok (provider, result) ∧
      result.provider =
        (user.router config overrides).policy.chosen registry context (userProviders user registry) := by
  have hpolicy := policy_defaultProvider config overrides h
  have hmem : ∀ name ∈ userProviders user registry, name ∈ registry.listProviders :=
    fun name hname => (List.mem_filter.mp hname).1
  have hdefault : (user.router config overrides).policy.defaultProvider ∈ userProviders user registry := by
    rw [hpolicy]
    exact (mem_userProviders_iff h).mpr h.configured
  obtain ⟨result, hselect, hresult⟩ := CapabilityRoutingPolicy.select_provider hmem hdefault hpreferred
  have hregistered : result.provider ∈ registry.listProviders := by
    rw [hresult]
    exact hmem _ (CapabilityRoutingPolicy.chosen_mem hdefault)
  refine ⟨(user.router config overrides).buildConfig config result, result, ?_, hresult⟩
  have hroute : (user.router config overrides).route config registry context =
      ((user.router config overrides).policy.select registry context (some (userProviders user registry))).bind
        fun result => (ModelRouter.create registry ((user.router config overrides).buildConfig config result)).map
          fun provider => (provider, result) :=
    if_neg (List.ne_nil_of_mem hdefault)
  have hcreate : ModelRouter.create registry ((user.router config overrides).buildConfig config result) =
      .ok ((user.router config overrides).buildConfig config result) :=
    if_pos hregistered
  rw [hroute, hselect]
  show (ModelRouter.create registry _).map _ = _
  rw [hcreate]
  rfl

/-- **Every route is sound.** -/
theorem route_sound (config : LlmConfig) (overrides : Dict String Overrides) (h : user.Valid registry)
    (hpreferred : context.preferredProvider.getD "" = "") :
    ∃ provider result, (user.router config overrides).route config registry context = .ok (provider, result) ∧
      Sound config overrides user registry context result.provider := by
  obtain ⟨provider, result, hroute, hresult⟩ := route_provider config overrides h hpreferred
  refine ⟨provider, result, hroute, ?_⟩
  rw [hresult]
  constructor
  · refine (mem_userProviders_iff h).mp (CapabilityRoutingPolicy.chosen_mem ?_)
    rw [policy_defaultProvider config overrides h]
    exact (mem_userProviders_iff h).mpr h.configured
  · rintro ⟨name, hname, hsupports⟩
    exact CapabilityRoutingPolicy.supports_chosen ⟨name, (mem_userProviders_iff h).mpr hname, hsupports⟩

/-- The default is the one that is chosen, unless another one is chosen for standing before it. -/
theorem chosen_eq_default_iff (h : user.Valid registry)
    (hsupports : Supports config overrides user registry context user.defaultProvider) :
    (user.router config overrides).policy.chosen registry context (userProviders user registry) =
        user.defaultProvider ↔
      (requiresNothing context = true ∧ context.task = .chat) ∨
      ∀ name ∈ user.providerConfigs.keys,
        registry.listProviders.idxOf name < registry.listProviders.idxOf user.defaultProvider →
        ¬ Supports config overrides user registry context name := by
  have hpolicy := policy_defaultProvider config overrides h
  unfold CapabilityRoutingPolicy.chosen
  rw [hpolicy]
  by_cases hchat : requiresNothing context = true ∧ context.task = .chat
  · rw [if_pos ⟨hchat.1, hchat.2, hsupports⟩]
    exact iff_of_true rfl (Or.inl hchat)
  · rw [if_neg fun hall => hchat ⟨hall.1, hall.2.1⟩, or_iff_right hchat]
    -- the scan ends with the first of hers that supports what is required
    have hmem := h.registered _ h.configured
    have hfound : (userProviders user registry).find? ((user.router config overrides).policy.supports registry context) =
        registry.listProviders.find? fun name => decide (user.providerConfigs.keys.contains name = true ∧
          (user.router config overrides).policy.supports registry context name = true) :=
      List.find?_filter
    have hfirst : (userProviders user registry).find?
          ((user.router config overrides).policy.supports registry context) = some user.defaultProvider ↔
        ∀ name ∈ user.providerConfigs.keys,
          registry.listProviders.idxOf name < registry.listProviders.idxOf user.defaultProvider →
          ¬ Supports config overrides user registry context name := by
      rw [hfound, PyList.find?_eq_some_iff_idxOf hmem,
        and_iff_right (decide_eq_true ⟨List.contains_iff_mem.mpr h.configured, hsupports⟩)]
      constructor
      · intro hbefore name hname hless hname'
        exact hbefore name hless (decide_eq_true ⟨List.contains_iff_mem.mpr hname, hname'⟩)
      · intro hbefore name hless hname
        obtain ⟨hconfigured, hname'⟩ := of_decide_eq_true hname
        exact hbefore name (List.contains_iff_mem.mp hconfigured) hless hname'
    rw [← hfirst]
    cases hfind : (userProviders user registry).find?
        ((user.router config overrides).policy.supports registry context) with
    | none =>
      exact absurd hsupports (List.find?_eq_none.mp hfind _ ((mem_userProviders_iff h).mpr h.configured))
    | some name => exact Option.some_inj.symm

/-- When a route honours the default. -/
theorem honoursDefault_iff (h : user.Valid registry) (hpreferred : context.preferredProvider.getD "" = "") :
    HonoursDefault config overrides user registry context ↔
      ¬ Supports config overrides user registry context user.defaultProvider ∨
      (requiresNothing context = true ∧ context.task = .chat) ∨
      ∀ name ∈ user.providerConfigs.keys,
        registry.listProviders.idxOf name < registry.listProviders.idxOf user.defaultProvider →
        ¬ Supports config overrides user registry context name := by
  obtain ⟨provider, result, hroute, hresult⟩ := route_provider config overrides h hpreferred
  have hhonours : HonoursDefault config overrides user registry context ↔
      (Supports config overrides user registry context user.defaultProvider →
        result.provider = user.defaultProvider) := by
    constructor
    · rintro ⟨provider', result', hroute', -, hdefault⟩
      obtain ⟨rfl, rfl⟩ := Prod.mk.inj (Except.ok.inj (hroute.symm.trans hroute'))
      exact hdefault
    · intro hdefault
      obtain ⟨provider', result', hroute', hsound⟩ := route_sound config overrides h hpreferred
      obtain ⟨rfl, rfl⟩ := Prod.mk.inj (Except.ok.inj (hroute.symm.trans hroute'))
      exact ⟨provider, result, hroute, hsound, hdefault⟩
  rw [hhonours, hresult]
  by_cases hsupports : Supports config overrides user registry context user.defaultProvider
  · rw [or_iff_right (not_not.mpr hsupports), forall_prop_of_true hsupports]
    exact chosen_eq_default_iff h hsupports
  · exact iff_of_true (fun hno => absurd hno hsupports) (Or.inl hsupports)

/-! ### The order of registration -/

/-- The same providers, registered in another order. -/
def ProviderRegistry.Reordered (registry registry' : ProviderRegistry) : Prop :=
  registry'.classes.entries.Perm registry.classes.entries

theorem Reordered.valid {registry' : ProviderRegistry} (horder : registry.Reordered registry')
    (h : user.Valid registry) : user.Valid registry' where
  registered name hname := (horder.map Prod.fst).symm.subset (h.registered name hname)
  configured := h.configured

theorem Reordered.supports_iff {registry' : ProviderRegistry} (horder : registry.Reordered registry') (name : String) :
    Supports config overrides user registry' context name ↔ Supports config overrides user registry context name := by
  unfold Supports CapabilityRoutingPolicy.supports CapabilityRoutingPolicy.capabilityOf
    CapabilityRoutingPolicy.getCapability
  rw [Dict.get_of_perm horder]

/-- Any registered provider may be the first. -/
theorem exists_reordered {name : String} (hname : name ∈ registry.listProviders) :
    ∃ registry' : ProviderRegistry, registry.Reordered registry' ∧ registry'.listProviders.head? = some name := by
  obtain ⟨entry, hentry, rfl⟩ := List.mem_map.mp hname
  obtain ⟨before, after, hsplit⟩ := List.append_of_mem hentry
  have hperm : (entry :: (before ++ after)).Perm registry.classes.entries := by
    rw [hsplit]
    exact List.perm_middle.symm
  have hkeys := hperm.map Prod.fst
  exact ⟨⟨⟨entry :: (before ++ after), hkeys.nodup_iff.mpr registry.classes.keysNodup⟩,
    fun hempty => registry.named (hkeys.subset hempty)⟩, hperm, rfl⟩

/-- **When every order honours the default.** -/
theorem honoursDefault_reordered_iff (h : user.Valid registry) (hpreferred : context.preferredProvider.getD "" = "") :
    (∀ registry', registry.Reordered registry' → HonoursDefault config overrides user registry' context) ↔
      ¬ Supports config overrides user registry context user.defaultProvider ∨
      (requiresNothing context = true ∧ context.task = .chat) ∨
      ∀ name ∈ user.providerConfigs.keys, name ≠ user.defaultProvider →
        ¬ Supports config overrides user registry context name := by
  constructor
  · intro hall
    by_contra hno
    obtain ⟨hsupports, hno⟩ := not_or.mp hno
    obtain ⟨hchat, hno⟩ := not_or.mp hno
    refine hno fun name hname hne => ?_
    -- the other one is registered first
    obtain ⟨registry', horder, hfirst⟩ := exists_reordered (h.registered name hname)
    have hhonours := (honoursDefault_iff (Reordered.valid horder h) hpreferred).mp (hall registry' horder)
    rw [Reordered.supports_iff horder, or_iff_right hsupports, or_iff_right hchat] at hhonours
    rw [← Reordered.supports_iff horder]
    refine hhonours name hname ?_
    obtain ⟨rest, hlist⟩ := List.head?_eq_some_iff.mp hfirst
    rw [hlist, List.idxOf_cons_self, List.idxOf_cons_ne _ hne]
    exact Nat.succ_pos _
  · intro hcases registry' horder
    refine (honoursDefault_iff (Reordered.valid horder h) hpreferred).mpr ?_
    rw [Reordered.supports_iff horder]
    refine hcases.imp_right fun hcases => hcases.imp_right fun hothers name hname hless => ?_
    rw [Reordered.supports_iff horder]
    refine hothers name hname ?_
    rintro rfl
    exact lt_irrefl _ hless

end

/-- **Routing and the default of the user.**  The route is always to one of her providers, and to one that
    supports what is required if she has one.  The default that supports it is chosen exactly when it is a chat
    without requirements, or none of her providers that stands before it supports what is required too; in every
    order, when she has no other that does. -/
theorem route_honours_default_iff (config : LlmConfig) (overrides : Dict String Overrides) {user : UserSettings}
    {registry : ProviderRegistry} {context : RoutingContext} (h : user.Valid registry)
    (hpreferred : context.preferredProvider.getD "" = "") :
    (∃ provider result, (user.router config overrides).route config registry context = .ok (provider, result) ∧
      Sound config overrides user registry context result.provider) ∧
    (HonoursDefault config overrides user registry context ↔
      ¬ Supports config overrides user registry context user.defaultProvider ∨
      (requiresNothing context = true ∧ context.task = .chat) ∨
      ∀ name ∈ user.providerConfigs.keys,
        registry.listProviders.idxOf name < registry.listProviders.idxOf user.defaultProvider →
        ¬ Supports config overrides user registry context name) ∧
    ((∀ registry', registry.Reordered registry' → HonoursDefault config overrides user registry' context) ↔
      ¬ Supports config overrides user registry context user.defaultProvider ∨
      (requiresNothing context = true ∧ context.task = .chat) ∨
      ∀ name ∈ user.providerConfigs.keys, name ≠ user.defaultProvider →
        ¬ Supports config overrides user registry context name) :=
  ⟨route_sound config overrides h hpreferred, honoursDefault_iff h hpreferred,
    honoursDefault_reordered_iff h hpreferred⟩

/-! ### Two providers -/

/-- An adapter that declares nothing the router asks for. -/
def plainProvider : ProviderClass := fun _ => some ⟨false, false, false, false, false, false, false⟩

/-- Two of the adapters, as they are registered. -/
def sampleRegistry : ProviderRegistry where
  classes := .ofList [("deepseek", plainProvider), ("openai", plainProvider)]
  named := by decide

def sampleConfig : LlmConfig := ⟨"deepseek", "deepseek-v4-flash", "", none, .empty⟩

/-- A user with both, whose default is the second. -/
def sampleUser : UserSettings where
  defaultProvider := "openai"
  providerModels := .ofList [("deepseek", "deepseek-v4-flash"), ("openai", "gpt-5.5")]
  providerConfigs := .ofList [("deepseek", ⟨some "sk-deepseek", none⟩), ("openai", ⟨some "sk-openai", none⟩)]

theorem sampleUser_valid : sampleUser.Valid sampleRegistry := ⟨by decide, by decide⟩

/-- **Answering from documents goes to the other provider**, on her key for it. -/
theorem default_not_honoured :
    sampleUser.Valid sampleRegistry ∧
    (sampleUser.router sampleConfig .empty).route sampleConfig sampleRegistry { task := .documentQa } =
      .ok (⟨"deepseek", "deepseek-v4-flash", "sk-deepseek", none⟩,
        ⟨"deepseek", "deepseek-v4-flash", "General purpose", 1 / 2, some "openai"⟩) ∧
    ¬ HonoursDefault sampleConfig .empty sampleUser sampleRegistry { task := .documentQa } := by
  have hroute : (sampleUser.router sampleConfig .empty).route sampleConfig sampleRegistry { task := .documentQa } =
      .ok (⟨"deepseek", "deepseek-v4-flash", "sk-deepseek", none⟩,
        ⟨"deepseek", "deepseek-v4-flash", "General purpose", 1 / 2, some "openai"⟩) := by decide +kernel
  refine ⟨sampleUser_valid, hroute, ?_⟩
  rintro ⟨provider, result, hroute', -, hdefault⟩
  obtain ⟨-, rfl⟩ := Prod.mk.inj (Except.ok.inj (hroute.symm.trans hroute'))
  have hsupports : Supports sampleConfig .empty sampleUser sampleRegistry { task := .documentQa } "openai" := by
    unfold Supports
    decide
  exact absurd (hdefault hsupports) (by decide)

/-- A chat without requirements goes to the default. -/
theorem route_honours_default_sample :
    HonoursDefault sampleConfig .empty sampleUser sampleRegistry { task := .chat } :=
  (route_honours_default_iff sampleConfig .empty sampleUser_valid rfl).2.1.mpr (Or.inr (Or.inl ⟨rfl, rfl⟩))

end FinancialRag.Llm
