/-
  Per-user LLM providers (`services/llm_settings_service.py`, `models/llm_provider_setting.py`).

  A call runs in a session of its own: it sees its own writes, the others see what was COMMITTED, and the
  database checks its constraints whenever pending writes are flushed.  `Effect` says once what a call does
  to the table; the invariants are read off from it.
-/
import FinancialRag.Cache.Redis
import FinancialRag.Cache.Session
import FinancialRag.Lib.Dict
import FinancialRag.Lib.JsonCode

set_option linter.unusedVariables false

namespace FinancialRag.Services.LlmSettings

open Cache (Principal Sha256)

/-! ## The table -/

/-- `str(uuid4())`. -/
@[ext] structure Uuid where
  text : PyStr
  length : text.length = 36
  printable : text.all printableAscii = true
  deriving DecidableEq

/-- A `datetime`, as `isoformat` writes it. -/
structure Datetime where
  isoformat : PyStr
  printable : isoformat.all printableAscii = true
  deriving DecidableEq

/-- `LLMProviderSetting`. -/
structure Setting where
  id : Int
  tenantId : Int
  userId : Int
  provider : PyStr
  encryptedApiKey : PyStr
  keyHint : PyStr
  model : PyStr
  isDefault : Bool
  revision : Uuid
  createdAt : Datetime
  updatedAt : Datetime
  deriving DecidableEq

def Setting.principal (s : Setting) : Principal := ⟨s.tenantId, s.userId⟩

abbrev Table := List Setting

/-- What the database keeps: the primary key, `uq_llm_provider_settings_principal_provider`, and
    `uq_llm_provider_settings_principal_default`, which covers the rows with `is_default` only. -/
structure Constraints (table : Table) : Prop where
  key : (table.map Setting.id).Nodup
  provider : (table.map fun s => (s.principal, s.provider)).Nodup
  default : ((table.filter Setting.isDefault).map Setting.principal).Nodup

instance (table : Table) : Decidable (Constraints table) :=
  decidable_of_iff ((table.map Setting.id).Nodup ∧ (table.map fun s => (s.principal, s.provider)).Nodup ∧
      ((table.filter Setting.isDefault).map Setting.principal).Nodup)
    ⟨fun ⟨hkey, hprovider, hdefault⟩ => ⟨hkey, hprovider, hdefault⟩,
      fun h => ⟨h.key, h.provider, h.default⟩⟩

/-- The rows as committed, and as the session sees them. -/
structure Session where
  committed : Table
  rows : Table

inductive Rejection where
  | keyError
  | valueError (message : String)
  | unicodeEncodeError
  | credentialEncryptionError (message : String)
  | databaseError
  deriving DecidableEq

/-- Why a call was rejected, if it was, and the session behind it. -/
abbrev Reply := Option Rejection × Session

/-- What a call gets from outside. -/
structure Environment where
  uuid : Uuid
  /-- the calls of `datetime.now` -/
  now : Nat → Datetime
  /-- `_fernet().encrypt(…)` of this call; `none`: encryption is not configured -/
  encrypt : PyStr → Option PyStr
  /-- the id of an inserted row -/
  rowId : Int
  /-- the database takes the transaction: the principal exists, the connection holds -/
  takes : Bool

section Transactions

variable (env : Environment)

/-- A database error rolls the transaction back. -/
def Session.rollback (session : Session) : Session := ⟨session.committed, session.committed⟩

/-- `db.flush()` of these rows, and what the call does then. -/
def flush (session : Session) (rows : Table) (andThen : Session → Reply) : Reply :=
  if Constraints rows then andThen ⟨session.committed, rows⟩ else (some .databaseError, session.rollback)

/-- `db.commit()` of these rows. -/
def commit (session : Session) (rows : Table) : Reply :=
  flush session rows fun session =>
    if env.takes then (none, ⟨session.rows, session.rows⟩) else (some .databaseError, session.rollback)

end Transactions

/-- The changed row is written. -/
def write (rows : Table) (row : Setting) : Table := rows.map fun s => if s.id = row.id then row else s

/-- `db.delete(setting)`. -/
def without (rows : Table) (setting : Setting) : Table := rows.filter fun s => decide (s.id ≠ setting.id)

/-! ## Queries -/

/-- `_setting_query`. -/
def settingQuery (rows : Table) (p : Principal) : Table := rows.filter fun s => s.principal == p

/-- `get_provider_setting`. -/
def getProviderSetting (rows : Table) (p : Principal) (provider : PyStr) : Option Setting :=
  (settingQuery rows p).find? fun s => s.provider == provider

/-- `list_provider_settings`. -/
def listProviderSettings (rows : Table) (p : Principal) : List Setting :=
  PyList.sorted (fun s t => decide (s.provider < t.provider)) (settingQuery rows p)

/-! ## Providers -/

/-- What `config.llm` reads from the environment. -/
structure LlmConfig where
  llmProvider : PyStr
  deepseekModel : PyStr
  deepseekBaseUrl : PyStr
  geminiModel : PyStr
  openaiModel : PyStr
  openaiBaseUrl : PyStr
  anthropicModel : PyStr
  anthropicBaseUrl : PyStr
  doubaoModel : PyStr
  doubaoBaseUrl : PyStr

structure ProviderDefinition where
  defaultModel : PyStr
  baseUrl : Option PyStr
  models : List PyStr

/-- `SUPPORTED_LLM_PROVIDERS`. -/
def supportedLlmProviders (config : LlmConfig) : List (PyStr × ProviderDefinition) :=
  [(PyStr.ofString "deepseek", {
      defaultModel := config.deepseekModel
      baseUrl := some config.deepseekBaseUrl
      models := ["deepseek-v4-flash", "deepseek-v4-pro"].map PyStr.ofString }),
    (PyStr.ofString "gemini", {
      defaultModel := config.geminiModel
      baseUrl := none
      models := ["gemini-3.6-flash", "gemini-3.5-flash", "gemini-3.5-flash-lite",
        "gemini-3.1-flash-lite"].map PyStr.ofString }),
    (PyStr.ofString "openai", {
      defaultModel := config.openaiModel
      baseUrl := some config.openaiBaseUrl
      models := ["gpt-5.5", "gpt-5.4", "gpt-5.4-mini", "gpt-5.4-nano"].map PyStr.ofString }),
    (PyStr.ofString "anthropic", {
      defaultModel := config.anthropicModel
      baseUrl := some config.anthropicBaseUrl
      models := ["claude-fable-5", "claude-opus-4-8", "claude-sonnet-5",
        "claude-haiku-4-5-20251001"].map PyStr.ofString }),
    (PyStr.ofString "doubao", {
      defaultModel := config.doubaoModel
      baseUrl := some config.doubaoBaseUrl
      models := ["doubao-seed-2-0-pro-260215", "doubao-seed-2-0-lite-260215",
        "doubao-seed-2-0-mini-260215"].map PyStr.ofString })]

variable (config : LlmConfig)

/-! ## `upsert_provider_setting` -/

/-- `_encrypt_api_key`. -/
def encryptApiKey (env : Environment) (apiKey : PyStr) : Except Rejection PyStr :=
  match env.encrypt apiKey with
  | none => .error (.credentialEncryptionError "LLM credential encryption is not configured on the backend")
  | some encrypted => if apiKey.encodable then .ok encrypted else .error .unicodeEncodeError

/-- `key[-4:]`. -/
def keyHint (apiKey : PyStr) : PyStr := apiKey.drop (apiKey.length - 4)

/-- `model or (…)`: the model that the caller names, the present one, or the provider's own. -/
def selectedModel (definition : ProviderDefinition) (setting : Option Setting) (model : Option PyStr) :
    PyStr :=
  ((model.filter fun name => !name.isEmpty).or (setting.map Setting.model)).getD definition.defaultModel

/-- The checks before anything is written. -/
def checkUpdate (definition : ProviderDefinition) (setting : Option Setting)
    (normalizedKey model : Option PyStr) : Except Rejection Unit :=
  if normalizedKey.any List.isEmpty then .error (.valueError "API key cannot be blank")
  else if normalizedKey.any fun apiKey => !(decide (8 ≤ apiKey.length) && decide (apiKey.length ≤ 4096)) then
    .error (.valueError "API key must contain between 8 and 4096 characters")
  else if setting.isNone && normalizedKey.isNone then
    .error (.valueError "API key is required when configuring a provider")
  else if setting.isSome && normalizedKey.isNone && model.isNone then
    .error (.valueError "API key or model must be provided")
  else if !definition.models.contains (selectedModel definition setting model) then
    .error (.valueError "Unsupported model for LLM provider")
  else .ok ()

/-- The row of a provider that is configured for the first time. -/
def newSetting (env : Environment) (p : Principal) (provider apiKey encrypted model : PyStr)
    (isFirstProvider : Bool) : Setting where
  id := env.rowId
  tenantId := p.tenantId
  userId := p.userId
  provider := provider
  encryptedApiKey := encrypted
  keyHint := keyHint apiKey
  model := model
  isDefault := isFirstProvider
  revision := env.uuid
  createdAt := env.now 0
  updatedAt := env.now 1

/-- The row with the new key, if there is one. -/
def withKey (env : Environment) (setting : Setting) : Option PyStr → Except Rejection Setting
  | none => .ok setting
  | some apiKey => (encryptApiKey env apiKey).map fun encrypted =>
      { setting with encryptedApiKey := encrypted, keyHint := keyHint apiKey }

/-- `upsert_provider_setting`. -/
def upsertProviderSetting (env : Environment) (session : Session) (p : Principal) (provider : PyStr)
    (apiKey model : Option PyStr) : Reply :=
  match (supportedLlmProviders config).lookup provider with
  | none => (some .keyError, session)
  | some definition =>
    let setting := getProviderSetting session.rows p provider
    let normalizedKey := apiKey.map PyStr.strip
    match checkUpdate definition setting normalizedKey model with
    | .error rejection => (some rejection, session)
    | .ok () =>
      match setting with
      | none =>
        let isFirstProvider := (settingQuery session.rows p).isEmpty
        let key := normalizedKey.getD []
        match encryptApiKey env key with
        | .error rejection => (some rejection, session)
        | .ok encrypted =>
          commit env session (session.rows ++
            [newSetting env p provider key encrypted (selectedModel definition setting model) isFirstProvider])
      | some row =>
        match withKey env row normalizedKey with
        | .error rejection => (some rejection, session)
        | .ok changed =>
          commit env session (write session.rows
            { changed with
              model := selectedModel definition setting model
              revision := env.uuid
              updatedAt := env.now 0 })

/-! ## `delete_provider_setting` -/

/-- `_preferred_setting`. -/
def preferredSetting (settings : List Setting) : Option Setting :=
  (settings.find? fun s => s.provider == config.llmProvider).or settings.head?

/-- `delete_provider_setting`. -/
def deleteProviderSetting (env : Environment) (session : Session) (p : Principal) (provider : PyStr) :
    Reply :=
  match getProviderSetting session.rows p provider with
  | none => (none, session)
  | some setting =>
    flush session (without session.rows setting) fun session =>
      let replacement :=
        if setting.isDefault then preferredSetting config (listProviderSettings session.rows p) else none
      match replacement with
      | none => commit env session session.rows
      | some replacement =>
        commit env session (write session.rows
          { replacement with isDefault := true, revision := env.uuid, updatedAt := env.now 0 })

/-! ## `set_default_provider` -/

/-- The bulk update: no row of the principal is the default any more; `onupdate` dates what changes. -/
def clearDefaults (env : Environment) (rows : Table) (p : Principal) : Table :=
  rows.map fun s =>
    if s.principal == p && s.isDefault then { s with isDefault := false, updatedAt := env.now 0 } else s

/-- `set_default_provider`. -/
def setDefaultProvider (env : Environment) (session : Session) (p : Principal) (provider : PyStr) : Reply :=
  match getProviderSetting session.rows p provider with
  | none => (some (.valueError "LLM provider must be configured before it can be selected"), session)
  | some setting =>
    flush session (clearDefaults env session.rows p) fun session =>
      commit env session (write session.rows
        { setting with isDefault := true, revision := env.uuid, updatedAt := env.now 1 })

/-! ## Calls -/

inductive Request where
  | upsert (provider : PyStr) (apiKey model : Option PyStr)
  | delete (provider : PyStr)
  | setDefault (provider : PyStr)

structure Call where
  principal : Principal
  request : Request
  env : Environment

/-- A call, in a session of its own. -/
def reply (table : Table) (call : Call) : Reply :=
  let session : Session := ⟨table, table⟩
  match call.request with
  | .upsert provider apiKey model =>
    upsertProviderSetting config call.env session call.principal provider apiKey model
  | .delete provider => deleteProviderSetting config call.env session call.principal provider
  | .setDefault provider => setDefaultProvider call.env session call.principal provider

/-- The table behind a call. -/
def after (table : Table) (call : Call) : Table := (reply config table call).2.committed

/-- The table behind these calls, the first one made to an empty table. -/
def run (calls : List Call) : Table := calls.foldl (after config) []

/-! ## What a call does -/

/-- A supported provider, with one of its models. -/
def Supported (provider model : PyStr) : Prop :=
  ∃ definition, (supportedLlmProviders config).lookup provider = some definition ∧ model ∈ definition.models

/-- **What an accepted call does to the table**, all of it. -/
inductive Effect (call : Call) (table : Table) : Table → Prop
  | unchanged : Effect call table table
  | inserted {row : Setting} :
      getProviderSetting table call.principal row.provider = none → row.id = call.env.rowId →
      row.principal = call.principal →
      row.isDefault = (settingQuery table call.principal).isEmpty → row.revision = call.env.uuid →
      Supported config row.provider row.model → Effect call table (table ++ [row])
  | updated {old row : Setting} :
      old ∈ settingQuery table call.principal → row.id = old.id → row.principal = old.principal →
      row.provider = old.provider → row.isDefault = old.isDefault → row.revision = call.env.uuid →
      Supported config row.provider row.model → Effect call table (write table row)
  | deleted {old : Setting} :
      old ∈ settingQuery table call.principal →
      old.isDefault = false ∨ settingQuery (without table old) call.principal = [] →
      Effect call table (without table old)
  | replaced {old heir : Setting} :
      old ∈ settingQuery table call.principal → old.isDefault = true →
      heir ∈ settingQuery (without table old) call.principal →
      Effect call table (write (without table old)
        { heir with isDefault := true, revision := call.env.uuid, updatedAt := call.env.now 0 })
  | selected {setting : Setting} :
      setting ∈ settingQuery table call.principal →
      Effect call table (write (clearDefaults call.env table call.principal)
        { setting with isDefault := true, revision := call.env.uuid, updatedAt := call.env.now 1 })

variable {config}

theorem mem_settingQuery {rows : Table} {p : Principal} {s : Setting} :
    s ∈ settingQuery rows p ↔ s ∈ rows ∧ s.principal = p := by
  unfold settingQuery
  rw [List.mem_filter, beq_iff_eq]

theorem of_getProviderSetting {rows : Table} {p : Principal} {provider : PyStr} {s : Setting}
    (h : getProviderSetting rows p provider = some s) : s ∈ settingQuery rows p ∧ s.provider = provider :=
  ⟨List.mem_of_find?_eq_some h, by simpa using List.find?_some h⟩

theorem mem_of_preferredSetting {settings : List Setting} {s : Setting}
    (h : preferredSetting config settings = some s) : s ∈ settings := by
  unfold preferredSetting at h
  rcases Option.or_eq_some_iff.mp h with hfound | ⟨-, hhead⟩
  · exact List.mem_of_find?_eq_some hfound
  · exact List.mem_of_head? hhead

theorem mem_listProviderSettings {rows : Table} {p : Principal} {s : Setting} :
    s ∈ listProviderSettings rows p ↔ s ∈ settingQuery rows p := PyList.mem_sorted

theorem settingQuery_of_preferredSetting {rows : Table} {p : Principal}
    (h : preferredSetting config (listProviderSettings rows p) = none) : settingQuery rows p = [] := by
  have hlist : listProviderSettings rows p = [] := List.head?_eq_none_iff.mp (Option.or_eq_none_iff.mp h).2
  refine List.eq_nil_iff_forall_not_mem.mpr fun s hs => ?_
  have hmem := mem_listProviderSettings.mpr hs
  rw [hlist] at hmem
  exact absurd hmem List.not_mem_nil

/-- How the checks end: a `ValueError`, or the model is one of the provider's. -/
theorem checkUpdate_cases (definition : ProviderDefinition) (setting : Option Setting)
    (normalizedKey model : Option PyStr) :
    (∃ message, checkUpdate definition setting normalizedKey model = .error (.valueError message)) ∨
      (checkUpdate definition setting normalizedKey model = .ok () ∧
        selectedModel definition setting model ∈ definition.models) := by
  unfold checkUpdate
  split
  · exact .inl ⟨_, rfl⟩
  split
  · exact .inl ⟨_, rfl⟩
  split
  · exact .inl ⟨_, rfl⟩
  split
  · exact .inl ⟨_, rfl⟩
  split
  · exact .inl ⟨_, rfl⟩
  · rename_i hcontains
    exact .inr ⟨rfl, by simpa using hcontains⟩

/-- Encryption is not rejected as the database rejects. -/
theorem encryptApiKey_cases (env : Environment) (apiKey : PyStr) :
    (∃ encrypted, encryptApiKey env apiKey = .ok encrypted) ∨
      ∃ rejection, encryptApiKey env apiKey = .error rejection ∧ rejection ≠ .databaseError := by
  unfold encryptApiKey
  cases env.encrypt apiKey with
  | none => exact .inr ⟨_, rfl, fun h => by cases h⟩
  | some encrypted =>
    dsimp only
    split
    · exact .inl ⟨encrypted, rfl⟩
    · exact .inr ⟨_, rfl, fun h => by cases h⟩

theorem withKey_cases (env : Environment) (setting : Setting) (normalizedKey : Option PyStr) :
    (∃ encrypted hint,
        withKey env setting normalizedKey = .ok { setting with encryptedApiKey := encrypted, keyHint := hint }) ∨
      ∃ rejection, withKey env setting normalizedKey = .error rejection ∧ rejection ≠ .databaseError := by
  cases normalizedKey with
  | none => exact .inl ⟨setting.encryptedApiKey, setting.keyHint, rfl⟩
  | some apiKey =>
    rcases encryptApiKey_cases env apiKey with ⟨encrypted, hencrypt⟩ | ⟨rejection, hencrypt, hrejection⟩
    · simp only [withKey, hencrypt, Except.map]
      exact .inl ⟨encrypted, keyHint apiKey, rfl⟩
    · simp only [withKey, hencrypt, Except.map]
      exact .inr ⟨rejection, rfl, hrejection⟩

/-! ## Rows -/

theorem Constraints.eq_of_id {table : Table} (h : Constraints table) {s t : Setting} (hs : s ∈ table)
    (ht : t ∈ table) (hid : s.id = t.id) : s = t := List.inj_on_of_nodup_map h.key hs ht hid

theorem mem_write {rows : Table} {row s : Setting} :
    s ∈ write rows row ↔ (s = row ∧ ∃ t ∈ rows, t.id = row.id) ∨ (s ∈ rows ∧ s.id ≠ row.id) := by
  unfold write
  rw [List.mem_map]
  constructor
  · rintro ⟨t, ht, heq⟩
    split at heq
    · rename_i hid
      exact .inl ⟨heq.symm, t, ht, hid⟩
    · rename_i hid
      exact .inr ⟨heq ▸ ht, heq ▸ hid⟩
  · rintro (⟨rfl, t, ht, hid⟩ | ⟨hs, hid⟩)
    · exact ⟨t, ht, if_pos hid⟩
    · exact ⟨s, hs, if_neg hid⟩

theorem mem_without {rows : Table} {setting s : Setting} :
    s ∈ without rows setting ↔ s ∈ rows ∧ s.id ≠ setting.id := by
  unfold without
  rw [List.mem_filter, decide_eq_true_eq]

theorem mem_clearDefaults {env : Environment} {rows : Table} {p : Principal} {s : Setting}
    (h : s ∈ clearDefaults env rows p) : ∃ t ∈ rows, s.id = t.id ∧ s.principal = t.principal ∧
      s.revision = t.revision ∧ s.encryptedApiKey = t.encryptedApiKey ∧ s.provider = t.provider ∧
        s.model = t.model := by
  unfold clearDefaults at h
  obtain ⟨t, ht, rfl⟩ := List.mem_map.mp h
  refine ⟨t, ht, ?_⟩
  split
  · exact ⟨rfl, rfl, rfl, rfl, rfl, rfl⟩
  · exact ⟨rfl, rfl, rfl, rfl, rfl, rfl⟩

theorem exists_mem_clearDefaults (env : Environment) {rows : Table} (p : Principal) {s : Setting}
    (h : s ∈ rows) : ∃ t ∈ clearDefaults env rows p, t.id = s.id := by
  refine ⟨_, List.mem_map.mpr ⟨s, h, rfl⟩, ?_⟩
  split
  · rfl
  · rfl

/-- Writing a row leaves the rows of the other principals. -/
theorem settingQuery_write {rows : Table} {row : Setting} {q : Principal}
    (hrows : ∀ s ∈ rows, s.id = row.id → s.principal = row.principal) (hq : q ≠ row.principal) :
    settingQuery (write rows row) q = settingQuery rows q := by
  unfold settingQuery write
  induction rows with
  | nil => rfl
  | cons s rows ih =>
    rw [List.map_cons]
    have htail := ih fun t ht => hrows t (List.mem_cons_of_mem _ ht)
    split
    · rename_i hid
      have hs : s.principal ≠ q := fun h => hq (h ▸ (hrows s List.mem_cons_self hid))
      rw [List.filter_cons_of_neg (by simpa using fun h => hq h.symm),
        List.filter_cons_of_neg (by simpa using hs), htail]
    · rw [List.filter_cons, List.filter_cons, htail]

theorem settingQuery_without {rows : Table} {setting : Setting} {q : Principal}
    (hrows : ∀ s ∈ rows, s.id = setting.id → s.principal = setting.principal)
    (hq : q ≠ setting.principal) : settingQuery (without rows setting) q = settingQuery rows q := by
  unfold settingQuery without
  rw [List.filter_filter]
  refine List.filter_congr fun s hs => ?_
  by_cases hid : s.id = setting.id
  · have hp : (s.principal == q) = false := beq_eq_false_iff_ne.mpr fun h => hq (h ▸ hrows s hs hid)
    rw [hp, Bool.false_and]
  · rw [decide_eq_true hid, Bool.and_true]

theorem settingQuery_clearDefaults (env : Environment) {rows : Table} {p q : Principal} (hq : q ≠ p) :
    settingQuery (clearDefaults env rows p) q = settingQuery rows q := by
  unfold settingQuery clearDefaults
  induction rows with
  | nil => rfl
  | cons s rows ih =>
    rw [List.map_cons]
    split
    · rename_i hs
      have hp : s.principal = p := by simpa using (Bool.and_eq_true_iff.mp hs).1
      have hne : ¬ (s.principal == q) = true := by
        rw [hp, beq_iff_eq]
        exact fun h => hq h.symm
      rw [List.filter_cons, List.filter_cons, ih]
      exact (if_neg hne).trans (if_neg hne).symm
    · rw [List.filter_cons, List.filter_cons, ih]

/-! ## Constraints -/

/-- No two defaults of one principal, pair by pair. -/
def OneDefault (rows : Table) : Prop :=
  rows.Pairwise fun s t => s.isDefault = true → t.isDefault = true → s.principal ≠ t.principal

theorem oneDefault_iff {rows : Table} :
    ((rows.filter Setting.isDefault).map Setting.principal).Nodup ↔ OneDefault rows := by
  unfold List.Nodup OneDefault
  rw [List.pairwise_map, List.pairwise_filter]

theorem Constraints.without {rows : Table} (h : Constraints rows) (setting : Setting) :
    Constraints (without rows setting) where
  key := h.key.sublist (List.filter_sublist.map _)
  provider := h.provider.sublist (List.filter_sublist.map _)
  default := h.default.sublist ((List.filter_sublist.filter _).map _)

/-- What changes no key, no provider and makes no row a default keeps the constraints. -/
theorem Constraints.map {rows : Table} (h : Constraints rows) {f : Setting → Setting}
    (hid : ∀ s ∈ rows, (f s).id = s.id) (hprincipal : ∀ s ∈ rows, (f s).principal = s.principal)
    (hprovider : ∀ s ∈ rows, (f s).provider = s.provider)
    (hdefault : OneDefault (rows.map f)) : Constraints (rows.map f) where
  key := by
    rw [List.map_map, List.map_congr_left fun s hs => (by exact hid s hs : (Setting.id ∘ f) s = s.id)]
    exact h.key
  provider := by
    have hsame : ∀ s ∈ rows, ((fun s => (s.principal, s.provider)) ∘ f) s = (s.principal, s.provider) :=
      fun s hs => Prod.ext (hprincipal s hs) (hprovider s hs)
    rw [List.map_map, List.map_congr_left hsame]
    exact h.provider
  default := oneDefault_iff.mpr hdefault

theorem Constraints.clearDefaults {rows : Table} (h : Constraints rows) (env : Environment) (p : Principal) :
    Constraints (clearDefaults env rows p) := by
  have hfields : ∀ s : Setting, ∃ isDefault updatedAt,
      (if s.principal == p && s.isDefault then { s with isDefault := false, updatedAt := env.now 0 } else s) =
        { s with isDefault := isDefault, updatedAt := updatedAt } ∧ (isDefault = true → s.isDefault = true) := by
    intro s
    split
    · exact ⟨_, _, rfl, fun h => absurd h Bool.false_ne_true⟩
    · exact ⟨_, _, rfl, id⟩
  unfold LlmSettings.clearDefaults
  refine h.map (fun s _ => ?_) (fun s _ => ?_) (fun s _ => ?_) ?_
  · obtain ⟨_, _, heq, -⟩ := hfields s
    rw [heq]
  · obtain ⟨_, _, heq, -⟩ := hfields s
    rw [heq]
    rfl
  · obtain ⟨_, _, heq, -⟩ := hfields s
    rw [heq]
  · unfold OneDefault
    rw [List.pairwise_map]
    refine (oneDefault_iff.mp h.default).imp fun {s t} hpair hs ht => ?_
    obtain ⟨_, _, heq, hdefault⟩ := hfields s
    obtain ⟨_, _, heq', hdefault'⟩ := hfields t
    rw [heq] at hs ⊢
    rw [heq'] at ht ⊢
    exact hpair (hdefault hs) (hdefault' ht)

/-- Behind the bulk update no row of the principal is a default. -/
theorem not_default_of_mem_clearDefaults {env : Environment} {rows : Table} {p : Principal} {s : Setting}
    (h : s ∈ clearDefaults env rows p) (hp : s.principal = p) : s.isDefault = false := by
  obtain ⟨t, -, rfl⟩ := List.mem_map.mp h
  split
  · rfl
  · rename_i hnot
    rw [if_neg hnot] at hp
    rw [hp, beq_self_eq_true, Bool.true_and] at hnot
    exact Bool.eq_false_iff.mpr hnot

/-- A row may be written over one of the same principal and provider, if no other row of the principal is a
    default beside it. -/
theorem Constraints.write {rows : Table} (h : Constraints rows) {old row : Setting} (hold : old ∈ rows)
    (hid : row.id = old.id) (hprincipal : row.principal = old.principal)
    (hprovider : row.provider = old.provider)
    (hdefault : row.isDefault = true →
      ∀ s ∈ rows, s.principal = row.principal → s.isDefault = true → s.id = row.id) :
    Constraints (write rows row) := by
  have hsame : ∀ s ∈ rows, s.id = row.id → s = old := fun s hs heq => h.eq_of_id hs hold (heq.trans hid)
  unfold LlmSettings.write
  refine h.map (fun s hs => ?_) (fun s hs => ?_) (fun s hs => ?_) ?_
  · split
    · rename_i heq
      exact heq.symm
    · rfl
  · split
    · rename_i heq
      rw [hsame s hs heq, hprincipal]
    · rfl
  · split
    · rename_i heq
      rw [hsame s hs heq, hprovider]
    · rfl
  · unfold OneDefault
    rw [List.pairwise_map]
    have hids : rows.Pairwise fun s t => s.id ≠ t.id := List.pairwise_map.mp h.key
    refine List.Pairwise.imp_of_mem ?_ ((oneDefault_iff.mp h.default).and hids)
    rintro s t hs ht ⟨hpair, hne⟩
    by_cases hsid : s.id = row.id
    · have htid : t.id ≠ row.id := fun heq => hne (hsid.trans heq.symm)
      rw [if_pos hsid, if_neg htid]
      exact fun hrow htdefault heq => htid (hdefault hrow t ht heq.symm htdefault)
    · rw [if_neg hsid]
      by_cases htid : t.id = row.id
      · rw [if_pos htid]
        exact fun hsdefault hrow heq => hsid (hdefault hrow s hs heq hsdefault)
      · rw [if_neg htid]
        exact hpair

/-- A row may be added if its id and its provider are new, and if it is no second default. -/
theorem Constraints.append {rows : Table} (h : Constraints rows) {row : Setting}
    (hid : ∀ s ∈ rows, s.id ≠ row.id)
    (hprovider : ∀ s ∈ rows, s.principal = row.principal → s.provider ≠ row.provider)
    (hdefault : row.isDefault = true → ∀ s ∈ rows, s.principal ≠ row.principal) :
    Constraints (rows ++ [row]) where
  key := by
    rw [List.map_append, List.map_singleton, ← List.concat_eq_append, List.nodup_concat]
    refine ⟨fun hmem => ?_, h.key⟩
    obtain ⟨s, hs, heq⟩ := List.mem_map.mp hmem
    exact hid s hs heq
  provider := by
    rw [List.map_append, List.map_singleton, ← List.concat_eq_append, List.nodup_concat]
    refine ⟨fun hmem => ?_, h.provider⟩
    obtain ⟨s, hs, heq⟩ := List.mem_map.mp hmem
    obtain ⟨hp, hname⟩ := Prod.mk.inj heq
    exact hprovider s hs hp hname
  default := by
    rw [List.filter_append, List.filter_singleton, List.map_append]
    cases hrow : row.isDefault with
    | false =>
      rw [cond_false, List.map_nil, List.append_nil]
      exact h.default
    | true =>
      rw [cond_true, List.map_singleton, ← List.concat_eq_append, List.nodup_concat]
      refine ⟨fun hmem => ?_, h.default⟩
      obtain ⟨s, hs, heq⟩ := List.mem_map.mp hmem
      exact hdefault hrow s (List.mem_filter.mp hs).1 heq

/-- Two defaults of one principal are one row. -/
theorem Constraints.eq_of_default {rows : Table} (h : Constraints rows) {s t : Setting} (hs : s ∈ rows)
    (ht : t ∈ rows) (hsdefault : s.isDefault = true) (htdefault : t.isDefault = true)
    (hp : s.principal = t.principal) : s = t :=
  List.inj_on_of_nodup_map h.default (List.mem_filter.mpr ⟨hs, hsdefault⟩)
    (List.mem_filter.mpr ⟨ht, htdefault⟩) hp

/-- The table of every run: the constraints hold, and whoever has a provider has a default. -/
structure Consistent (table : Table) : Prop where
  constraints : Constraints table
  default : ∀ p, settingQuery table p ≠ [] → ∃ s ∈ settingQuery table p, s.isDefault = true

/-- The database has no reason of its own to reject the call: it takes the transaction, and the id it
    gives to a new row is new. -/
structure Undisturbed (table : Table) (call : Call) : Prop where
  consistent : Consistent table
  takes : call.env.takes = true
  fresh : ∀ s ∈ table, s.id ≠ call.env.rowId

/-- **A call violates no constraint.** -/
theorem Effect.constraints {call : Call} {table table' : Table} (h : Effect config call table table')
    (hcall : Undisturbed table call) : Constraints table' := by
  have htable := hcall.consistent.constraints
  cases h with
  | unchanged => exact htable
  | @inserted row hnone hid hp hdefault _ _ =>
    refine htable.append (fun s hs => hid ▸ hcall.fresh s hs) (fun s hs hsp hname => ?_) fun hrow s hs hsp => ?_
    · have hmem : s ∈ settingQuery table call.principal := mem_settingQuery.mpr ⟨hs, hsp.trans hp⟩
      exact List.find?_eq_none.mp hnone s hmem (beq_iff_eq.mpr hname)
    · have hmem : s ∈ settingQuery table call.principal := mem_settingQuery.mpr ⟨hs, hsp.trans hp⟩
      rw [hrow, eq_comm, List.isEmpty_iff] at hdefault
      rw [hdefault] at hmem
      exact absurd hmem List.not_mem_nil
  | @updated old row hold hid hp hprovider hdefault _ _ =>
    -- the row is a default if it was one before, and that was the only one
    obtain ⟨hmem, -⟩ := mem_settingQuery.mp hold
    refine htable.write hmem hid hp hprovider fun hrow s hs hsp hsdefault => ?_
    rw [hid, htable.eq_of_default hs hmem hsdefault (hdefault ▸ hrow) (hsp.trans hp)]
  | @deleted old _ _ => exact htable.without old
  | @replaced old heir hold hdefault hheir =>
    obtain ⟨hmem, hprincipal⟩ := mem_settingQuery.mp hold
    obtain ⟨hheirMem, hheirPrincipal⟩ := mem_settingQuery.mp hheir
    refine (htable.without old).write hheirMem rfl rfl rfl fun _ s hs hsp hsdefault => ?_
    -- the default was the row that is gone
    obtain ⟨hsmem, hne⟩ := mem_without.mp hs
    have hsame : s.principal = old.principal := hsp.trans (hheirPrincipal.trans hprincipal.symm)
    exact absurd (congrArg Setting.id (htable.eq_of_default hsmem hmem hsdefault hdefault hsame)) hne
  | @selected setting hsetting =>
    obtain ⟨hmem, hprincipal⟩ := mem_settingQuery.mp hsetting
    obtain ⟨t, ht, hid⟩ := exists_mem_clearDefaults call.env call.principal hmem
    obtain ⟨t', ht', hid', hp', -, -, hprovider', -⟩ := mem_clearDefaults ht
    obtain rfl := htable.eq_of_id ht' hmem (hid'.symm.trans hid)
    -- the bulk update has left the principal no other default
    refine (htable.clearDefaults call.env call.principal).write ht hid.symm hp'.symm hprovider'.symm
      fun _ s hs hsp hsdefault => ?_
    rw [not_default_of_mem_clearDefaults hs (hsp.trans hprincipal)] at hsdefault
    cases hsdefault

/-! ## How a call ends -/

/-- What a call may leave behind. -/
def Leaves (config : LlmConfig) (call : Call) (table table' : Table) : Prop :=
  Effect config call table table' ∧ (Constraints table → Constraints table')

/-- An accepted call has an effect of its own; a rejected one leaves the committed table, and it was not for
    a constraint. -/
inductive Outcome (config : LlmConfig) (call : Call) (table : Table) : Reply → Prop
  | accepted {session : Session} :
      Leaves config call table session.committed → Outcome config call table (none, session)
  | rejected {rejection : Rejection} {session : Session} :
      session.committed = table → (rejection = .databaseError → ¬ Undisturbed table call) →
      Outcome config call table (some rejection, session)

theorem flush_outcome {call : Call} {session : Session} {table rows : Table} {andThen : Session → Reply}
    (hsession : session.committed = table) (hrows : Undisturbed table call → Constraints rows)
    (hthen : Outcome config call table (andThen ⟨session.committed, rows⟩)) :
    Outcome config call table (flush session rows andThen) := by
  unfold flush
  split
  · exact hthen
  · rename_i hviolated
    exact .rejected hsession fun _ hcall => hviolated (hrows hcall)

theorem commit_outcome {call : Call} {session : Session} {table rows : Table}
    (hsession : session.committed = table) (heffect : Effect config call table rows) :
    Outcome config call table (commit call.env session rows) := by
  unfold commit flush
  split
  · rename_i hrows
    split
    · exact .accepted ⟨heffect, fun _ => hrows⟩
    · rename_i htakes
      exact .rejected hsession fun _ hcall => htakes hcall.takes
  · rename_i hviolated
    exact .rejected hsession fun _ hcall => hviolated (heffect.constraints hcall)

theorem upsert_outcome (call : Call) (table : Table) (provider : PyStr) (apiKey model : Option PyStr) :
    Outcome config call table
      (upsertProviderSetting config call.env ⟨table, table⟩ call.principal provider apiKey model) := by
  unfold upsertProviderSetting
  cases hdefinition : (supportedLlmProviders config).lookup provider with
  | none => exact .rejected rfl fun h => by cases h
  | some definition =>
    dsimp only
    rcases checkUpdate_cases definition (getProviderSetting table call.principal provider)
      (apiKey.map PyStr.strip) model with ⟨message, hcheck⟩ | ⟨hcheck, hmodel⟩
    · rw [hcheck]
      exact .rejected rfl fun h => by cases h
    rw [hcheck]
    dsimp only
    cases hsetting : getProviderSetting table call.principal provider with
    | none =>
      rw [hsetting] at hmodel
      dsimp only
      rcases encryptApiKey_cases call.env ((apiKey.map PyStr.strip).getD []) with
        ⟨encrypted, hencrypt⟩ | ⟨rejection, hencrypt, hrejection⟩
      · rw [hencrypt]
        exact commit_outcome rfl (.inserted hsetting rfl rfl rfl rfl ⟨definition, hdefinition, hmodel⟩)
      · rw [hencrypt]
        exact .rejected rfl fun h => absurd h hrejection
    | some old =>
      rw [hsetting] at hmodel
      dsimp only
      rcases withKey_cases call.env old (apiKey.map PyStr.strip) with
        ⟨encrypted, hint, hkey⟩ | ⟨rejection, hkey, hrejection⟩
      · obtain ⟨hold, hprovider⟩ := of_getProviderSetting hsetting
        rw [← hprovider] at hdefinition
        rw [hkey]
        exact commit_outcome rfl (.updated hold rfl rfl rfl rfl rfl ⟨definition, hdefinition, hmodel⟩)
      · rw [hkey]
        exact .rejected rfl fun h => absurd h hrejection

theorem delete_outcome (call : Call) (table : Table) (provider : PyStr) :
    Outcome config call table
      (deleteProviderSetting config call.env ⟨table, table⟩ call.principal provider) := by
  unfold deleteProviderSetting
  dsimp only
  cases hsetting : getProviderSetting table call.principal provider with
  | none => exact .accepted ⟨.unchanged, id⟩
  | some old =>
    obtain ⟨hold, -⟩ := of_getProviderSetting hsetting
    refine flush_outcome rfl (fun hcall => hcall.consistent.constraints.without old) ?_
    by_cases hdefault : old.isDefault = true
    · simp only [if_pos hdefault]
      cases hheir : preferredSetting config (listProviderSettings (without table old) call.principal) with
      | none =>
        exact commit_outcome rfl (.deleted hold (.inr (settingQuery_of_preferredSetting hheir)))
      | some heir =>
        have hmem := mem_listProviderSettings.mp (mem_of_preferredSetting hheir)
        exact commit_outcome rfl (.replaced hold hdefault hmem)
    · rw [if_neg hdefault]
      exact commit_outcome rfl (.deleted hold (.inl (Bool.eq_false_iff.mpr hdefault)))

theorem setDefault_outcome (call : Call) (table : Table) (provider : PyStr) :
    Outcome config call table
      (setDefaultProvider call.env ⟨table, table⟩ call.principal provider) := by
  unfold setDefaultProvider
  dsimp only
  cases hsetting : getProviderSetting table call.principal provider with
  | none => exact .rejected rfl fun h => by cases h
  | some setting =>
    obtain ⟨hmem, -⟩ := of_getProviderSetting hsetting
    exact flush_outcome rfl (fun hcall => hcall.consistent.constraints.clearDefaults call.env call.principal)
      (commit_outcome rfl (.selected hmem))

/-- **What a call leaves behind**: an effect of its own if it is accepted, the table as it was if not. -/
theorem reply_outcome (table : Table) (call : Call) :
    Outcome config call table (reply config table call) := by
  unfold reply
  cases call.request with
  | upsert provider apiKey model => exact upsert_outcome call table provider apiKey model
  | delete provider => exact delete_outcome call table provider
  | setDefault provider => exact setDefault_outcome call table provider

/-! ## One default -/

/-- **A call leaves the rows of the other principals.** -/
theorem Effect.frame {call : Call} {table table' : Table} (h : Effect config call table table')
    (htable : Constraints table) {q : Principal} (hq : q ≠ call.principal) :
    settingQuery table' q = settingQuery table q := by
  cases h with
  | unchanged => rfl
  | @inserted row _ _ hp _ _ _ =>
    have hrow : (row.principal == q) = false := by
      rw [hp, beq_eq_false_iff_ne]
      exact fun h => hq h.symm
    unfold settingQuery
    rw [List.filter_append, List.filter_singleton, hrow, cond_false, List.append_nil]
  | @updated old row hold hid hp _ _ _ _ =>
    obtain ⟨hmem, hprincipal⟩ := mem_settingQuery.mp hold
    refine settingQuery_write (fun s hs heq => ?_) ?_
    · rw [htable.eq_of_id hs hmem (heq.trans hid), hp]
    · rwa [hp, hprincipal]
  | @deleted old hold _ =>
    obtain ⟨hmem, hprincipal⟩ := mem_settingQuery.mp hold
    refine settingQuery_without (fun s hs heq => ?_) ?_
    · rw [htable.eq_of_id hs hmem heq]
    · rwa [hprincipal]
  | @replaced old heir hold _ hheir =>
    obtain ⟨hmem, hprincipal⟩ := mem_settingQuery.mp hold
    obtain ⟨hheirMem, hheirPrincipal⟩ := mem_settingQuery.mp hheir
    refine (settingQuery_write (fun s hs heq => ?_) ?_).trans
      (settingQuery_without (fun s hs heq => ?_) ?_)
    · rw [htable.eq_of_id (mem_without.mp hs).1 (mem_without.mp hheirMem).1 heq]
      rfl
    · exact fun h => hq (h.trans hheirPrincipal)
    · rw [htable.eq_of_id hs hmem heq]
    · rwa [hprincipal]
  | @selected setting hsetting =>
    obtain ⟨hmem, hprincipal⟩ := mem_settingQuery.mp hsetting
    refine (settingQuery_write (fun s hs heq => ?_) ?_).trans (settingQuery_clearDefaults _ hq)
    · obtain ⟨t, ht, hid, hp, -⟩ := mem_clearDefaults hs
      rw [hp, htable.eq_of_id ht hmem (hid.symm.trans heq)]
      rfl
    · exact fun h => hq (h.trans hprincipal)

/-- **Whoever has a provider has a default**, also behind the call. -/
theorem Effect.exists_default {call : Call} {table table' : Table} (h : Effect config call table table')
    (htable : Consistent table) (hsome : settingQuery table' call.principal ≠ []) :
    ∃ s ∈ settingQuery table' call.principal, s.isDefault = true := by
  have hkey := htable.constraints
  cases h with
  | unchanged => exact htable.default _ hsome
  | @inserted row _ _ hp hdefault _ _ =>
    -- the first row of a principal is its default, for any other one there is a default already
    cases hempty : settingQuery table call.principal with
    | nil =>
      rw [hempty] at hdefault
      exact ⟨row, mem_settingQuery.mpr ⟨List.mem_append_right _ List.mem_cons_self, hp⟩, hdefault⟩
    | cons t rest =>
      obtain ⟨s, hs, hsdefault⟩ := htable.default call.principal (by rw [hempty]; exact List.cons_ne_nil _ _)
      obtain ⟨hmem, hsp⟩ := mem_settingQuery.mp hs
      exact ⟨s, mem_settingQuery.mpr ⟨List.mem_append_left _ hmem, hsp⟩, hsdefault⟩
  | @updated old row hold hid hp _ hdefault _ _ =>
    obtain ⟨hmem, hprincipal⟩ := mem_settingQuery.mp hold
    obtain ⟨s, hs, hsdefault⟩ := htable.default call.principal (List.ne_nil_of_mem hold)
    obtain ⟨hsmem, hsp⟩ := mem_settingQuery.mp hs
    by_cases hsid : s.id = row.id
    · -- the default is the row that was changed
      obtain rfl : s = old := hkey.eq_of_id hsmem hmem (hsid.trans hid)
      refine ⟨row, mem_settingQuery.mpr ⟨mem_write.mpr (.inl ⟨rfl, s, hsmem, hsid⟩), ?_⟩, ?_⟩
      · rw [hp, hsp]
      · rw [hdefault, hsdefault]
    · exact ⟨s, mem_settingQuery.mpr ⟨mem_write.mpr (.inr ⟨hsmem, hsid⟩), hsp⟩, hsdefault⟩
  | @deleted old hold hcase =>
    -- the row was no default, or the last one of the principal
    rcases hcase with hdefault | hnone
    · obtain ⟨hmem, -⟩ := mem_settingQuery.mp hold
      obtain ⟨s, hs, hsdefault⟩ := htable.default call.principal (List.ne_nil_of_mem hold)
      obtain ⟨hsmem, hsp⟩ := mem_settingQuery.mp hs
      refine ⟨s, mem_settingQuery.mpr ⟨mem_without.mpr ⟨hsmem, fun heq => ?_⟩, hsp⟩, hsdefault⟩
      rw [hkey.eq_of_id hsmem hmem heq, hdefault] at hsdefault
      cases hsdefault
    · exact absurd hnone hsome
  | @replaced old heir hold _ hheir =>
    obtain ⟨hmem, hprincipal⟩ := mem_settingQuery.mp hheir
    exact ⟨_, mem_settingQuery.mpr ⟨mem_write.mpr (.inl ⟨rfl, heir, hmem, rfl⟩), hprincipal⟩, rfl⟩
  | @selected setting hsetting =>
    obtain ⟨hmem, hprincipal⟩ := mem_settingQuery.mp hsetting
    obtain ⟨t, ht, hid⟩ := exists_mem_clearDefaults call.env call.principal hmem
    exact ⟨_, mem_settingQuery.mpr ⟨mem_write.mpr (.inl ⟨rfl, t, ht, hid⟩), hprincipal⟩, rfl⟩

theorem Leaves.consistent {call : Call} {table table' : Table} (h : Leaves config call table table')
    (htable : Consistent table) : Consistent table' where
  constraints := h.2 htable.constraints
  default := fun p hsome => by
    by_cases hp : p = call.principal
    · subst hp
      exact h.1.exists_default htable hsome
    · have hframe := h.1.frame htable.constraints hp
      rw [hframe] at hsome ⊢
      exact htable.default p hsome

/-- What an accepted call leaves behind, and what a rejected one does. -/
theorem after_cases (config : LlmConfig) (table : Table) (call : Call) :
    ((reply config table call).1 = none ∧ Leaves config call table (after config table call)) ∨
      (∃ rejection, (reply config table call).1 = some rejection) ∧ after config table call = table := by
  have houtcome : Outcome config call table (reply config table call) := reply_outcome table call
  unfold after
  generalize reply config table call = answer at houtcome
  cases houtcome with
  | accepted hleaves => exact .inl ⟨rfl, hleaves⟩
  | rejected htable _ => exact .inr ⟨⟨_, rfl⟩, htable⟩

theorem consistent_after {table : Table} (htable : Consistent table) (call : Call) :
    Consistent (after config table call) := by
  rcases after_cases config table call with ⟨-, hleaves⟩ | ⟨-, hsame⟩
  · exact hleaves.consistent htable
  · rwa [hsame]

theorem run_append (calls : List Call) (call : Call) :
    run config (calls ++ [call]) = after config (run config calls) call := by
  unfold run
  rw [List.foldl_append, List.foldl_cons, List.foldl_nil]

/-- **Every run is consistent.** -/
theorem consistent_run (config : LlmConfig) (calls : List Call) : Consistent (run config calls) := by
  induction calls using List.reverseRecOn with
  | nil =>
    refine ⟨⟨List.nodup_nil, List.nodup_nil, List.nodup_nil⟩, fun p hsome => absurd rfl hsome⟩
  | append_singleton calls call ih =>
    rw [run_append]
    exact consistent_after ih call

/-- Rows of one principal that differ in what the constraint covers are few. -/
theorem countP_le_one {table : Table} {κ : Type} [DecidableEq κ] {test : Setting → Bool} {f : Setting → κ}
    (hnodup : ((table.filter test).map f).Nodup) (k : κ) :
    table.countP (fun s => test s && f s == k) ≤ 1 := by
  have hcount := List.nodup_iff_count_le_one.mp hnodup k
  rw [List.count, List.countP_map, List.countP_filter] at hcount
  refine le_trans (le_of_eq (List.countP_congr fun s _ => ?_)) hcount
  rw [Function.comp_apply, Bool.and_comm]

theorem Consistent.one_default {table : Table} (h : Consistent table) {p : Principal}
    (hsome : settingQuery table p ≠ []) : (settingQuery table p).countP Setting.isDefault = 1 := by
  obtain ⟨s, hs, hdefault⟩ := h.default p hsome
  have hpos : 0 < (settingQuery table p).countP Setting.isDefault := List.countP_pos_iff.mpr ⟨s, hs, hdefault⟩
  have hle := countP_le_one h.constraints.default p
  unfold settingQuery at hpos ⊢
  rw [List.countP_filter] at hpos ⊢
  omega

theorem Consistent.one_per_provider {table : Table} (h : Consistent table) (p : Principal)
    (provider : PyStr) : (settingQuery table p).countP (fun s => s.provider == provider) ≤ 1 := by
  have hnodup := h.constraints.provider
  rw [← List.filter_true table] at hnodup
  have hle := countP_le_one hnodup (p, provider)
  unfold settingQuery
  rw [List.countP_filter]
  refine le_trans (le_of_eq (List.countP_congr fun s _ => ?_)) hle
  simp [and_comm]

/-- **The default invariant**, behind every sequence of calls: whoever has a provider has exactly one
    default, no provider is configured twice, a rejected call changes nothing, and a call leaves the rows
    of everybody else. -/
theorem settings_default_invariant (config : LlmConfig) (calls : List Call) :
    (∀ p, settingQuery (run config calls) p ≠ [] →
        (settingQuery (run config calls) p).countP Setting.isDefault = 1) ∧
      (∀ p provider, (settingQuery (run config calls) p).countP (fun s => s.provider == provider) ≤ 1) ∧
        ∀ call, ((reply config (run config calls) call).1 ≠ none →
            run config (calls ++ [call]) = run config calls) ∧
          ∀ q, q ≠ call.principal →
            settingQuery (run config (calls ++ [call])) q = settingQuery (run config calls) q := by
  have hrun := consistent_run config calls
  refine ⟨fun p hsome => hrun.one_default hsome, hrun.one_per_provider, fun call => ⟨fun hrejected => ?_,
    fun q hq => ?_⟩⟩
  · rw [run_append]
    rcases after_cases config (run config calls) call with ⟨haccepted, -⟩ | ⟨-, hsame⟩
    · exact absurd haccepted hrejected
    · exact hsame
  · rw [run_append]
    rcases after_cases config (run config calls) call with ⟨-, hleaves⟩ | ⟨-, hsame⟩
    · exact hleaves.1.frame hrun.constraints hq
    · rw [hsame]

/-- **The constraints never stand in the way**: a transaction that the database takes, with a new id for a
    new row, is never rejected by it. -/
theorem reply_ne_databaseError (config : LlmConfig) (calls : List Call) (call : Call)
    (htakes : call.env.takes = true) (hfresh : ∀ s ∈ run config calls, s.id ≠ call.env.rowId) :
    (reply config (run config calls) call).1 ≠ some .databaseError := by
  have houtcome : Outcome config call (run config calls) (reply config (run config calls) call) :=
    reply_outcome _ call
  generalize reply config (run config calls) call = answer at houtcome
  intro hanswer
  cases houtcome with
  | accepted _ => cases hanswer
  | rejected _ hrejection =>
    cases hanswer
    exact hrejection rfl ⟨consistent_run config calls, htakes, hfresh⟩

end FinancialRag.Services.LlmSettings
