/-
  The settings a request runs with (`get_runtime_llm_settings`), and the revision under which its answers
  are cached.
-/
import FinancialRag.Services.LlmSettings

set_option linter.unusedVariables false

namespace FinancialRag.Services.LlmSettings

open Cache (Principal Sha256)

structure ProviderConfig where
  apiKey : PyStr
  baseUrl : Option PyStr
  deriving DecidableEq

structure RuntimeLLMSettings where
  providerConfigs : Dict PyStr ProviderConfig
  providerModels : Dict PyStr PyStr
  defaultProvider : Option PyStr
  revision : PyStr

section Runtime

-- `decryptApiKey` is `_decrypt_api_key` with the keys of the deployment
variable (config : LlmConfig) (decryptApiKey : PyStr → Except Rejection PyStr) (py : PyRuntime) (sha : Sha256)

/-- The rows of a principal whose provider is still supported. -/
def supportedSettings (table : Table) (p : Principal) : List Setting :=
  (listProviderSettings table p).filter fun s => ((supportedLlmProviders config).lookup s.provider).isSome

/-- `provider_config` of a row, under its provider. -/
def providerConfig (s : Setting) : Except Rejection (PyStr × ProviderConfig) :=
  let definition := (supportedLlmProviders config).lookup s.provider
  (decryptApiKey s.encryptedApiKey).map fun apiKey =>
    (s.provider, ⟨apiKey, (definition.bind ProviderDefinition.baseUrl).filter fun url => !url.isEmpty⟩)

def member (name : String) (v : Json) : PyStr × Json := (PyStr.ofString name, v)

/-- The entry of a row in `revision_records`. -/
def revisionRecord (s : Setting) : Json :=
  .object [member "id" (.int s.id), member "provider" (.string s.provider), member "model" (.string s.model),
    member "revision" (.string s.revision.text), member "is_default" (.bool s.isDefault),
    member "updated_at" (.string s.updatedAt.isoformat)]

/-- `sort_keys=True, separators=(",", ":")`. -/
def compactStyle : JsonStyle := ⟨",", ":", true⟩

/-- `default_provider`: the one that was chosen, the one of the deployment, or the first one. -/
def defaultProvider (explicitDefault : Option PyStr) (providerConfigs : Dict PyStr ProviderConfig) :
    Option PyStr :=
  explicitDefault.or
    (if config.llmProvider ∈ providerConfigs.keys then some config.llmProvider
    else providerConfigs.keys.head?)

/-- `get_runtime_llm_settings`; `none`: it raises. -/
def getRuntimeLlmSettings (table : Table) (p : Principal) : Option RuntimeLLMSettings :=
  let settings := supportedSettings config table p
  ((settings.mapM (providerConfig config decryptApiKey)).toOption).bind fun configs =>
    ((Json.dumpsAscii py compactStyle (.array (settings.map revisionRecord))).toOption).map fun text =>
      let providerConfigs := Dict.ofList configs
      { providerConfigs := providerConfigs
        providerModels := Dict.ofList (settings.map fun s => (s.provider, s.model))
        defaultProvider :=
          defaultProvider config ((settings.find? Setting.isDefault).map Setting.provider) providerConfigs
        revision := sha.hexdigest text }

end Runtime

/-! ## The text of the records -/

/-- What a record holds, in the order in which it is written. -/
abbrev RecordFields := Int × Bool × PyStr × PyStr × PyStr × PyStr

def recordFields (s : Setting) : RecordFields :=
  (s.id, s.isDefault, s.model, s.provider, s.revision.text, s.updatedAt.isoformat)

def boolText (b : Bool) : PyStr := PyStr.ofString (if b then "true" else "false")

/-- A key and the colon behind it. -/
def keyText (name : String) : PyStr := Json.quote (PyStr.ofString name) ++ [':'.codePoint]

/-- A key behind another member. -/
def nextKey (name : String) : PyStr := ','.codePoint :: keyText name

/-- The text of a record: numbers end at the comma, strings at their quotation mark. -/
def recordText : RecordFields → PyStr := fun record =>
  (('\x7b'.codePoint :: keyText "id") ++ (PyStr.ofInt record.1 ++ [','.codePoint]) ++
    ((keyText "is_default" ++ boolText record.2.1) ++
      ((nextKey "model" ++ Json.quote record.2.2.1) ++
        ((nextKey "provider" ++ Json.quote record.2.2.2.1) ++
          ((nextKey "revision" ++ Json.quote record.2.2.2.2.1) ++
            (nextKey "updated_at" ++ Json.quote record.2.2.2.2.2)))))) ++ ['\x7d'.codePoint]

theorem int_terminated : PrefixCode fun n : Int => PyStr.ofInt n ++ [','.codePoint] := by
  exact .terminated PyStr.ofInt_injective fun n => PyStr.notMem_ofInt (by decide) (by decide) n

theorem boolText_prefixCode : PrefixCode boolText := by
  intro a b rest rest' heq
  cases a with
  | true =>
    cases b with
    | true => exact ⟨rfl, List.append_cancel_left heq⟩
    | false => exact absurd (List.cons.inj heq).1 (by decide)
  | false =>
    cases b with
    | true => exact absurd (List.cons.inj heq).1 (by decide)
    | false => exact ⟨rfl, List.append_cancel_left heq⟩

/-- **A record can be read off the front.** -/
theorem recordText_prefixCode : PrefixCode recordText := by
  have hstring : ∀ name, PrefixCode fun s : PyStr => nextKey name ++ Json.quote s := fun name =>
    Json.quote_prefixCode.word_append (nextKey name)
  exact ((int_terminated.word_append _).pair ((boolText_prefixCode.word_append _).pair
    ((hstring "model").pair ((hstring "provider").pair
      ((hstring "revision").pair (hstring "updated_at")))))).append_word ['\x7d'.codePoint]

theorem arrange_record (a b c d e f : PyStr) :
    Json.arrange compactStyle [(PyStr.ofString "id", a), (PyStr.ofString "provider", b),
        (PyStr.ofString "model", c), (PyStr.ofString "revision", d), (PyStr.ofString "is_default", e),
        (PyStr.ofString "updated_at", f)] =
      [(PyStr.ofString "id", a), (PyStr.ofString "is_default", e), (PyStr.ofString "model", c),
        (PyStr.ofString "provider", b), (PyStr.ofString "revision", d), (PyStr.ofString "updated_at", f)] :=
  rfl

theorem text_revisionRecord (py : PyRuntime) (s : Setting) :
    Json.text py compactStyle (revisionRecord s) = recordText (recordFields s) := by
  have hbool : Json.text py compactStyle (.bool s.isDefault) = boolText s.isDefault := by
    cases s.isDefault with
    | true => rfl
    | false => rfl
  have hint : Json.text py compactStyle (.int s.id) = PyStr.ofInt s.id := rfl
  have hstring : ∀ t, Json.text py compactStyle (.string t) = Json.quote t := fun _ => rfl
  have hcolon : PyStr.ofString compactStyle.keySeparator = [':'.codePoint] := by decide
  have hcomma : PyStr.ofString compactStyle.itemSeparator = [','.codePoint] := by decide
  unfold revisionRecord recordText recordFields
  rw [Json.text, Json.textMembers_eq]
  simp only [List.map_cons, List.map_nil, member]
  rw [arrange_record]
  simp only [List.map_cons, List.map_nil, Json.member, Json.bracketed, hcolon, hcomma,
    PrefixCode.intercalate_cons, List.flatMap_cons, List.flatMap_nil, hint, hstring, hbool, keyText, nextKey,
    List.append_assoc, List.cons_append, List.nil_append, List.append_nil]

/-- **The text determines the records.** -/
theorem recordFields_eq_of_text {py : PyRuntime} {settings settings' : List Setting}
    (h : Json.text py compactStyle (.array (settings.map revisionRecord)) =
      Json.text py compactStyle (.array (settings'.map revisionRecord))) :
    settings.map recordFields = settings'.map recordFields := by
  have hcomma : PyStr.ofString compactStyle.itemSeparator = [','.codePoint] := by decide
  have htext : ∀ settings : List Setting, Json.text py compactStyle (.array (settings.map revisionRecord)) =
      '['.codePoint ::
        ([','.codePoint].intercalate ((settings.map recordFields).map recordText) ++ [']'.codePoint]) := by
    intro settings
    rw [Json.text, Json.textItems_eq, Json.bracketed, hcomma, List.map_map, List.map_map, List.cons_append]
    simp only [Function.comp_def, text_revisionRecord]
  have hitems : PrefixCode fun records : List RecordFields =>
      [','.codePoint].intercalate (records.map recordText) ++ [']'.codePoint] := by
    refine recordText_prefixCode.items (by decide) fun record rest hhead => ?_
    exact absurd (Option.some.inj hhead) (by decide)
  rw [htext, htext] at h
  exact hitems.injective (List.cons.inj h).2

theorem printable_text {py : PyRuntime} {settings : List Setting}
    (h : ∀ s ∈ settings, s.provider.all printableAscii = true ∧ s.model.all printableAscii = true) :
    (Json.text py compactStyle (.array (settings.map revisionRecord))).all printableAscii = true := by
  have hstyle : Json.JsonStyle.Printable compactStyle := by
    constructor
    · decide
    · decide
  have hescaped : ∀ s : PyStr, s.all printableAscii = true → s.all (Json.escapedOr printableAscii) = true := by
    intro s hs
    rw [List.all_eq_true] at hs ⊢
    intro c hc
    rw [Json.escapedOr, hs c hc, Bool.or_true]
  have hstring : ∀ t : PyStr, t.all printableAscii = true → Json.everywhere
      (fun u => u.texts.all fun s => s.all (Json.escapedOr printableAscii)) (.string t) = true := by
    intro t ht
    show ([t].all fun s => s.all (Json.escapedOr printableAscii)) = true
    rw [List.all_cons, hescaped t ht]
    rfl
  rw [Json.all_text (fun _ => id) hstyle, Json.everywhere_array]
  refine ⟨rfl, fun v hv => ?_⟩
  obtain ⟨s, hs, rfl⟩ := List.mem_map.mp hv
  obtain ⟨hprovider, hmodel⟩ := h s hs
  rw [revisionRecord, Json.everywhere_object]
  constructor
  · show (["id", "provider", "model", "revision", "is_default", "updated_at"].map PyStr.ofString).all
      (fun s => s.all (Json.escapedOr printableAscii)) = true
    decide
  · simp only [member, List.forall_mem_cons]
    exact ⟨rfl, hstring _ hprovider, hstring _ hmodel, hstring _ s.revision.printable, rfl,
      hstring _ s.updatedAt.printable, fun m hm => absurd hm List.not_mem_nil⟩

/-- What the dump of printable records is. -/
theorem dumpsAscii_eq_ok {py : PyRuntime} {settings : List Setting} {text : PyStr}
    (hprintable : ∀ s ∈ settings, s.provider.all printableAscii = true ∧ s.model.all printableAscii = true)
    (h : Json.dumpsAscii py compactStyle (.array (settings.map revisionRecord)) = .ok text) :
    text = Json.text py compactStyle (.array (settings.map revisionRecord)) := by
  unfold Json.dumpsAscii Json.dumps at h
  split at h
  · cases h
  split at h
  · cases h
  · cases h
    exact Json.flatMap_escapeNonAscii (printable_text hprintable)

/-! ## A revision has one key -/

variable {config : LlmConfig}

/-- **What a call does to a row**: the row was there, with this revision and key, or it has the revision of
    the call, and all such rows have the same key. -/
theorem Effect.keys {call : Call} {table table' : Table} (h : Effect config call table table') :
    ∃ key, ∀ s ∈ table', (∃ t ∈ table, s.revision = t.revision ∧ s.encryptedApiKey = t.encryptedApiKey) ∨
      (s.revision = call.env.uuid ∧ s.encryptedApiKey = key) := by
  cases h with
  | unchanged => exact ⟨[], fun s hs => .inl ⟨s, hs, rfl, rfl⟩⟩
  | @inserted row _ _ _ _ hrevision _ =>
    refine ⟨row.encryptedApiKey, fun s hs => ?_⟩
    rcases List.mem_append.mp hs with hs | hs
    · exact .inl ⟨s, hs, rfl, rfl⟩
    · obtain rfl := List.mem_singleton.mp hs
      exact .inr ⟨hrevision, rfl⟩
  | @updated old row _ _ _ _ _ hrevision _ =>
    refine ⟨row.encryptedApiKey, fun s hs => ?_⟩
    rcases mem_write.mp hs with ⟨rfl, -⟩ | ⟨hs, -⟩
    · exact .inr ⟨hrevision, rfl⟩
    · exact .inl ⟨s, hs, rfl, rfl⟩
  | @deleted old _ _ => exact ⟨[], fun s hs => .inl ⟨s, (mem_without.mp hs).1, rfl, rfl⟩⟩
  | @replaced old heir _ _ _ =>
    refine ⟨heir.encryptedApiKey, fun s hs => ?_⟩
    rcases mem_write.mp hs with ⟨rfl, -⟩ | ⟨hs, -⟩
    · exact .inr ⟨rfl, rfl⟩
    · exact .inl ⟨s, (mem_without.mp hs).1, rfl, rfl⟩
  | @selected setting _ =>
    refine ⟨setting.encryptedApiKey, fun s hs => ?_⟩
    rcases mem_write.mp hs with ⟨rfl, -⟩ | ⟨hs, -⟩
    · exact .inr ⟨rfl, rfl⟩
    · obtain ⟨t, ht, -, -, hrevision, hkey, -⟩ := mem_clearDefaults hs
      exact .inl ⟨t, ht, hrevision, hkey⟩

/-- The revisions that these calls could give. -/
def uuids (calls : List Call) : List Uuid := calls.map fun call => call.env.uuid

/-- **One key per revision**, over the whole run, if no revision is given twice. -/
theorem exists_keyOf (config : LlmConfig) (calls : List Call) (hfresh : (uuids calls).Nodup) :
    ∃ keyOf : Uuid → PyStr, ∀ i, ∀ s ∈ run config (calls.take i),
      s.revision ∈ uuids calls ∧ s.encryptedApiKey = keyOf s.revision := by
  induction calls using List.reverseRecOn with
  | nil =>
    refine ⟨fun _ => [], fun i s hs => ?_⟩
    rw [List.take_nil] at hs
    exact absurd hs List.not_mem_nil
  | append_singleton calls call ih =>
    have huuids : uuids (calls ++ [call]) = uuids calls ++ [call.env.uuid] := List.map_append
    rw [huuids] at hfresh ⊢
    obtain ⟨hbefore, -, hdisjoint⟩ := List.nodup_append.mp hfresh
    have hnew : call.env.uuid ∉ uuids calls := fun hmem =>
      hdisjoint _ hmem _ (List.mem_singleton_self _) rfl
    obtain ⟨keyOf, hkeyOf⟩ := ih hbefore
    have hlast : ∀ s ∈ run config calls, s.revision ∈ uuids calls ∧ s.encryptedApiKey = keyOf s.revision := by
      intro s hs
      rw [← List.take_length (l := calls)] at hs
      exact hkeyOf _ s hs
    -- the key that goes with the revision of the last call
    obtain ⟨key, hkey⟩ : ∃ key, ∀ s ∈ after config (run config calls) call,
        (∃ t ∈ run config calls, s.revision = t.revision ∧ s.encryptedApiKey = t.encryptedApiKey) ∨
          (s.revision = call.env.uuid ∧ s.encryptedApiKey = key) := by
      rcases after_cases config (run config calls) call with ⟨-, hleaves⟩ | ⟨-, hsame⟩
      · exact hleaves.1.keys
      · exact ⟨[], fun s hs => .inl ⟨s, hsame ▸ hs, rfl, rfl⟩⟩
    have hold : ∀ s : Setting, s.revision ∈ uuids calls → s.encryptedApiKey = keyOf s.revision →
        s.revision ∈ uuids calls ++ [call.env.uuid] ∧
          s.encryptedApiKey = Function.update keyOf call.env.uuid key s.revision := by
      intro s hmem hs
      refine ⟨List.mem_append_left _ hmem, ?_⟩
      rw [Function.update_of_ne fun heq : s.revision = call.env.uuid => hnew (heq ▸ hmem), hs]
    refine ⟨Function.update keyOf call.env.uuid key, fun i s hs => ?_⟩
    -- a moment behind the last call, or one before it
    rcases Nat.lt_or_ge calls.length i with hi | hi
    · rw [List.take_of_length_le (by simp; omega), run_append] at hs
      rcases hkey s hs with ⟨t, ht, hrevision, hsame⟩ | ⟨hrevision, hsame⟩
      · obtain ⟨hmem, hkeyOf'⟩ := hlast t ht
        rw [← hrevision] at hmem hkeyOf'
        exact hold s hmem (hsame.trans hkeyOf')
      · -- the call has given its own revision away
        rw [hrevision, hsame, Function.update_self]
        exact ⟨List.mem_append_right _ (List.mem_singleton_self _), rfl⟩
    · rw [List.take_append_of_le_length hi] at hs
      obtain ⟨hmem, hs'⟩ := hkeyOf i s hs
      exact hold s hmem hs'

/-- The names of the providers and models, whatever the deployment. -/
def modelNames : List (PyStr × List PyStr) :=
  (supportedLlmProviders ⟨[], [], [], [], [], [], [], [], [], []⟩).map fun entry => (entry.1, entry.2.models)

theorem Supported.printable {provider model : PyStr} (h : Supported config provider model) :
    provider.all printableAscii = true ∧ model.all printableAscii = true := by
  have hnames : ((supportedLlmProviders config).map fun entry => (entry.1, entry.2.models)) = modelNames := rfl
  have hall : ∀ entry ∈ modelNames, entry.1.all printableAscii = true ∧
      ∀ name ∈ entry.2, name.all printableAscii = true := by decide +kernel
  obtain ⟨definition, hlookup, hmodel⟩ := h
  have hmem : (provider, definition.models) ∈ modelNames := by
    rw [← hnames]
    obtain ⟨pre, suf, hsplit, -⟩ := List.lookup_eq_some_iff.mp hlookup
    exact List.mem_map.mpr ⟨(provider, definition), by rw [hsplit]; simp, rfl⟩
  exact ⟨(hall _ hmem).1, (hall _ hmem).2 _ hmodel⟩

/-- A call writes supported providers and models only. -/
theorem Effect.supported {call : Call} {table table' : Table} (h : Effect config call table table')
    (htable : ∀ s ∈ table, Supported config s.provider s.model) :
    ∀ s ∈ table', Supported config s.provider s.model := by
  cases h with
  | unchanged => exact htable
  | @inserted row _ _ _ _ _ hsupported =>
    exact List.forall_mem_append.mpr ⟨htable, List.forall_mem_singleton.mpr hsupported⟩
  | @updated old row _ _ _ _ _ _ hsupported =>
    intro s hs
    rcases mem_write.mp hs with ⟨rfl, -⟩ | ⟨hs, -⟩
    · exact hsupported
    · exact htable s hs
  | @deleted old _ _ => exact fun s hs => htable s (mem_without.mp hs).1
  | @replaced old heir _ _ hheir =>
    intro s hs
    rcases mem_write.mp hs with ⟨rfl, -⟩ | ⟨hs, -⟩
    · exact htable heir (mem_without.mp (mem_settingQuery.mp hheir).1).1
    · exact htable s (mem_without.mp hs).1
  | @selected setting hsetting =>
    intro s hs
    rcases mem_write.mp hs with ⟨rfl, -⟩ | ⟨hs, -⟩
    · exact htable setting (mem_settingQuery.mp hsetting).1
    · obtain ⟨t, ht, -, -, -, -, hprovider, hmodel⟩ := mem_clearDefaults hs
      rw [hprovider, hmodel]
      exact htable t ht

theorem supported_run (config : LlmConfig) (calls : List Call) :
    ∀ s ∈ run config calls, Supported config s.provider s.model := by
  induction calls using List.reverseRecOn with
  | nil => exact fun s hs => absurd hs List.not_mem_nil
  | append_singleton calls call ih =>
    rw [run_append]
    rcases after_cases config (run config calls) call with ⟨-, hleaves⟩ | ⟨-, hsame⟩
    · exact hleaves.1.supported ih
    · rwa [hsame]

/-! ## What a revision identifies -/

/-- What the settings of a request depend on, of a row. -/
def rowView (s : Setting) : PyStr × PyStr × Bool × PyStr := (s.provider, s.model, s.isDefault, s.encryptedApiKey)

/-- Rows that agree on it give the same settings, up to the revision. -/
theorem runtime_congr {decryptApiKey : PyStr → Except Rejection PyStr} {settings settings' : List Setting}
    (h : settings.map rowView = settings'.map rowView) :
    settings.mapM (providerConfig config decryptApiKey) = settings'.mapM (providerConfig config decryptApiKey) ∧
      (settings.map fun s => (s.provider, s.model)) = (settings'.map fun s => (s.provider, s.model)) ∧
        (settings.find? Setting.isDefault).map Setting.provider =
          (settings'.find? Setting.isDefault).map Setting.provider := by
  induction settings generalizing settings' with
  | nil =>
    rw [List.map_nil, eq_comm, List.map_eq_nil_iff] at h
    rw [h]
    exact ⟨rfl, rfl, rfl⟩
  | cons s settings ih =>
    cases settings' with
    | nil => cases h
    | cons t settings' =>
      obtain ⟨hview, htail⟩ := List.cons.inj h
      obtain ⟨hconfigs, hmodels, hdefault⟩ := ih htail
      obtain ⟨hprovider, hmodel, hisDefault, hkey⟩ : s.provider = t.provider ∧ s.model = t.model ∧
          s.isDefault = t.isDefault ∧ s.encryptedApiKey = t.encryptedApiKey := by
        simpa [rowView] using hview
      have hconfig : providerConfig config decryptApiKey s = providerConfig config decryptApiKey t := by
        unfold providerConfig
        rw [hprovider, hkey]
      refine ⟨?_, ?_, ?_⟩
      · rw [List.mapM_cons, List.mapM_cons, hconfig, hconfigs]
      · rw [List.map_cons, List.map_cons, hmodels, hprovider, hmodel]
      · rw [List.find?_cons, List.find?_cons, hisDefault]
        split
        · rw [Option.map_some, Option.map_some, hprovider]
        · exact hdefault

theorem ok_of_toOption {ε α : Type} {x : Except ε α} {a : α} (h : x.toOption = some a) : x = .ok a := by
  cases x with
  | error e => cases h
  | ok b => rw [Option.some.inj h]

/-- What a request that can be served gets. -/
theorem getRuntimeLlmSettings_eq_some {decryptApiKey : PyStr → Except Rejection PyStr} {py : PyRuntime}
    {sha : Sha256} {table : Table} {p : Principal} {runtime : RuntimeLLMSettings}
    (h : getRuntimeLlmSettings config decryptApiKey py sha table p = some runtime) :
    ∃ configs text,
      (supportedSettings config table p).mapM (providerConfig config decryptApiKey) = .ok configs ∧
        Json.dumpsAscii py compactStyle
          (.array ((supportedSettings config table p).map revisionRecord)) = .ok text ∧
        runtime.providerConfigs = Dict.ofList configs ∧
        runtime.providerModels =
          Dict.ofList ((supportedSettings config table p).map fun s => (s.provider, s.model)) ∧
        runtime.defaultProvider = defaultProvider config
          (((supportedSettings config table p).find? Setting.isDefault).map Setting.provider)
            (Dict.ofList configs) ∧
        runtime.revision = sha.hexdigest text := by
  unfold getRuntimeLlmSettings at h
  obtain ⟨configs, hconfigs, h⟩ := Option.bind_eq_some_iff.mp h
  obtain ⟨text, htext, rfl⟩ := Option.map_eq_some_iff.mp h
  exact ⟨configs, text, ok_of_toOption hconfigs, ok_of_toOption htext, rfl, rfl, rfl, rfl⟩

/-- **The revision identifies the configuration**, if no `uuid4` comes twice and SHA-256 is injective:
    different keys, models or defaults of a principal, at any two moments of a run, have different
    revisions. -/
theorem revision_identifies (config : LlmConfig) (decryptApiKey : PyStr → Except Rejection PyStr)
    (py : PyRuntime) (sha : Sha256) (hsha : Function.Injective sha.hexdigest) (calls : List Call)
    (hfresh : (uuids calls).Nodup) (p : Principal) (i j : Nat) {now later : RuntimeLLMSettings}
    (hnow : getRuntimeLlmSettings config decryptApiKey py sha (run config (calls.take i)) p = some now)
    (hlater : getRuntimeLlmSettings config decryptApiKey py sha (run config (calls.take j)) p = some later)
    (hchanged : now.providerConfigs ≠ later.providerConfigs ∨ now.providerModels ≠ later.providerModels ∨
      now.defaultProvider ≠ later.defaultProvider) : now.revision ≠ later.revision := by
  intro hrevision
  obtain ⟨configs, text, hconfigs, htext, hnowConfigs, hnowModels, hnowDefault, hnowRevision⟩ :=
    getRuntimeLlmSettings_eq_some hnow
  obtain ⟨configs', text', hconfigs', htext', hlaterConfigs, hlaterModels, hlaterDefault, hlaterRevision⟩ :=
    getRuntimeLlmSettings_eq_some hlater
  have hmem : ∀ i, ∀ s ∈ supportedSettings config (run config (calls.take i)) p,
      s ∈ run config (calls.take i) := fun i s hs =>
    (mem_settingQuery.mp (mem_listProviderSettings.mp (List.mem_filter.mp hs).1)).1
  have hprintable : ∀ i, ∀ s ∈ supportedSettings config (run config (calls.take i)) p,
      s.provider.all printableAscii = true ∧ s.model.all printableAscii = true := fun i s hs =>
    (supported_run config _ s (hmem i s hs)).printable
  -- the same revision, the same text, the same records
  have hrecords : (supportedSettings config (run config (calls.take i)) p).map recordFields =
      (supportedSettings config (run config (calls.take j)) p).map recordFields := by
    rw [hnowRevision, hlaterRevision] at hrevision
    have hsame := hsha hrevision
    rw [dumpsAscii_eq_ok (hprintable i) htext, dumpsAscii_eq_ok (hprintable j) htext'] at hsame
    exact recordFields_eq_of_text hsame
  -- and so the same keys, which go with the revisions of the rows
  obtain ⟨keyOf, hkeyOf⟩ := exists_keyOf config calls hfresh
  have hviews : (supportedSettings config (run config (calls.take i)) p).map rowView =
      (supportedSettings config (run config (calls.take j)) p).map rowView := by
    refine PyList.map_eq_of_map_eq hrecords fun s hs t ht hfields => ?_
    obtain ⟨-, hdefault, hmodel, hprovider, htextEq, -⟩ : s.id = t.id ∧ s.isDefault = t.isDefault ∧
        s.model = t.model ∧ s.provider = t.provider ∧ s.revision.text = t.revision.text ∧
          s.updatedAt.isoformat = t.updatedAt.isoformat := by
      simpa [recordFields] using hfields
    have huuid : s.revision = t.revision := Uuid.ext htextEq
    have hkey : s.encryptedApiKey = t.encryptedApiKey := by
      rw [(hkeyOf i s (hmem i s hs)).2, (hkeyOf j t (hmem j t ht)).2, huuid]
    unfold rowView
    rw [hprovider, hmodel, hdefault, hkey]
  obtain ⟨hconfigsEq, hmodels, hdefault⟩ := @runtime_congr config decryptApiKey _ _ hviews
  rw [hconfigs, hconfigs'] at hconfigsEq
  obtain rfl := Except.ok.inj hconfigsEq
  rcases hchanged with hne | hne | hne
  · exact hne (hnowConfigs.trans hlaterConfigs.symm)
  · rw [hnowModels, hlaterModels, hmodels] at hne
    exact hne rfl
  · rw [hnowDefault, hlaterDefault, hdefault] at hne
    exact hne rfl

/-! ## A key is replaced -/

def firstUuid : Uuid := ⟨PyStr.ofString "6f1c1a52-3c0e-4a57-9f0b-2d5a7a1f0c11", by decide, by decide⟩
def secondUuid : Uuid := ⟨PyStr.ofString "b7d0f3de-51f4-4b8e-8f63-0c9a4e6d2a22", by decide, by decide⟩

/-- The text that is hashed before the key is replaced, and the one behind. -/
def firstText : PyStr := PyStr.ofString (
  "[\x7b\"id\":1,\"is_default\":true,\"model\":\"deepseek-v4-flash\"," ++
    "\"provider\":\"deepseek\",\"revision\":\"6f1c1a52-3c0e-4a57-9f0b-2d5a7a1f0c11\",\"updated_at\":\"2026-01-05T09:00:00+00:00\"\x7d]")
def secondText : PyStr := PyStr.ofString (
  "[\x7b\"id\":1,\"is_default\":true,\"model\":\"deepseek-v4-flash\"," ++
    "\"provider\":\"deepseek\",\"revision\":\"b7d0f3de-51f4-4b8e-8f63-0c9a4e6d2a22\",\"updated_at\":\"2026-01-05T10:00:00+00:00\"\x7d]")

/-- Their digests. -/
def firstDigest : PyStr :=
  PyStr.ofString "2513b4879524f8a6932270f3f4d37700bd6f4eb2c712b321a71d629a4b5d4b8e"
def secondDigest : PyStr :=
  PyStr.ofString "c489b12cd5f885b7dea24f88c4882c1714f8660ac06e8454ffffe3265caa9244"

theorem hex_of_ofString {s : String} (hs : s.toList.all ("0123456789abcdef".toList.contains ·) = true)
    {c : CodePoint} (hc : c ∈ PyStr.ofString s) :
    ∃ d : Char, c = d.codePoint ∧ d ∈ "0123456789abcdef".toList := by
  obtain ⟨d, hd, rfl⟩ := List.mem_map.mp hc
  exact ⟨d, rfl, List.contains_iff_mem.mp (List.all_eq_true.mp hs d hd)⟩

/-- Any text in two hexadecimal digits, up to a third one. -/
def plainCode (s : PyStr) : PyStr :=
  (s.flatMap fun c => List.replicate c.val 'a'.codePoint ++ ['b'.codePoint]) ++ ['c'.codePoint]

theorem plainCode_injective : Function.Injective plainCode := by
  have hcode : PrefixCode fun c : CodePoint => List.replicate c.val 'a'.codePoint ++ ['b'.codePoint] := by
    refine .terminated (fun c d heq => Fin.ext ?_) fun c hmem => ?_
    · simpa using congrArg List.length heq
    · exact absurd (List.eq_of_mem_replicate hmem) (by decide)
  have hstop : ∀ (c : CodePoint) (rest : PyStr),
      (List.replicate c.val 'a'.codePoint ++ ['b'.codePoint] ++ rest).head? ≠ some 'c'.codePoint := by
    intro c rest
    cases c.val with
    | zero => exact fun h => absurd (Option.some.inj h) (by decide)
    | succ n => exact fun h => absurd (Option.some.inj h) (by decide)
  exact (hcode.flatMap hstop).injective

/-- SHA-256 on these two texts, and injective on all others. -/
def sampleSha : Sha256 where
  hexdigest s :=
    if s = firstText then firstDigest
    else if s = secondText then secondDigest
    else plainCode s
  isHex s c hc := by
    split at hc
    · exact hex_of_ofString (by decide) hc
    split at hc
    · exact hex_of_ofString (by decide) hc
    · rcases List.mem_append.mp hc with hc | hc
      · obtain ⟨d, -, hd⟩ := List.mem_flatMap.mp hc
        rcases List.mem_append.mp hd with hd | hd
        · exact ⟨'a', List.eq_of_mem_replicate hd, by decide⟩
        · exact ⟨'b', List.mem_singleton.mp hd, by decide⟩
      · exact ⟨'c', List.mem_singleton.mp hc, by decide⟩

theorem sampleSha_injective : Function.Injective sampleSha.hexdigest := by
  have hne : firstDigest ≠ secondDigest := by decide
  -- a real digest has digits that `plainCode` does not use
  have hplain : ∀ s, plainCode s ≠ firstDigest ∧ plainCode s ≠ secondDigest := by
    have hdigits : ∀ s, ∀ c ∈ plainCode s, c ≠ '8'.codePoint := by
      intro s c hc
      rcases List.mem_append.mp hc with hc | hc
      · obtain ⟨d, -, hd⟩ := List.mem_flatMap.mp hc
        rcases List.mem_append.mp hd with hd | hd
        · rw [List.eq_of_mem_replicate hd]
          decide
        · rw [List.mem_singleton.mp hd]
          decide
      · rw [List.mem_singleton.mp hc]
        decide
    intro s
    constructor
    · exact fun heq => hdigits s '8'.codePoint (by rw [heq]; decide) rfl
    · exact fun heq => hdigits s '8'.codePoint (by rw [heq]; decide) rfl
  intro s t heq
  simp only [sampleSha] at heq
  split at heq
  · rename_i hs
    split at heq
    · rename_i ht
      rw [hs, ht]
    split at heq
    · exact absurd heq hne
    · exact absurd heq.symm (hplain t).1
  split at heq
  · rename_i hs
    split at heq
    · exact absurd heq.symm hne
    split at heq
    · rename_i ht
      rw [hs, ht]
    · exact absurd heq.symm (hplain t).2
  split at heq
  · exact absurd heq (hplain s).1
  split at heq
  · exact absurd heq (hplain s).2
  · exact plainCode_injective heq

def sampleConfig : LlmConfig where
  llmProvider := PyStr.ofString "deepseek"
  deepseekModel := PyStr.ofString "deepseek-v4-flash"
  deepseekBaseUrl := PyStr.ofString "https://api.deepseek.com"
  geminiModel := PyStr.ofString "gemini-3.6-flash"
  openaiModel := PyStr.ofString "gpt-5.5"
  openaiBaseUrl := PyStr.ofString "https://api.openai.com/v1"
  anthropicModel := PyStr.ofString "claude-fable-5"
  anthropicBaseUrl := PyStr.ofString "https://api.anthropic.com"
  doubaoModel := PyStr.ofString "doubao-seed-2-0-pro-260215"
  doubaoBaseUrl := PyStr.ofString "https://ark.cn-beijing.volces.com/api/v3"

/-- A cipher for the sample: the key behind a mark. -/
def sampleEncrypt (apiKey : PyStr) : Option PyStr := some (PyStr.ofString "gAAAAA" ++ apiKey)
def sampleDecrypt (encrypted : PyStr) : Except Rejection PyStr := .ok (encrypted.drop 6)

def sampleCall (uuid : Uuid) (date : Datetime) (apiKey : String) : Call where
  principal := ⟨1, 1⟩
  request := .upsert (PyStr.ofString "deepseek") (some (PyStr.ofString apiKey)) none
  env := { uuid := uuid, now := fun _ => date, encrypt := sampleEncrypt, rowId := 1, takes := true }

/-- A key, and another one in its place. -/
def sampleCalls : List Call :=
  [sampleCall firstUuid ⟨PyStr.ofString "2026-01-05T09:00:00+00:00", by decide⟩ "sk-first-key",
    sampleCall secondUuid ⟨PyStr.ofString "2026-01-05T10:00:00+00:00", by decide⟩ "sk-second-key"]

/-- The settings of the sample after so many calls. -/
def sampleSettings (i : Nat) : Option RuntimeLLMSettings :=
  getRuntimeLlmSettings sampleConfig sampleDecrypt .plain sampleSha (run sampleConfig (sampleCalls.take i)) ⟨1, 1⟩

/-- The keys in use. -/
def apiKeys (runtime : RuntimeLLMSettings) : List PyStr :=
  runtime.providerConfigs.values.map ProviderConfig.apiKey

theorem revision_identifies_key : ∃ now later, sampleSettings 1 = some now ∧ sampleSettings 2 = some later ∧
    now.revision ≠ later.revision := by
  have hfirst : (sampleSettings 1).any (fun runtime =>
      decide (apiKeys runtime = [PyStr.ofString "sk-first-key"])) = true := by decide +kernel
  have hsecond : (sampleSettings 2).any (fun runtime =>
      decide (apiKeys runtime = [PyStr.ofString "sk-second-key"])) = true := by decide +kernel
  obtain ⟨now, hnow, hnowKeys⟩ := (Option.any_eq_true _ _).mp hfirst
  obtain ⟨later, hlater, hlaterKeys⟩ := (Option.any_eq_true _ _).mp hsecond
  refine ⟨now, later, hnow, hlater, ?_⟩
  refine revision_identifies sampleConfig sampleDecrypt .plain sampleSha sampleSha_injective sampleCalls
    (by decide +kernel) ⟨1, 1⟩ 1 2 hnow hlater (.inl fun heq => ?_)
  have hkeys : apiKeys now = apiKeys later := by
    unfold apiKeys
    rw [heq]
  rw [of_decide_eq_true hnowKeys, of_decide_eq_true hlaterKeys] at hkeys
  exact absurd hkeys (by decide)

end FinancialRag.Services.LlmSettings
