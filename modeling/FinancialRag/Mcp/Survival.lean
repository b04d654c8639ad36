/-
  Which lines the stdio loop survives.

  A line is `LineHarmless` if it decodes, and if no text that the CLIENT or the operator's code chose and
  that goes into the response holds a lone surrogate or cannot be dumped: the `id`, the name of a tool that
  is refused, the reason of a hook, the answer of a handler.  Everything else in a response is fixed, or
  comes from the validator, whose messages can always be encoded (`speaks_validate`).

  `stdio_survives_iff`: the loop reads all lines and writes all responses if and only if every line is
  harmless to the connection it meets.
-/
import FinancialRag.Mcp.Access
import FinancialRag.Mcp.Lifecycle
import FinancialRag.Mcp.Stdio

set_option linter.unusedVariables false

namespace FinancialRag.Mcp

open Json (Writable)

/-! ## Responses that can be written -/

section Responses

variable {py : PyRuntime}

theorem writable_text {room : Nat} {s : String} (hroom : room ≤ py.recursionLimit) :
    Writable py room (text s) :=
  Json.writable_string.mpr ⟨hroom, PyStr.encodable_ofString s⟩

theorem room_le {room : Nat} (h : room ≤ 8) : room ≤ py.recursionLimit := h.trans py.recursionLimit_room

/-- A member with a fixed name. -/
theorem writable_member {room : Nat} {name : String} {v : Json} :
    (PyStr.encodable (key name v).1 = true ∧ Writable py room (key name v).2) ↔ Writable py room v :=
  and_iff_right (PyStr.encodable_ofString name)

/-- A result is written if the id and the result are. -/
theorem writable_resultResponse {requestId : Json} {result : Members} :
    Writable py 0 (resultResponse requestId result) ↔
      Writable py 1 requestId ∧ Writable py 1 (.object result) := by
  have hversion : Writable py 1 (text "2.0") := writable_text (room_le (by decide))
  unfold resultResponse
  rw [Json.writable_object, List.forall_mem_cons, List.forall_mem_cons, List.forall_mem_singleton,
    writable_member, writable_member, writable_member, and_iff_right (room_le (by decide)),
    and_iff_right hversion]

/-- An error is written if the id and the message are. -/
theorem writable_errorResponse {requestId : Json} {code : Int} {message : PyStr}
    (hcode : code.natAbs < 10 ^ 6) :
    Writable py 0 (errorResponse requestId code message) ↔
      Writable py 1 requestId ∧ PyStr.encodable message = true := by
  have hversion : Writable py 1 (text "2.0") := writable_text (room_le (by decide))
  have hnumber : Writable py 2 (.int code) := Json.writable_int (room_le (by decide)) hcode
  unfold errorResponse
  rw [Json.writable_object, List.forall_mem_cons, List.forall_mem_cons, List.forall_mem_singleton,
    writable_member, writable_member, writable_member, and_iff_right (room_le (by decide)),
    and_iff_right hversion, Json.writable_object, List.forall_mem_cons, List.forall_mem_singleton,
    writable_member, writable_member, and_iff_right (room_le (by decide)), and_iff_right hnumber,
    Json.writable_string, and_iff_right (room_le (by decide))]

/-- What an exception contributes to the response. -/
def Speakable : Raised → Prop
  | .mcp .other _ => True
  | .mcp _ message => PyStr.encodable message = true
  | .exception => True

theorem writable_raisedResponse {requestId : Json} {e : Raised} :
    Writable py 0 (raisedResponse requestId e) ↔ Writable py 1 requestId ∧ Speakable e := by
  have hinternal : Writable py 0 (errorResponse requestId (-32603) (PyStr.ofString "Internal error")) ↔
      Writable py 1 requestId ∧ True := by
    rw [writable_errorResponse (by decide), PyStr.encodable_ofString]
    simp
  cases e with
  | exception => exact hinternal
  | mcp cls message =>
    cases cls with
    | other => exact hinternal
    | protocol => exact writable_errorResponse (by decide)
    | schemaDefinition => exact writable_errorResponse (by decide)
    | schemaValidation => exact writable_errorResponse (by decide)
    | toolNotAllowed => exact writable_errorResponse (by decide)
    | toolAuthorizationDenied => exact writable_errorResponse (by decide)
    | toolNotRegistered => exact writable_errorResponse (by decide)
    | toolExecution => exact writable_errorResponse (by decide)

/-- An error with a fixed message. -/
theorem writable_fixedError {requestId : Json} {code : Int} {message : String}
    (hcode : code.natAbs < 10 ^ 6) :
    Writable py 0 (errorResponse requestId code (PyStr.ofString message)) ↔ Writable py 1 requestId := by
  rw [writable_errorResponse hcode, PyStr.encodable_ofString]
  exact and_iff_left rfl

end Responses

/-! ## The messages of the validator -/

/-- Whatever is raised can be said. -/
def Speaks {α : Type} (r : Except Raised α) : Prop := ∀ e, r = .error e → Speakable e

section Messages

variable {py : PyRuntime} {α β : Type}

theorem speaks_ok (a : α) : Speaks (.ok a : Except Raised α) := by
  intro e habs
  cases habs

theorem speaks_definition {message : PyStr} (h : PyStr.encodable message = true) :
    Speaks (schemaDefinitionError message : Except Raised α) := by
  intro e he
  obtain rfl := Except.error.inj he
  exact h

theorem speaks_validation {message : PyStr} (h : PyStr.encodable message = true) :
    Speaks (schemaValidationError message : Except Raised α) := by
  intro e he
  obtain rfl := Except.error.inj he
  exact h

theorem Speaks.bind {r : Except Raised α} {k : α → Except Raised β} (h : Speaks r)
    (hk : ∀ a, r = .ok a → Speaks (k a)) : Speaks (r >>= k) := by
  cases r with
  | ok a => exact hk a rfl
  | error e' =>
    intro e he
    obtain rfl := Except.error.inj he
    exact h _ rfl

theorem Speaks.forM {f : α → Except Raised Unit} {xs : List α} (h : ∀ x ∈ xs, Speaks (f x)) :
    Speaks (xs.forM f) := by
  induction xs with
  | nil => exact speaks_ok ()
  | cons x xs ih =>
    exact (h x List.mem_cons_self).bind fun _ _ => ih fun y hy => h y (List.mem_cons_of_mem _ hy)

theorem encodable_located {path : PyStr} (h : PyStr.encodable path = true) (rest : String) :
    PyStr.encodable (located path rest) = true := by
  unfold located
  rw [PyStr.encodable_append, h, PyStr.encodable_ofString]
  rfl

theorem encodable_propertyPath {path : PyStr} (h : PyStr.encodable path = true) (name : PyStr) :
    PyStr.encodable (propertyPath py path name) = true := by
  unfold propertyPath
  split
  · rename_i hidentifier
    rw [PyStr.encodable_append, PyStr.encodable_append, h, PyStr.encodable_ofString,
      py.isIdentifier_encodable name hidentifier]
    rfl
  · rw [PyStr.encodable_append, PyStr.encodable_append, PyStr.encodable_append, h,
      PyStr.encodable_ofString, PyStr.encodable_ofString, py.strRepr_encodable]
    rfl

theorem encodable_itemPath {path : PyStr} (h : PyStr.encodable path = true) (index : Nat) :
    PyStr.encodable (itemPath path index) = true := by
  unfold itemPath
  rw [PyStr.encodable_append, PyStr.encodable_append, PyStr.encodable_append, h,
    PyStr.encodable_ofString, PyStr.encodable_ofInt, PyStr.encodable_ofString]
  rfl

theorem encodable_numberText (v : Json) : PyStr.encodable (numberText py v) = true := by
  unfold numberText
  split
  · exact PyStr.encodable_ofInt _
  · exact PyStr.encodable_ofString _
  · exact PyStr.encodable_ofString _
  · exact PyStr.encodable_ofString _
  · exact encodable_of_printable (py.floatRepr_printable _)
  · rfl

theorem encodable_bracketed {opening closing : CodePoint} {parts : List PyStr}
    (hopening : PyStr.encodable [opening] = true) (hclosing : PyStr.encodable [closing] = true)
    (hparts : ∀ s ∈ parts, PyStr.encodable s = true) :
    PyStr.encodable (opening :: (PyStr.ofString ", ").intercalate parts ++ [closing]) = true := by
  have hjoined : PyStr.encodable ((PyStr.ofString ", ").intercalate parts) = true := by
    have hseparator : (PyStr.ofString ", ").all (fun c => !PyStr.isSurrogate c) = true :=
      PyStr.encodable_ofString ", "
    unfold PyStr.encodable
    rw [Json.all_intercalate hseparator]
    exact List.all_eq_true.mpr hparts
  rw [List.cons_append, ← List.singleton_append, PyStr.encodable_append, PyStr.encodable_append, hopening,
    hclosing, hjoined]
  rfl

theorem reprItems_eq (items : List Json) : reprItems py items = items.map (repr py) := by
  induction items with
  | nil => rfl
  | cons v rest ih => rw [reprItems, ih, List.map_cons]

theorem reprMembers_eq (members : Members) : reprMembers py members =
    members.map fun m => py.strRepr m.1 ++ PyStr.ofString ": " ++ repr py m.2 := by
  induction members with
  | nil => rfl
  | cons m rest ih =>
    obtain ⟨k, v⟩ := m
    rw [reprMembers, ih, List.map_cons]

/-- `repr` escapes every surrogate. -/
theorem encodable_repr (v : Json) : PyStr.encodable (repr py v) = true := by
  induction v with
  | null => exact PyStr.encodable_ofString _
  | bool b => cases b <;> exact PyStr.encodable_ofString _
  | int n =>
    show PyStr.encodable (numberText py (.int n)) = true
    exact encodable_numberText _
  | float x =>
    show PyStr.encodable (numberText py (.float x)) = true
    exact encodable_numberText _
  | string s => exact py.strRepr_encodable s
  | array items ih =>
    rw [repr, reprItems_eq]
    refine encodable_bracketed (by decide) (by decide) fun s hs => ?_
    obtain ⟨v, hv, rfl⟩ := List.mem_map.mp hs
    exact ih v hv
  | object members ih =>
    rw [repr, reprMembers_eq]
    refine encodable_bracketed (by decide) (by decide) fun s hs => ?_
    obtain ⟨m, hm, rfl⟩ := List.mem_map.mp hs
    rw [PyStr.encodable_append, PyStr.encodable_append, py.strRepr_encodable, PyStr.encodable_ofString,
      ih m hm]
    rfl

/-- The calls that `_validate` makes raise nothing but what can be said. -/
abbrev CallsSpeak (validate : Validate) : Prop :=
  ∀ v s path, PyStr.encodable path = true → Speaks (validate v s path)

section Keywords

variable {validate : Validate} {v : Json} {schema : Members} {path : PyStr}

theorem speaks_countMatches (hcalls : CallsSpeak validate) (hpath : PyStr.encodable path = true)
    (alternatives : List Members) : Speaks (countMatches validate v path alternatives) := by
  induction alternatives with
  | nil => exact speaks_ok 0
  | cons s rest ih =>
    unfold countMatches
    split
    · intro e he
      refine ih e ?_
      cases hrest : countMatches validate v path rest with
      | ok n =>
        rw [hrest] at he
        cases he
      | error e' =>
        rw [hrest] at he
        rw [Except.error.inj he]
    · exact ih
    · rename_i e' _ hcall
      intro e he
      obtain rfl := Except.error.inj he
      exact hcalls v s path hpath _ hcall

theorem speaks_combinator (hcalls : CallsSpeak validate) (hpath : PyStr.encodable path = true)
    (name : String) : Speaks (validateCombinator validate v schema path name) := by
  unfold validateCombinator
  split
  · exact speaks_ok ()
  · split
    · exact speaks_definition (encodable_located hpath _)
    · split
      · exact Speaks.forM fun s _ => hcalls v s path hpath
      · refine (speaks_countMatches hcalls hpath _).bind fun n _ => ?_
        have hsingle : Speaks (if name = "oneOf" ∧ n ≠ 1 then
            schemaValidationError (located path "must match exactly one allowed schema") else pure ()) := by
          split
          · exact speaks_validation (encodable_located hpath _)
          · exact speaks_ok ()
        dsimp only
        split
        · exact (speaks_validation (encodable_located hpath _)).bind fun _ _ => hsingle
        · exact hsingle
  · exact speaks_definition (encodable_located hpath _)

/-- A type that is supported has a fixed name. -/
theorem encodable_of_typeTest {name : PyStr} {test : Json → Bool} (h : typeTest name = some test) :
    PyStr.encodable name = true := by
  unfold typeTest at h
  cases hrow : supportedTypes.find? (fun row => decide (PyStr.ofString row.1 = name)) with
  | none =>
    rw [hrow] at h
    cases h
  | some row =>
    have hsame : decide (PyStr.ofString row.1 = name) = true := by simpa using List.find?_some hrow
    rw [← of_decide_eq_true hsame]
    exact PyStr.encodable_ofString _

theorem speaks_type (hpath : PyStr.encodable path = true) : Speaks (validateType py v schema path) := by
  unfold validateType
  split
  · exact speaks_ok ()
  · exact speaks_ok ()
  · rename_i expected _ _
    simp only
    split
    · refine speaks_definition ?_
      rw [PyStr.encodable_append, encodable_located hpath, encodable_repr]
      rfl
    · rename_i name test htest
      split
      · exact speaks_ok ()
      · refine speaks_validation ?_
        have hname : PyStr.encodable name = true := by
          split at htest
          · rename_i expectedName _ _
            cases htype : typeTest expectedName with
            | none =>
              rw [htype] at htest
              cases htest
            | some expectedTest =>
              rw [htype] at htest
              obtain ⟨rfl, _⟩ := Prod.mk.inj (Option.some.inj htest)
              exact encodable_of_typeTest htype
          · cases htest
        rw [PyStr.encodable_append, encodable_located hpath, hname]
        rfl

theorem speaks_oneBound (hpath : PyStr.encodable path = true) (name : String) (violates : Json → Bool)
    (message : String) : Speaks (validateOneBound py schema name path violates message) := by
  unfold validateOneBound
  split
  · exact speaks_ok ()
  split
  · exact speaks_definition (encodable_located hpath _)
  split
  · refine speaks_validation ?_
    rw [PyStr.encodable_append, encodable_located hpath, encodable_numberText]
    rfl
  · exact speaks_ok ()

theorem speaks_bound (hpath : PyStr.encodable path = true) (lower upper : String) :
    Speaks (validateBound py v schema lower upper path) :=
  (speaks_oneBound hpath _ _ _).bind fun _ _ => speaks_oneBound hpath _ _ _

theorem speaks_string (hpath : PyStr.encodable path = true) (s : PyStr) :
    Speaks (validateString py s schema path) := by
  unfold validateString
  refine (speaks_bound hpath _ _).bind fun _ _ => ?_
  split
  · exact speaks_ok ()
  · split
    · exact speaks_definition (encodable_located hpath _)
    · exact speaks_ok ()
    · exact speaks_validation (encodable_located hpath _)
  · exact speaks_definition (encodable_located hpath _)

theorem speaks_items (hcalls : CallsSpeak validate) (hpath : PyStr.encodable path = true)
    (itemSchema : Members) (index : Nat) (items : List Json) :
    Speaks (validateItems validate itemSchema path index items) := by
  induction items generalizing index with
  | nil => exact speaks_ok ()
  | cons item rest ih =>
    exact (hcalls item itemSchema _ (encodable_itemPath hpath index)).bind fun _ _ => ih (index + 1)

theorem speaks_array (hcalls : CallsSpeak validate) (hpath : PyStr.encodable path = true)
    (items : List Json) : Speaks (validateArray py validate items schema path) := by
  unfold validateArray
  refine (speaks_bound hpath _ _).bind fun _ _ => ?_
  split
  · exact speaks_ok ()
  · exact speaks_items hcalls hpath _ 0 items
  · exact speaks_definition (encodable_located hpath _)

theorem speaks_member (hcalls : CallsSpeak validate) (hpath : PyStr.encodable path = true)
    (properties : Members) (m : PyStr × Json) :
    Speaks (validateMember py validate properties schema path m) := by
  have hitem : PyStr.encodable (propertyPath py path m.1) = true := encodable_propertyPath hpath m.1
  unfold validateMember
  simp only
  split
  · exact hcalls _ _ _ hitem
  · exact speaks_definition (encodable_located hitem _)
  · split
    · exact speaks_ok ()
    · exact speaks_validation (encodable_located hitem _)
    · exact speaks_ok ()
    · exact hcalls _ _ _ hitem
    · exact speaks_definition (encodable_located hpath _)

theorem speaks_object (hcalls : CallsSpeak validate) (hpath : PyStr.encodable path = true)
    (members : Members) : Speaks (validateObject py validate members schema path) := by
  have hproperties : Speaks (propertiesOf schema path) := by
    unfold propertiesOf
    split
    · exact speaks_ok _
    · exact speaks_ok _
    · exact speaks_definition (encodable_located hpath _)
  have hrequired : Speaks (requiredOf schema path) := by
    unfold requiredOf
    simp only
    split
    · exact speaks_ok _
    · split
      · exact speaks_ok _
      · exact speaks_definition (encodable_located hpath _)
    · exact speaks_definition (encodable_located hpath _)
  refine hproperties.bind fun properties _ => hrequired.bind fun required _ => ?_
  refine Speaks.bind (Speaks.forM fun name _ => ?_) fun _ _ => Speaks.forM fun m _ =>
    speaks_member hcalls hpath properties m
  split
  · exact speaks_ok ()
  · exact speaks_validation (encodable_located (encodable_propertyPath hpath name) _)

theorem speaks_byKind (hcalls : CallsSpeak validate) (hpath : PyStr.encodable path = true) :
    Speaks (validateByKind py validate v schema path) := by
  unfold validateByKind
  split
  · exact speaks_object hcalls hpath _
  · exact speaks_array hcalls hpath _
  · exact speaks_string hpath _
  · exact speaks_bound hpath _ _
  · exact speaks_bound hpath _ _
  · exact speaks_ok ()

end Keywords

/-- **The validator's messages can be encoded**, whatever the arguments and the schema. -/
theorem speaks_validate (limit : Nat) : CallsSpeak (validate py limit) := by
  induction limit with
  | zero =>
    intro v schema path _ e he
    obtain rfl := Except.error.inj he
    trivial
  | succ limit ih =>
    intro v schema path hpath
    rw [validate]
    have hconst : Speaks (validateConst v schema path) := by
      unfold validateConst
      split
      · exact speaks_ok ()
      · split
        · exact speaks_ok ()
        · exact speaks_validation (encodable_located hpath _)
    have henum : Speaks (validateEnum v schema path) := by
      unfold validateEnum
      split
      · exact speaks_ok ()
      · split
        · exact speaks_ok ()
        · exact speaks_validation (encodable_located hpath _)
      · exact speaks_definition (encodable_located hpath _)
    have hcombinators : Speaks (validateCombinators (validate py limit) v schema path) :=
      Speaks.forM fun name _ => speaks_combinator ih hpath name
    have htype : Speaks (validateType py v schema path) := speaks_type hpath
    have hkind : Speaks (validateByKind py (validate py limit) v schema path) := speaks_byKind ih hpath
    have hrest := hcombinators.bind fun _ _ => htype.bind fun _ _ => hconst.bind fun _ _ =>
      henum.bind fun _ _ => hkind
    split
    · exact (speaks_definition (encodable_located hpath _)).bind fun _ _ => hrest
    · exact hrest

theorem speaks_validateArguments (limit : Nat) (arguments schema : Members) :
    Speaks (validateArguments py limit arguments schema) :=
  (speaks_validate limit _ _ _ (PyStr.encodable_ofString _)).bind fun _ _ => speaks_ok _

end Messages

/-! ## Harmless calls -/

variable {W Ctx : Type} (py : PyRuntime) (limit : Nat)

/-- What a handler returns can be written, and what it raises can be said. -/
def OutcomeHarmless (name : PyStr) : HandlerOutcome → Prop
  | .returned answer => ∀ result, toMcpResult py answer = some result → Writable py 1 (.object result)
  | .raised (.mcp cls message) => Speakable (.mcp cls message)
  | .raised .exception => PyStr.encodable name = true

/-- The reason of a refusal goes into the response, and the name with it. -/
def RefusalHarmless (name : PyStr) : HookAnswer → Prop
  | .decided false (some reason) => PyStr.encodable name = true ∧ PyStr.encodable reason = true
  | .decided false none => PyStr.encodable name = true
  | _ => True

/-- A call that the validator lets through: the hook is asked first, in the world `outside`. -/
def RegisteredHarmless (adapter : LocalMCPAdapter W Ctx) (tool : LocalTool W Ctx) (name : PyStr)
    (arguments : Members) (requestContext : Ctx) (outside : W) : Prop :=
  match adapter.governance.authorizationHook with
  | none => OutcomeHarmless py name (tool.invoke arguments requestContext outside).1
  | some hook =>
    let answered := hook ⟨name, arguments, requestContext⟩ outside
    match answered.1.1 with
    | .decided true _ => OutcomeHarmless py name (tool.invoke answered.1.2 requestContext answered.2).1
    | refusal => RefusalHarmless name refusal

/-- A call of the tool `name`. -/
structure NamedHarmless (adapter : LocalMCPAdapter W Ctx) (name : PyStr) (arguments : Members)
    (requestContext : Ctx) (outside : W) : Prop where
  refused : name ∉ adapter.governance.allowedTools ∨ adapter.tools.get name = none →
    PyStr.encodable name = true
  registered : ∀ tool, name ∈ adapter.governance.allowedTools → adapter.tools.get name = some tool →
    validateArguments py limit arguments tool.inputSchema = .ok arguments →
    RegisteredHarmless py adapter tool name arguments requestContext outside

/-- A `tools/call`; without a name, or with arguments that are no object, the answer is fixed. -/
def CallHarmless (adapter : LocalMCPAdapter W Ctx) (params : Members) (requestContext : Ctx) (outside : W) :
    Prop :=
  ∀ name arguments, params.get "name" = some (.string name) → name ≠ [] →
    ArgumentsAre (params.get "arguments") arguments →
    NamedHarmless py limit adapter name arguments requestContext outside

/-- How a call ends. -/
def EndsHarmless : Except Raised Members → Prop
  | .ok result => Writable py 1 (.object result)
  | .error e => Speakable e

section Calls

variable {py limit} {adapter : LocalMCPAdapter W Ctx} {name : PyStr} {arguments : Members}
  {requestContext : Ctx} {w : World W}

theorem encodable_toolMessage (name : PyStr) (rest : String) :
    PyStr.encodable (toolMessage name rest) = PyStr.encodable name := by
  unfold toolMessage
  rw [PyStr.encodable_append, PyStr.encodable_append, PyStr.encodable_ofString, PyStr.encodable_ofString,
    Bool.true_and, Bool.and_true]

/-- The handler, and what becomes of its answer. -/
theorem runTool_ends (tool : LocalTool W Ctx) (arguments left : Members) :
    EndsHarmless py ((do
      let answer ← runTool tool name arguments left requestContext
      match toMcpResult py answer with
      | some result => return result
      | none => throw .exception : Call W Members) w).1 ↔
      OutcomeHarmless py name (tool.invoke left requestContext w.outside).1 := by
  cases houtcome : (tool.invoke left requestContext w.outside).1 with
  | returned answer =>
    obtain ⟨w', hrun⟩ : ∃ w', runTool tool name arguments left requestContext w =
          (.ok answer, w') := by
      unfold runTool
      simp only [houtcome]
      exact ⟨_, rfl⟩
    rw [call_bind_ok hrun]
    show _ ↔ ∀ result, toMcpResult py answer = some result → Writable py 1 (.object result)
    cases hresult : toMcpResult py answer with
    | some result =>
      constructor
      · intro h result' hsame
        obtain rfl := Option.some.inj hsame
        exact h
      · intro h
        exact h result rfl
    | none =>
      constructor
      · intro _ result habs
        cases habs
      · intro _
        trivial
  | raised e =>
    cases e with
    | mcp cls message =>
      obtain ⟨w', hrun⟩ : ∃ w', runTool tool name arguments left requestContext w =
          (.error (.mcp cls message), w') := by
        unfold runTool
        simp only [houtcome]
        exact ⟨_, rfl⟩
      rw [call_bind_error hrun]
      exact Iff.rfl
    | exception =>
      obtain ⟨w', hrun⟩ : ∃ w', runTool tool name arguments left requestContext w =
          (.error (.mcp .toolExecution (toolMessage name " failed")), w') := by
        unfold runTool
        simp only [houtcome]
        exact ⟨_, rfl⟩
      rw [call_bind_error hrun]
      show PyStr.encodable (toolMessage name " failed") = true ↔ PyStr.encodable name = true
      rw [encodable_toolMessage]

/-- An answer of the hook that is no permission. -/
theorem verdict_error (name : PyStr) {answer : HookAnswer} (h : ∀ reason, answer ≠ .decided true reason) :
    ∃ e, answer.verdict name = .error e ∧ (Speakable e ↔ RefusalHarmless name answer) := by
  cases answer with
  | raised => exact ⟨_, rfl, iff_of_true (PyStr.encodable_ofString _) trivial⟩
  | invalid => exact ⟨_, rfl, iff_of_true (PyStr.encodable_ofString _) trivial⟩
  | decided allowed reason =>
    have hplain : PyStr.encodable (toolMessage name " was not authorized") = true ↔
        PyStr.encodable name = true := by
      rw [encodable_toolMessage]
    cases allowed with
    | true => exact absurd rfl (h reason)
    | false =>
      cases reason with
      | none => exact ⟨_, rfl, hplain⟩
      | some reason =>
        cases reason with
        | nil => exact ⟨_, rfl, hplain.trans (and_iff_left rfl).symm⟩
        | cons c reason =>
          refine ⟨_, rfl, ?_⟩
          show PyStr.encodable (toolMessage name " was not authorized: " ++ c :: reason) = true ↔
            PyStr.encodable name = true ∧ PyStr.encodable (c :: reason) = true
          rw [PyStr.encodable_append, encodable_toolMessage, Bool.and_eq_true]

/-- A registered tool, after the validator. -/
theorem authorized_ends {tool : LocalTool W Ctx} (hallowed : name ∈ adapter.governance.allowedTools) :
    EndsHarmless py ((do
      let left ← adapter.governance.authorize name arguments requestContext
      let answer ← runTool tool name arguments left requestContext
      match toMcpResult py answer with
      | some result => return result
      | none => throw .exception : Call W Members) w).1 ↔
      RegisteredHarmless py adapter tool name arguments requestContext w.outside := by
  have hauthorize := authorize_eq arguments requestContext w hallowed
  unfold ToolGovernance.consult at hauthorize
  unfold RegisteredHarmless
  cases hhook : adapter.governance.authorizationHook with
  | none =>
    rw [hhook] at hauthorize
    rw [call_bind_ok (show adapter.governance.authorize name arguments requestContext w =
      (.ok arguments, w) from hauthorize)]
    exact runTool_ends tool arguments arguments
  | some hook =>
    have hasked : askHook hook ⟨name, arguments, requestContext⟩ w =
        (.ok (hook ⟨name, arguments, requestContext⟩ w.outside).1, _) := rfl
    rw [hhook] at hauthorize
    simp only at hauthorize ⊢
    rw [call_bind_ok hasked] at hauthorize
    generalize hook ⟨name, arguments, requestContext⟩ w.outside = answered at hauthorize ⊢
    obtain ⟨⟨answer, left⟩, outside⟩ := answered
    by_cases hpermitted : ∃ reason, answer = .decided true reason
    · obtain ⟨reason, rfl⟩ := hpermitted
      rw [call_bind_ok (a := left) hauthorize]
      exact runTool_ends tool arguments left
    · have hrefused : ∀ reason, answer ≠ .decided true reason := by
        intro reason habs
        exact hpermitted ⟨reason, habs⟩
      obtain ⟨e, hverdict, he⟩ := verdict_error name hrefused
      simp only [hverdict] at hauthorize
      rw [call_bind_error (e := e) hauthorize]
      refine Iff.trans (show _ ↔ Speakable e from Iff.rfl) (he.trans ?_)
      -- the second branch: the first is excluded by `hrefused`
      simp only

theorem callRegistered_ends (hallowed : name ∈ adapter.governance.allowedTools) :
    EndsHarmless py (adapter.callRegistered py limit name arguments requestContext w).1 ↔
      NamedHarmless py limit adapter name arguments requestContext w.outside := by
  unfold LocalMCPAdapter.callRegistered
  cases htool : adapter.tools.get name with
  | none =>
    show PyStr.encodable (toolMessage name " has no local handler") = true ↔ _
    rw [encodable_toolMessage]
    constructor
    · intro hname
      refine ⟨fun _ => hname, ?_⟩
      intro tool _ hsome
      exact absurd (htool.symm.trans hsome) (by simp)
    · intro h
      exact h.refused (Or.inr htool)
  | some tool =>
    simp only
    have hknown : ¬ (name ∉ adapter.governance.allowedTools ∨ adapter.tools.get name = none) := by
      rw [htool]
      simp [hallowed]
    cases hvalidate : validateArguments py limit arguments tool.inputSchema with
    | error e =>
      refine iff_of_true (speaks_validateArguments limit _ _ e hvalidate) ⟨fun habs => absurd habs hknown, ?_⟩
      intro tool' _ htool' habs
      obtain rfl := Option.some.inj (htool.symm.trans htool')
      rw [hvalidate] at habs
      cases habs
    | ok validated =>
      obtain rfl := validateArguments_eq hvalidate
      rw [call_bind_ok (show lift (W := W) (.ok validated) w = (.ok validated, w) from rfl)]
      refine Iff.trans (authorized_ends hallowed) ?_
      constructor
      · intro h
        refine ⟨fun habs => absurd habs hknown, ?_⟩
        intro tool' _ htool' _
        obtain rfl := Option.some.inj (htool.symm.trans htool')
        exact h
      · intro h
        exact h.registered tool hallowed htool hvalidate

theorem ensured_ends :
    EndsHarmless py ((do
      adapter.governance.ensureAllowed name
      adapter.callRegistered py limit name arguments requestContext : Call W Members) w).1 ↔
      NamedHarmless py limit adapter name arguments requestContext w.outside := by
  rcases ensureAllowed_cases adapter name w with ⟨hallowed, hensure⟩ | ⟨hforeign, hensure⟩
  · rw [call_bind_ok hensure]
    exact callRegistered_ends hallowed
  · rw [call_bind_error hensure]
    show PyStr.encodable (toolMessage name " is not in the allowlist") = true ↔ _
    rw [encodable_toolMessage]
    constructor
    · intro hname
      exact ⟨fun _ => hname, fun tool habs => absurd habs hforeign⟩
    · intro h
      exact h.refused (Or.inl hforeign)

/-- The arguments of a call are what they are. -/
theorem argumentsAre_object {given : Option Json} {members : Members}
    (h : given.getD (.object []) = .object members) : ArgumentsAre given arguments ↔ arguments = members := by
  unfold ArgumentsAre
  constructor
  · rintro (hgiven | ⟨rfl, _⟩)
    · exact Json.object.inj (hgiven.symm.trans h)
    · cases h
  · rintro rfl
    exact Or.inl h

theorem argumentsAre_null {given : Option Json} (h : given.getD (.object []) = .null) :
    ArgumentsAre given arguments ↔ arguments = [] := by
  have hgiven : given = some .null := by
    cases given with
    | none => cases h
    | some v => exact congrArg some h
  unfold ArgumentsAre
  rw [h, hgiven]
  constructor
  · rintro (habs | ⟨_, rfl⟩)
    · cases habs
    · rfl
  · rintro rfl
    exact Or.inr ⟨rfl, rfl⟩

/-- Anything else is no arguments. -/
theorem not_argumentsAre {given : Option Json} (hnull : given.getD (.object []) ≠ .null)
    (hobject : ∀ members, given.getD (.object []) ≠ .object members) : ¬ ArgumentsAre given arguments := by
  rintro (habs | ⟨rfl, _⟩)
  · exact hobject _ habs
  · exact hnull rfl

/-- **When a call ends harmlessly.** -/
theorem callTool_ends {params : Members} :
    EndsHarmless py (adapter.callTool py limit (params.get "name") (params.get "arguments")
      requestContext w).1 ↔ CallHarmless py limit adapter params requestContext w.outside := by
  have hfixed : ∀ message : String, PyStr.encodable (PyStr.ofString message) = true :=
    PyStr.encodable_ofString
  unfold CallHarmless
  generalize params.get "name" = givenName
  generalize params.get "arguments" = given
  unfold LocalMCPAdapter.callTool
  split
  · rename_i c rest
    have hnamed : ∀ members, (∀ arguments, ArgumentsAre given arguments ↔ arguments = members) →
        (NamedHarmless py limit adapter (c :: rest) members requestContext w.outside ↔
          ∀ name arguments, some (.string (c :: rest)) = some (Json.string name) → name ≠ [] →
            ArgumentsAre given arguments →
            NamedHarmless py limit adapter name arguments requestContext w.outside) := by
      intro members hgiven
      constructor
      · intro h name arguments hname _ harguments
        obtain rfl := Json.string.inj (Option.some.inj hname)
        obtain rfl := (hgiven arguments).mp harguments
        exact h
      · intro h
        exact h _ _ rfl (by simp) ((hgiven members).mpr rfl)
    have hrefused : ∀ v, given.getD (.object []) = v → v ≠ .null → (∀ members, v ≠ .object members) →
        (True ↔ ∀ name arguments, some (.string (c :: rest)) = some (Json.string name) → name ≠ [] →
            ArgumentsAre given arguments →
            NamedHarmless py limit adapter name arguments requestContext w.outside) := by
      rintro v rfl hnull hobject
      refine iff_of_true trivial ?_
      intro name arguments _ _ habs
      exact absurd habs (not_argumentsAre hnull hobject)
    cases hgetD : given.getD (.object []) with
    | null => exact ensured_ends.trans (hnamed [] fun _ => argumentsAre_null hgetD)
    | object members => exact ensured_ends.trans (hnamed members fun _ => argumentsAre_object hgetD)
    | bool b => exact (iff_true_intro (hfixed _)).trans (hrefused _ hgetD (by simp) (by simp))
    | int n => exact (iff_true_intro (hfixed _)).trans (hrefused _ hgetD (by simp) (by simp))
    | float x => exact (iff_true_intro (hfixed _)).trans (hrefused _ hgetD (by simp) (by simp))
    | string s => exact (iff_true_intro (hfixed _)).trans (hrefused _ hgetD (by simp) (by simp))
    | array items => exact (iff_true_intro (hfixed _)).trans (hrefused _ hgetD (by simp) (by simp))
  · rename_i hunnamed
    refine iff_of_true (hfixed _) ?_
    intro name arguments hname hnonempty _
    cases name with
    | nil => exact absurd rfl hnonempty
    | cons c rest => exact (hunnamed c rest hname).elim

end Calls

/-! ## Harmless messages -/

/-- What `tools/list` shows. -/
def ListHarmless (adapter : LocalMCPAdapter W Ctx) : Prop :=
  ∀ name ∈ adapter.governance.allowedTools, ∀ tool, adapter.tools.get name = some tool →
    Writable py 3 tool.asMcpDefinition

/-- What an `initialize` shows. -/
structure InfoHarmless (info : MCPServerInfo) : Prop where
  name : PyStr.encodable info.name = true
  version : PyStr.encodable info.version = true
  instructions : ∀ s, info.instructions = some s → PyStr.encodable s = true

/-- A request that is answered under `requestId`: the phase decides what the answer shows. -/
structure RequestHarmless (server : MCPServer W Ctx) (requestId : Json) (request : Members)
    (requestContext : Ctx) (c : Connection W) : Prop where
  id : Writable py 1 requestId
  greeting : ∀ params, paramsOf request "initialize" = some params → c.phase = .new →
    (requestedVersion params).isSome → InfoHarmless server.serverInfo
  list : ∀ params, paramsOf request "tools/list" = some params → c.phase = .ready →
    ListHarmless py server.adapter
  call : ∀ params, paramsOf request "tools/call" = some params → c.phase = .ready →
    CallHarmless py limit server.adapter params requestContext c.world.outside

/-- A message: what is no object and what has no `id` does no harm. -/
def MessageHarmless (server : MCPServer W Ctx) (request : Json) (requestContext : Ctx)
    (c : Connection W) : Prop :=
  ∀ members requestId, request = .object members → Members.get members "id" = some requestId →
    RequestHarmless py limit server requestId members requestContext c

section Messages

variable {py limit} {requestContext : Ctx} {c : Connection W}

theorem writable_toolsList {adapter : LocalMCPAdapter W Ctx} :
    Writable py 1 (.object adapter.toolsList) ↔ ListHarmless py adapter := by
  unfold LocalMCPAdapter.toolsList
  simp only
  rw [Json.writable_object, List.forall_mem_singleton, writable_member,
    and_iff_right (room_le (by decide)), Json.writable_array, and_iff_right (room_le (by decide))]
  constructor
  · intro h name hallowed tool htool
    refine h _ (List.mem_filterMap.mpr ⟨name, List.mem_filter.mpr ⟨?_, decide_eq_true hallowed⟩, ?_⟩)
    · exact PyList.mem_sorted.mpr (Dict.mem_keys_iff.mpr ⟨tool, htool⟩)
    · rw [htool]
      rfl
  · intro h v hv
    obtain ⟨name, hname, hdefinition⟩ := List.mem_filterMap.mp hv
    obtain ⟨tool, htool, rfl⟩ := Option.map_eq_some_iff.mp hdefinition
    exact h name (of_decide_eq_true (List.mem_filter.mp hname).2) tool htool

theorem writable_initializeResult {info : MCPServerInfo} (requested : PyStr) :
    Writable py 1 (.object (initializeResult info (negotiate requested))) ↔ InfoHarmless info := by
  obtain ⟨version, _, hversion⟩ := negotiate_supported requested
  have hnegotiated : Writable py 2 (.string (negotiate requested)) := by
    rw [hversion]
    exact writable_text (room_le (by decide))
  have hcapabilities : Writable py 2 (.object [key "tools" (.object [key "listChanged" (.bool false)])]) := by
    rw [Json.writable_object, List.forall_mem_singleton, writable_member, Json.writable_object,
      List.forall_mem_singleton, writable_member]
    exact ⟨room_le (by decide), room_le (by decide),
      Json.writable_of_everywhere rfl (room_le (by decide)) rfl rfl⟩
  have hinfo : Writable py 2 (.object [key "name" (.string info.name), key "version" (.string info.version)]) ↔
      PyStr.encodable info.name = true ∧ PyStr.encodable info.version = true := by
    rw [Json.writable_object, List.forall_mem_cons, List.forall_mem_singleton, writable_member,
      writable_member, Json.writable_string, Json.writable_string, and_iff_right (room_le (by decide)),
      and_iff_right (room_le (by decide)), and_iff_right (room_le (by decide))]
  have hinstructions : (∀ m ∈ instructionsOf info, PyStr.encodable m.1 = true ∧ Writable py 2 m.2) ↔
      ∀ s, info.instructions = some s → PyStr.encodable s = true := by
    unfold instructionsOf
    split
    · rename_i d rest hsome
      rw [List.forall_mem_singleton, writable_member, Json.writable_string,
        and_iff_right (room_le (by decide)), hsome]
      constructor
      · rintro h s hs
        obtain rfl := Option.some.inj hs
        exact h
      · intro h
        exact h _ rfl
    · rename_i hblank
      refine iff_of_true (fun m habs => absurd habs List.not_mem_nil) fun s hs => ?_
      cases s with
      | nil => rfl
      | cons d rest => exact (hblank d rest hs).elim
  unfold initializeResult
  rw [Json.writable_object, List.forall_mem_append, List.forall_mem_cons, List.forall_mem_cons,
    List.forall_mem_singleton, writable_member, writable_member, writable_member, hinfo, hinstructions,
    and_iff_right (room_le (by decide)), and_iff_right hnegotiated, and_iff_right hcapabilities]
  constructor
  · rintro ⟨⟨hname, hversion⟩, hinstructions⟩
    exact ⟨hname, hversion, hinstructions⟩
  · rintro ⟨hname, hversion, hinstructions⟩
    exact ⟨⟨hname, hversion⟩, hinstructions⟩

theorem writable_dispatch {adapter : LocalMCPAdapter W Ctx} {requestId : Json} {method : PyStr}
    {params : Members} {w : World W} :
    Writable py 0 (adapter.dispatch py limit requestId method params requestContext w).1 ↔
      Writable py 1 requestId ∧ (method = PyStr.ofString "tools/list" → ListHarmless py adapter) ∧
        (method = PyStr.ofString "tools/call" →
          CallHarmless py limit adapter params requestContext w.outside) := by
  have hdistinct : PyStr.ofString "tools/list" ≠ PyStr.ofString "tools/call" := by decide
  unfold LocalMCPAdapter.dispatch
  split
  · rename_i hlist
    rw [writable_resultResponse, writable_toolsList]
    refine and_congr_right fun _ => ?_
    constructor
    · intro h
      exact ⟨fun _ => h, fun habs => absurd (hlist.symm.trans habs) hdistinct⟩
    · intro h
      exact h.1 hlist
  rename_i hnoList
  split
  · rename_i hcall
    have hends : EndsHarmless py (adapter.callTool py limit (params.get "name") (params.get "arguments")
        requestContext w).1 ↔ CallHarmless py limit adapter params requestContext w.outside := callTool_ends
    have hcalled : Writable py 0 (match (adapter.callTool py limit (params.get "name")
        (params.get "arguments") requestContext w).1 with
          | .ok result => resultResponse requestId result
          | .error e => raisedResponse requestId e) ↔
        Writable py 1 requestId ∧ CallHarmless py limit adapter params requestContext w.outside := by
      rw [← hends]
      generalize (adapter.callTool py limit (params.get "name") (params.get "arguments")
        requestContext w).1 = ended
      cases ended with
      | ok result => exact writable_resultResponse
      | error e => exact writable_raisedResponse
    refine hcalled.trans (and_congr_right fun _ => ?_)
    constructor
    · intro h
      exact ⟨fun habs => absurd habs hnoList, fun _ => h⟩
    · intro h
      exact h.2 hcall
  · rename_i hnoCall
    rw [writable_fixedError (by decide)]
    constructor
    · intro hid
      exact ⟨hid, fun habs => absurd habs hnoList, fun habs => absurd habs hnoCall⟩
    · intro h
      exact h.1

theorem writable_invalidRequest {requestId : Json} :
    Writable py 0 (invalidRequest requestId) ↔ Writable py 1 requestId :=
  writable_fixedError (by decide)

/-- The methods of a connection, and what their answers show. -/
theorem requestHarmless_iff {server : MCPServer W Ctx} {requestId : Json} {request : Members}
    {method : PyStr} {params : Members} (hversion : isText (request.get "jsonrpc") "2.0" = true)
    (hmethod : methodAndParams request = some (method, params)) :
    RequestHarmless py limit server requestId request requestContext c ↔
      Writable py 1 requestId ∧
        (method = PyStr.ofString "initialize" → c.phase = .new → (requestedVersion params).isSome →
          InfoHarmless server.serverInfo) ∧
        (method = PyStr.ofString "tools/list" → c.phase = .ready → ListHarmless py server.adapter) ∧
        (method = PyStr.ofString "tools/call" → c.phase = .ready →
          CallHarmless py limit server.adapter params requestContext c.world.outside) := by
  have hparams : ∀ m params', paramsOf request m = some params' ↔
      method = PyStr.ofString m ∧ params = params' := by
    intro m params'
    unfold paramsOf
    rw [if_pos hversion, hmethod]
    simp
  constructor
  · intro h
    exact ⟨h.id, fun hm => h.greeting params ((hparams _ _).mpr ⟨hm, rfl⟩),
      fun hm => h.list params ((hparams _ _).mpr ⟨hm, rfl⟩),
      fun hm => h.call params ((hparams _ _).mpr ⟨hm, rfl⟩)⟩
  · rintro ⟨hid, hgreeting, hlist, hcall⟩
    refine ⟨hid, ?_, ?_, ?_⟩
    · intro params' hsome
      obtain ⟨hm, rfl⟩ := (hparams _ _).mp hsome
      exact hgreeting hm
    · intro params' hsome
      obtain ⟨hm, rfl⟩ := (hparams _ _).mp hsome
      exact hlist hm
    · intro params' hsome
      obtain ⟨hm, rfl⟩ := (hparams _ _).mp hsome
      exact hcall hm

/-- A method with a fixed answer. -/
theorem fixed_iff {requestId : Json} {p q r : Prop} (hp : p) (hq : q) (hr : r) :
    Writable py 1 requestId ↔ Writable py 1 requestId ∧ p ∧ q ∧ r :=
  (and_iff_left ⟨hp, hq, hr⟩).symm

/-- A request that the connection lets through is one for the adapter. -/
theorem handle_eq_dispatch {adapter : LocalMCPAdapter W Ctx} {request : Members} {method : PyStr}
    {params : Members} {w : World W} (hversion : isText (request.get "jsonrpc") "2.0" = true)
    (hmethod : methodAndParams request = some (method, params)) :
    adapter.handle py limit (.object request) requestContext w =
      adapter.dispatch py limit ((request.get "id").getD .null) method params requestContext
        (w.note (.consulted (.object request))) := by
  unfold LocalMCPAdapter.handle
  simp only [hversion, hmethod, Bool.not_true, Bool.false_eq_true, if_false]

theorem writable_respond {server : MCPServer W Ctx} {request : Members} {method : PyStr}
    {params : Members} (hversion : isText (request.get "jsonrpc") "2.0" = true)
    (hmethod : methodAndParams request = some (method, params)) :
    Writable py 0 (server.respond py limit request method params requestContext c).1 ↔
      RequestHarmless py limit server ((request.get "id").getD .null) request requestContext c := by
  have hempty : Writable py 1 (.object []) :=
    Json.writable_object.mpr ⟨room_le (by decide), fun m habs => absurd habs List.not_mem_nil⟩
  have hnames : ∀ a b : String, PyStr.ofString a ≠ PyStr.ofString b → ∀ p : Prop,
      method = PyStr.ofString a → method = PyStr.ofString b → p := by
    intro a b hne p ha hb
    exact absurd (ha.symm.trans hb) hne
  rw [requestHarmless_iff hversion hmethod]
  unfold MCPServer.respond
  simp only
  split
  · rename_i hinitialize
    have hlist := hnames "initialize" "tools/list" (by decide)
    have hcall := hnames "initialize" "tools/call" (by decide)
    unfold MCPServer.initializeConnection
    split
    · rename_i hphase
      rw [writable_fixedError (by decide)]
      exact fixed_iff (fun _ habs => absurd habs hphase) (hlist _ hinitialize) (hcall _ hinitialize)
    rename_i hnew
    split
    · rename_i hinvalid
      rw [writable_fixedError (by decide), hinvalid]
      exact fixed_iff (fun _ _ habs => (by cases habs)) (hlist _ hinitialize) (hcall _ hinitialize)
    · rename_i version hrequested
      rw [writable_resultResponse, writable_initializeResult, hrequested]
      refine and_congr_right fun _ => ?_
      constructor
      · intro h
        exact ⟨fun _ _ _ => h, hlist _ hinitialize, hcall _ hinitialize⟩
      · intro h
        exact h.1 hinitialize (not_not.mp hnew) rfl
  rename_i hother
  split
  · rename_i hnotice
    have hlist := hnames "notifications/initialized" "tools/list" (by decide)
    have hcall := hnames "notifications/initialized" "tools/call" (by decide)
    unfold MCPServer.markReady
    split
    · rw [writable_fixedError (by decide)]
      exact fixed_iff (fun habs => absurd habs hother) (hlist _ hnotice) (hcall _ hnotice)
    · rw [writable_resultResponse, and_iff_left hempty]
      exact fixed_iff (fun habs => absurd habs hother) (hlist _ hnotice) (hcall _ hnotice)
  split
  · rename_i hping
    rw [writable_resultResponse, and_iff_left hempty]
    exact fixed_iff (fun habs => absurd habs hother) (hnames "ping" "tools/list" (by decide) _ hping)
      (hnames "ping" "tools/call" (by decide) _ hping)
  split
  · rename_i hphase
    rw [writable_fixedError (by decide)]
    exact fixed_iff (fun habs => absurd habs hother) (fun _ habs => absurd habs hphase)
      (fun _ habs => absurd habs hphase)
  · rename_i hphase
    have hready : c.phase = .ready := not_not.mp hphase
    rw [handle_eq_dispatch hversion hmethod, writable_dispatch]
    refine and_congr_right fun _ => ?_
    constructor
    · rintro ⟨hlist, hcall⟩
      exact ⟨fun habs => absurd habs hother, fun hm _ => hlist hm, fun hm _ => hcall hm⟩
    · rintro ⟨_, hlist, hcall⟩
      exact ⟨fun hm => hlist hm hready, fun hm => hcall hm hready⟩

/-- A message that is no request is answered with its `id`. -/
theorem requestHarmless_of_none {server : MCPServer W Ctx} {requestId : Json} {request : Members}
    (h : ∀ m, paramsOf request m = none) :
    RequestHarmless py limit server requestId request requestContext c ↔ Writable py 1 requestId := by
  have hnot : ∀ m params, ¬ paramsOf request m = some params := by
    intro m params habs
    rw [h m] at habs
    cases habs
  constructor
  · intro hrequest
    exact hrequest.id
  · intro hid
    exact ⟨hid, fun _ habs => absurd habs (hnot _ _), fun _ habs => absurd habs (hnot _ _),
      fun _ habs => absurd habs (hnot _ _)⟩

/-- The response to a message, if there is one, is harmless. -/
abbrev AnswerWritable (py : PyRuntime) (answer : Option Json) : Prop :=
  ∀ response, answer = some response → Writable py 0 response

theorem answerWritable_some {response : Json} : AnswerWritable py (some response) ↔ Writable py 0 response := by
  constructor
  · intro h
    exact h response rfl
  · rintro h _ hsame
    rw [← Option.some.inj hsame]
    exact h

theorem answerWritable_none : AnswerWritable py none := by
  intro response habs
  cases habs

theorem handleObject_writable_iff {server : MCPServer W Ctx} {request : Members} {requestId : Json}
    (hid : request.get "id" = some requestId) :
    AnswerWritable py (server.handleObject py limit request requestContext c).1 ↔
      RequestHarmless py limit server requestId request requestContext c := by
  have hrequestId : (request.get "id").getD .null = requestId := by rw [hid]; rfl
  have hrequest : (!request.has "id") = false := by
    unfold Members.has
    rw [hid]
    rfl
  unfold MCPServer.handleObject
  simp only [hrequestId, hrequest, Bool.false_eq_true, if_false]
  cases hversion : isText (request.get "jsonrpc") "2.0" with
  | false =>
    have hnone : ∀ m, paramsOf request m = none := by
      intro m
      unfold paramsOf
      rw [hversion]
      rfl
    simp only [Bool.not_false, if_true]
    rw [answerWritable_some, writable_invalidRequest, requestHarmless_of_none hnone]
  | true =>
    simp only [Bool.not_true, Bool.false_eq_true, if_false]
    cases hmethod : methodAndParams request with
    | none =>
      have hnone : ∀ m, paramsOf request m = none := by
        intro m
        unfold paramsOf
        rw [hversion, hmethod]
        rfl
      simp only
      rw [answerWritable_some, writable_invalidRequest, requestHarmless_of_none hnone]
    | some found =>
      obtain ⟨method, params⟩ := found
      simp only
      rw [answerWritable_some, writable_respond hversion hmethod, hrequestId]

/-- **When the answer to a message can be written.** -/
theorem handle_writable_iff {server : MCPServer W Ctx} {request : Json} :
    AnswerWritable py (server.handle py limit request requestContext c).1 ↔
      MessageHarmless py limit server request requestContext c := by
  have hnull : Writable py 1 .null := Json.writable_of_everywhere rfl (room_le (by decide)) rfl rfl
  unfold MCPServer.handle MessageHarmless
  split
  · rename_i request
    cases hid : Members.get request "id" with
    | none =>
      have hanswer := handleObject_answers py limit server request requestContext c
      rw [hid] at hanswer
      simp only at hanswer
      rw [hanswer]
      refine iff_of_true answerWritable_none ?_
      intro members requestId hsame habs
      obtain rfl := Json.object.inj hsame
      rw [hid] at habs
      cases habs
    | some requestId =>
      rw [handleObject_writable_iff hid]
      constructor
      · intro h members requestId' hsame hsome
        obtain rfl := Json.object.inj hsame
        obtain rfl := Option.some.inj (hid.symm.trans hsome)
        exact h
      · intro h
        exact h _ _ rfl hid
  · rename_i hother
    refine iff_of_true (answerWritable_some.mpr (writable_invalidRequest.mpr hnull)) ?_
    intro members requestId habs
    exact absurd habs (hother members)

end Messages

/-! ## Harmless lines -/

variable (loads : PyStr → Loaded) (server : MCPServer W Ctx) (requestContext : Ctx)

/-- What a line is due, and the connection after it. -/
def due (c : Connection W) (rawLine : PyStr) : Option Json × Connection W :=
  if (PyStr.strip rawLine).isEmpty then (none, c)
  else
    match loads (PyStr.strip rawLine) with
    | .value request => server.handle py limit request requestContext c
    | .jsonDecodeError => (some parseError, c)
    | _ => (none, c)

/-- The responses that are due to the lines, in order. -/
def dueResponses (c : Connection W) : List PyStr → List Json
  | [] => []
  | rawLine :: rest =>
    (due py limit loads server requestContext c rawLine).1.toList ++
      dueResponses (due py limit loads server requestContext c rawLine).2 rest

/-- A line that is not blank is a harmless message, or raises the one exception that is caught. -/
def LineHarmless (c : Connection W) (rawLine : PyStr) : Prop :=
  PyStr.strip rawLine ≠ [] →
    match loads (PyStr.strip rawLine) with
    | .value request => MessageHarmless py limit server request requestContext c
    | .jsonDecodeError => True
    | .valueError => False
    | .recursionError => False

/-- Each line is harmless to the connection that it meets. -/
def LinesHarmless (c : Connection W) : List PyStr → Prop
  | [] => True
  | rawLine :: rest => LineHarmless py limit loads server requestContext c rawLine ∧
      LinesHarmless (due py limit loads server requestContext c rawLine).2 rest

section Lines

variable {py limit loads server requestContext} {c : Connection W} {rawLine : PyStr}

theorem compactStyle_printable : Json.JsonStyle.Printable compactStyle := ⟨by decide, by decide⟩

/-- A response is written as one line, or not at all. -/
theorem write_of_writable {response : Json} (h : Writable py 0 response) :
    write py response = .ok (lineOf py response) := by
  obtain ⟨s, hdumps, hencodable⟩ := (Json.dumps_writable_iff compactStyle_printable).mpr h
  obtain rfl := Json.dumps_eq_text hdumps
  unfold write
  rw [hdumps]
  exact if_pos hencodable

theorem write_of_not_writable {response : Json} (h : ¬ Writable py 0 response) :
    ∃ crash, write py response = .error crash := by
  unfold write
  cases hdumps : Json.dumps py compactStyle response with
  | error e => cases e <;> exact ⟨_, rfl⟩
  | ok s =>
    refine ⟨.unicodeEncodeError, if_neg fun hencodable => h ?_⟩
    exact (Json.dumps_writable_iff compactStyle_printable).mp ⟨s, hdumps, hencodable⟩

/-- What is due is the answer, if the line gets that far. -/
theorem answerLine_cases (py : PyRuntime) (limit : Nat) (loads : PyStr → Loaded) (server : MCPServer W Ctx)
    (requestContext : Ctx) (c : Connection W) (rawLine : PyStr) :
    (answerLine py limit loads server requestContext c rawLine =
        .ok (due py limit loads server requestContext c rawLine) ∧
      (LineHarmless py limit loads server requestContext c rawLine ↔
        AnswerWritable py (due py limit loads server requestContext c rawLine).1)) ∨
    (∃ crash, answerLine py limit loads server requestContext c rawLine = .error crash) ∧
      ¬ LineHarmless py limit loads server requestContext c rawLine := by
  unfold answerLine due LineHarmless
  simp only
  cases hline : PyStr.strip rawLine with
  | nil =>
    refine Or.inl ⟨rfl, iff_of_true (fun habs => absurd rfl habs) ?_⟩
    exact answerWritable_none
  | cons d line =>
    have hnonblank : d :: line ≠ [] := by simp
    simp only [List.isEmpty_cons, Bool.false_eq_true, if_false]
    cases loads (d :: line) with
    | value request =>
      refine Or.inl ⟨rfl, ?_⟩
      rw [handle_writable_iff]
      exact ⟨fun h => h hnonblank, fun h _ => h⟩
    | jsonDecodeError =>
      have hnull : Writable py 1 .null := Json.writable_of_everywhere rfl (room_le (by decide)) rfl rfl
      refine Or.inl ⟨rfl, iff_of_true (fun _ => trivial) (answerWritable_some.mpr ?_)⟩
      exact (writable_fixedError (by decide)).mpr hnull
    | valueError => exact Or.inr ⟨⟨_, rfl⟩, fun habs => habs hnonblank⟩
    | recursionError => exact Or.inr ⟨⟨_, rfl⟩, fun habs => habs hnonblank⟩

/-- **One line.** -/
theorem serveLine_of_harmless (h : LineHarmless py limit loads server requestContext c rawLine)
    (out : PyStr) :
    serveLine py limit loads server requestContext (c, out) rawLine =
      .ok ((due py limit loads server requestContext c rawLine).2,
        out ++ (due py limit loads server requestContext c rawLine).1.toList.flatMap (lineOf py)) := by
  rcases answerLine_cases py limit loads server requestContext c rawLine with ⟨hanswer, hiff⟩ | ⟨_, habs⟩
  · have hwritable := hiff.mp h
    unfold serveLine
    simp only
    rw [hanswer]
    generalize due py limit loads server requestContext c rawLine = answered at hwritable ⊢
    obtain ⟨answer, c'⟩ := answered
    cases answer with
    | none =>
      show Except.ok (c', out) = Except.ok (c', out ++ [])
      rw [List.append_nil]
    | some response =>
      have hwrite := write_of_writable (hwritable response rfl)
      show (do let line ← write py response; return (c', out ++ line)) = Except.ok (c', _)
      rw [hwrite]
      show Except.ok (c', out ++ lineOf py response) = Except.ok (c', out ++ (lineOf py response ++ []))
      rw [List.append_nil]
  · exact absurd h habs

theorem serveLine_of_not_harmless (h : ¬ LineHarmless py limit loads server requestContext c rawLine)
    (out : PyStr) :
    ∃ crash, serveLine py limit loads server requestContext (c, out) rawLine = .error crash := by
  unfold serveLine
  simp only
  rcases answerLine_cases py limit loads server requestContext c rawLine with ⟨hanswer, hiff⟩ | ⟨⟨crash, hcrash⟩, _⟩
  · have hnot := (not_congr hiff).mp h
    rw [hanswer]
    generalize due py limit loads server requestContext c rawLine = answered at hnot ⊢
    obtain ⟨answer, c'⟩ := answered
    cases answer with
    | none => exact absurd answerWritable_none hnot
    | some response =>
      obtain ⟨crash, hwrite⟩ := write_of_not_writable (mt answerWritable_some.mpr hnot)
      refine ⟨crash, ?_⟩
      show (do let line ← write py response; return (c', out ++ line)) = Except.error crash
      rw [hwrite]
      rfl
  · rw [hcrash]
    exact ⟨crash, rfl⟩

/-- **The loop**, on lines that are harmless. -/
theorem serveStdio_of_harmless {lines : List PyStr}
    (h : LinesHarmless py limit loads server requestContext c lines) (out : PyStr) :
    ∃ c', serveStdio py limit loads server requestContext (c, out) lines =
      .ok (c', out ++ (dueResponses py limit loads server requestContext c lines).flatMap (lineOf py)) := by
  induction lines generalizing c out with
  | nil => exact ⟨c, by rw [dueResponses, List.flatMap_nil, List.append_nil]; rfl⟩
  | cons rawLine rest ih =>
    obtain ⟨hline, hrest⟩ := h
    obtain ⟨c', hserved⟩ := ih hrest
      (out ++ (due py limit loads server requestContext c rawLine).1.toList.flatMap (lineOf py))
    refine ⟨c', ?_⟩
    rw [dueResponses, List.flatMap_append, ← List.append_assoc, ← hserved]
    unfold serveStdio
    rw [List.foldlM_cons, serveLine_of_harmless hline]
    rfl

/-- The first line that is not harmless ends it. -/
theorem serveStdio_of_not_harmless {lines : List PyStr}
    (h : ¬ LinesHarmless py limit loads server requestContext c lines) (out : PyStr) :
    ∃ crash, serveStdio py limit loads server requestContext (c, out) lines = .error crash := by
  induction lines generalizing c out with
  | nil => exact absurd trivial h
  | cons rawLine rest ih =>
    unfold serveStdio
    rw [List.foldlM_cons]
    by_cases hline : LineHarmless py limit loads server requestContext c rawLine
    · rw [serveLine_of_harmless hline]
      exact ih (fun hrest => h ⟨hline, hrest⟩) _
    · obtain ⟨crash, hcrash⟩ := serveLine_of_not_harmless hline out
      rw [hcrash]
      exact ⟨crash, rfl⟩

end Lines

/-- **What the loop survives.**  It reads all lines and writes exactly the responses that are due, in order
    and each on a line of its own, if and only if each line is harmless to the connection it meets. -/
theorem stdio_survives_iff {W Ctx : Type} (py : PyRuntime) (limit : Nat) (loads : PyStr → Loaded)
    (server : MCPServer W Ctx) (requestContext : Ctx) (c : Connection W) (lines : List PyStr) :
    ((∃ c', serveStdio py limit loads server requestContext (c, []) lines =
        .ok (c', (dueResponses py limit loads server requestContext c lines).flatMap (lineOf py))) ∧
      ∀ response ∈ dueResponses py limit loads server requestContext c lines,
        ∃ line, lineOf py response = line ++ ['\n'.codePoint] ∧ '\n'.codePoint ∉ line) ↔
      LinesHarmless py limit loads server requestContext c lines := by
  constructor
  · rintro ⟨⟨c', hserved⟩, _⟩
    by_contra hnot
    obtain ⟨crash, hcrash⟩ := serveStdio_of_not_harmless hnot []
    rw [hserved] at hcrash
    cases hcrash
  · intro h
    refine ⟨serveStdio_of_harmless h [], fun response _ => ?_⟩
    exact ⟨_, rfl, Json.no_newline compactStyle_printable response⟩

/-! ### Two lines that end the loop -/

def ping (requestId : Json) : Json :=
  .object [key "jsonrpc" (text "2.0"), key "id" requestId, key "method" (text "ping")]

/-- A ping whose `id` is a lone surrogate, written as an escape. -/
def lonePing : PyStr :=
  PyStr.ofString "\x7b\"jsonrpc\":\"2.0\",\"id\":\"\\ud800\",\"method\":\"ping\"\x7d"

/-- One digit more than the interpreter converts. -/
def manyDigits : PyStr := List.replicate 4301 '1'.codePoint

/-- The decoder, on these lines. -/
def sampleLoads (line : PyStr) : Loaded :=
  if line = lonePing then .value (ping (.string [⟨0xD800, by decide⟩]))
  else if 4300 < line.length ∧ line.all (fun d => decide (d = '1'.codePoint)) = true then .valueError
  else .jsonDecodeError

theorem strip_manyDigits : PyStr.strip manyDigits = manyDigits := by
  have hdigit : PyStr.isSpace '1'.codePoint = false := by decide
  unfold PyStr.strip manyDigits List.rdropWhile
  rw [List.dropWhile_replicate, hdigit]
  simp only [Bool.false_eq_true, if_false, List.reverse_replicate]
  rw [List.dropWhile_replicate, hdigit]
  simp only [Bool.false_eq_true, if_false, List.reverse_replicate]

theorem sampleLoads_manyDigits : sampleLoads manyDigits = .valueError := by
  have hother : manyDigits ≠ lonePing := by
    intro habs
    have hlength := congrArg List.length habs
    rw [manyDigits, List.length_replicate] at hlength
    exact absurd hlength (by decide)
  have hdigits : 4300 < manyDigits.length ∧
      manyDigits.all (fun d => decide (d = '1'.codePoint)) = true := by
    unfold manyDigits
    rw [List.length_replicate, List.all_replicate]
    exact ⟨by decide, by simp⟩
  unfold sampleLoads
  rw [if_neg hother, if_pos hdigits]

/-- **The loop does not survive every line**: a client ends it with its choice of an `id`, or with a number
    that is too long. -/
theorem ended_by_one_line :
    serveStdio .plain 10 sampleLoads bareServer () (.new (), []) [lonePing] =
        .error .unicodeEncodeError ∧
      serveStdio .plain 10 sampleLoads bareServer () (.new (), []) [manyDigits] = .error .valueError := by
  refine ⟨rfl, ?_⟩
  have hanswer : answerLine .plain 10 sampleLoads bareServer () (.new ()) manyDigits = .error .valueError := by
    unfold answerLine
    rw [strip_manyDigits]
    simp only [sampleLoads_manyDigits]
    rfl
  unfold serveStdio
  rw [List.foldlM_cons]
  unfold serveLine
  rw [hanswer]
  rfl

end FinancialRag.Mcp
