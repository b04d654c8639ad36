/-
  What an adapter lets through, over whole sequences of messages.

  `handle_trace`: what happens during one message is at most a question to the hook and then an
  invocation, and an invocation is `Permitted`.  So every handler that was ever invoked was invoked for a
  call that passed the allowlist, the registry, the validator and the hook.

  The second half is about TWO adapters.  Whatever is registered outside the allowlist can be changed at
  will: no response shows it.
-/
import Mathlib.Data.List.Lex
import FinancialRag.Mcp.LocalAdapter

set_option linter.unusedVariables false

namespace FinancialRag.Mcp

variable {W Ctx : Type} (py : PyRuntime) (limit : Nat)

/-- The responses to a sequence of messages, and the world after them. -/
def serve (adapter : LocalMCPAdapter W Ctx) (w : World W) : List (Json × Ctx) → List Json × World W
  | [] => ([], w)
  | message :: rest =>
    let answered := adapter.handle py limit message.1 message.2 w
    let served := serve adapter answered.2 rest
    (answered.1 :: served.1, served.2)

/-! ## One message -/

/-- The arguments of a call: absent ones and `null` are none. -/
def ArgumentsAre (given : Option Json) (arguments : Members) : Prop :=
  given.getD (.object []) = .object arguments ∨ (given = some .null ∧ arguments = [])

/-- The message is a call of the tool `name` with these arguments. -/
def CallsTool (request : Json) (name : PyStr) (arguments : Members) : Prop :=
  ∃ members params : Members, request = .object members ∧
    isText (members.get "jsonrpc") "2.0" = true ∧
    methodAndParams members = some (PyStr.ofString "tools/call", params) ∧
    params.get "name" = some (.string name) ∧
    ArgumentsAre (params.get "arguments") arguments

/-- The hook, if there is one, was asked right before, and allowed it. -/
def HookAllowed (adapter : LocalMCPAdapter W Ctx) (name : PyStr) (arguments : Members) (requestContext : Ctx)
    (before : List Event) : Prop :=
  ∀ hook, adapter.governance.authorizationHook = some hook →
    ∃ reason earlier, before = earlier ++ [.asked name arguments (.decided true reason)] ∧
      ∃ world, (hook ⟨name, arguments, requestContext⟩ world).1.1 = .decided true reason

/-- The tool is on the allowlist and registered, and the validator accepts the arguments. -/
def Passes (adapter : LocalMCPAdapter W Ctx) (name : PyStr) (arguments : Members) : Prop :=
  name ∈ adapter.governance.allowedTools ∧
    ∃ tool, adapter.tools.get name = some tool ∧
      validateArguments py limit arguments tool.inputSchema = .ok arguments

/-- What may happen during a call. -/
inductive Granted (adapter : LocalMCPAdapter W Ctx) (name : PyStr) (arguments : Members)
    (requestContext : Ctx) : List Event → Prop
  | nothing : Granted adapter name arguments requestContext []
  | asked (answer : HookAnswer) :
      Granted adapter name arguments requestContext [.asked name arguments answer]
  | invoked {before : List Event} : Passes py limit adapter name arguments →
      (∀ e ∈ before, ∃ answer, e = .asked name arguments answer) →
      HookAllowed adapter name arguments requestContext before →
      Granted adapter name arguments requestContext (before ++ [.invoked name arguments])

section Steps

variable {py limit} {adapter : LocalMCPAdapter W Ctx} {name : PyStr} {arguments : Members}
  {requestContext : Ctx} {w : World W}

/-- Running a tool is noted, whatever comes of it. -/
theorem runTool_events (tool : LocalTool W Ctx) (name : PyStr) (arguments left : Members)
    (requestContext : Ctx) (w : World W) :
    (runTool tool name arguments left requestContext w).2.events = w.events ++ [.invoked name arguments] := by
  unfold runTool
  simp only
  split <;> rfl

theorem verdict_ok {answer : HookAnswer} (h : answer.verdict name = .ok ()) :
    ∃ reason, answer = .decided true reason := by
  cases answer with
  | raised => cases h
  | invalid => cases h
  | decided allowed reason =>
    cases allowed with
    | true => exact ⟨reason, rfl⟩
    | false =>
      cases reason with
      | none => cases h
      | some reason => cases reason <;> cases h

/-- The questions of one call. -/
abbrev Questions (name : PyStr) (arguments : Members) (events : List Event) : Prop :=
  ∀ e ∈ events, ∃ answer, e = .asked name arguments answer

/-- What the hook's part of `authorize` does, and what its success says. -/
theorem consult_events (py : PyRuntime) (limit : Nat) (adapter : LocalMCPAdapter W Ctx) (name : PyStr)
    (arguments : Members) (requestContext : Ctx) (w : World W) :
    ∃ before, (adapter.governance.consult name arguments requestContext w).2.events = w.events ++ before ∧
      Granted py limit adapter name arguments requestContext before ∧ Questions name arguments before ∧
      ∀ left, (adapter.governance.consult name arguments requestContext w).1 = .ok left →
        HookAllowed adapter name arguments requestContext before := by
  unfold ToolGovernance.consult
  cases hhook : adapter.governance.authorizationHook with
  | none =>
    refine ⟨[], (List.append_nil _).symm, .nothing, fun e habs => absurd habs List.not_mem_nil, ?_⟩
    intro left _ hook habs
    rw [hhook] at habs
    cases habs
  | some hook =>
    have hasked : askHook hook ⟨name, arguments, requestContext⟩ w =
        (.ok (hook ⟨name, arguments, requestContext⟩ w.outside).1, _) := rfl
    simp only
    rw [call_bind_ok hasked]
    generalize hanswered : hook ⟨name, arguments, requestContext⟩ w.outside = answered
    obtain ⟨⟨answer, left⟩, outside⟩ := answered
    refine ⟨[.asked name arguments answer], ?_, .asked answer, ?_, ?_⟩
    · cases answer.verdict name with
      | ok u => rfl
      | error e => rfl
    · intro e he
      exact ⟨answer, List.mem_singleton.mp he⟩
    · intro left' hok hook' hhook'
      obtain rfl : hook = hook' := Option.some.inj (hhook.symm.trans hhook')
      cases hverdict : answer.verdict name with
      | ok u =>
        obtain ⟨reason, rfl⟩ := verdict_ok hverdict
        exact ⟨reason, [], rfl, w.outside, by rw [hanswered]⟩
      | error e =>
        rw [hverdict] at hok
        cases hok

/-- The allowlist is checked again before the hook is asked; it has not changed. -/
theorem authorize_eq (arguments : Members) (requestContext : Ctx) (w : World W) (hallowed : name ∈ adapter.governance.allowedTools) :
    adapter.governance.authorize name arguments requestContext w =
      adapter.governance.consult name arguments requestContext w := by
  refine call_bind_ok (a := ()) ?_
  unfold ToolGovernance.ensureAllowed ToolGovernance.isAllowed
  rw [if_pos (decide_eq_true hallowed)]
  rfl

/-- A validated call hands the arguments on unchanged. -/
theorem validateArguments_eq {schema validated : Members}
    (h : validateArguments py limit arguments schema = .ok validated) : validated = arguments := by
  unfold validateArguments at h
  simp only at h
  cases hvalidate : validate py limit (.object arguments) (if schema.has "type" then schema
    else schema ++ [(PyStr.ofString "type", .string (PyStr.ofString "object"))]) (PyStr.ofString "$") with
  | ok u =>
    rw [hvalidate] at h
    exact (Except.ok.inj h).symm
  | error e =>
    rw [hvalidate] at h
    cases h

theorem callRegistered_events (hallowed : name ∈ adapter.governance.allowedTools) :
    ∃ events, (adapter.callRegistered py limit name arguments requestContext w).2.events =
      w.events ++ events ∧ Granted py limit adapter name arguments requestContext events := by
  unfold LocalMCPAdapter.callRegistered
  cases htool : adapter.tools.get name with
  | none => exact ⟨[], (List.append_nil _).symm, .nothing⟩
  | some tool =>
    simp only
    cases hvalidate : validateArguments py limit arguments tool.inputSchema with
    | error e => exact ⟨[], (List.append_nil _).symm, .nothing⟩
    | ok validated =>
      obtain rfl := validateArguments_eq hvalidate
      rw [call_bind_ok (show lift (W := W) (.ok validated) w = (.ok validated, w) from rfl)]
      obtain ⟨before, hbefore, hgranted, hquestions, hallow⟩ :=
        consult_events py limit adapter name validated requestContext w
      have hauthorize := authorize_eq validated requestContext w hallowed
      generalize hconsulted : adapter.governance.consult name validated requestContext w = consulted at *
      obtain ⟨result, w'⟩ := consulted
      cases result with
      | error e =>
        rw [call_bind_error hauthorize]
        exact ⟨before, hbefore, hgranted⟩
      | ok left =>
        rw [call_bind_ok hauthorize]
        have hpasses : Passes py limit adapter name validated := ⟨hallowed, tool, htool, hvalidate⟩
        have hrun := runTool_events tool name validated left requestContext w'
        refine ⟨before ++ [.invoked name validated], ?_,
          .invoked hpasses hquestions (hallow left rfl)⟩
        generalize hran : runTool tool name validated left requestContext w' = ran at hrun
        obtain ⟨answer, w''⟩ := ran
        have hevents : w''.events = w.events ++ (before ++ [.invoked name validated]) := by
          rw [← List.append_assoc, ← hbefore]
          exact hrun
        cases answer with
        | error e =>
          rw [call_bind_error hran]
          exact hevents
        | ok answer =>
          rw [call_bind_ok hran]
          cases toMcpResult py answer with
          | some result => exact hevents
          | none => exact hevents

theorem ensureAllowed_cases (adapter : LocalMCPAdapter W Ctx) (name : PyStr) (w : World W) :
    (name ∈ adapter.governance.allowedTools ∧ adapter.governance.ensureAllowed name w = (.ok (), w)) ∨
      (name ∉ adapter.governance.allowedTools ∧ adapter.governance.ensureAllowed name w =
        (.error (.mcp .toolNotAllowed (toolMessage name " is not in the allowlist")), w)) := by
  unfold ToolGovernance.ensureAllowed ToolGovernance.isAllowed
  by_cases hallowed : name ∈ adapter.governance.allowedTools
  · rw [if_pos (decide_eq_true hallowed)]
    exact Or.inl ⟨hallowed, rfl⟩
  · rw [if_neg (by simpa using hallowed)]
    exact Or.inr ⟨hallowed, rfl⟩

theorem ensured_events (py : PyRuntime) (limit : Nat) (adapter : LocalMCPAdapter W Ctx) (name : PyStr)
    (arguments : Members) (requestContext : Ctx) (w : World W) :
    ∃ events, ((do adapter.governance.ensureAllowed name
                   adapter.callRegistered py limit name arguments requestContext : Call W Members) w).2.events =
      w.events ++ events ∧ Granted py limit adapter name arguments requestContext events := by
  rcases ensureAllowed_cases adapter name w with ⟨hallowed, hensure⟩ | ⟨_, hensure⟩
  · rw [call_bind_ok hensure]
    exact callRegistered_events hallowed
  · rw [call_bind_error hensure]
    exact ⟨[], (List.append_nil _).symm, .nothing⟩

theorem callTool_events (py : PyRuntime) (limit : Nat) (adapter : LocalMCPAdapter W Ctx)
    (givenName given : Option Json) (requestContext : Ctx) (w : World W) :
    ∃ events, (adapter.callTool py limit givenName given requestContext w).2.events = w.events ++ events ∧
      (events = [] ∨ ∃ name arguments, givenName = some (.string name) ∧ ArgumentsAre given arguments ∧
        Granted py limit adapter name arguments requestContext events) := by
  have hnothing : ∃ events, w.events = w.events ++ events ∧ (events = [] ∨
      ∃ name arguments, givenName = some (.string name) ∧ ArgumentsAre given arguments ∧
        Granted py limit adapter name arguments requestContext events) :=
    ⟨[], (List.append_nil _).symm, Or.inl rfl⟩
  unfold LocalMCPAdapter.callTool
  split
  · rename_i c name
    cases hgetD : given.getD (.object []) with
    | null =>
      have hgiven : given = some .null := by
        cases given with
        | none => cases hgetD
        | some v => exact congrArg some hgetD
      obtain ⟨events, hevents, hgranted⟩ := ensured_events py limit adapter (c :: name) [] requestContext w
      exact ⟨events, hevents, Or.inr ⟨c :: name, [], rfl, Or.inr ⟨hgiven, rfl⟩, hgranted⟩⟩
    | object arguments =>
      obtain ⟨events, hevents, hgranted⟩ := ensured_events py limit adapter (c :: name) arguments requestContext w
      exact ⟨events, hevents, Or.inr ⟨c :: name, arguments, rfl, Or.inl hgetD, hgranted⟩⟩
    | bool b => exact hnothing
    | int n => exact hnothing
    | float x => exact hnothing
    | string s => exact hnothing
    | array items => exact hnothing
  · exact hnothing

/-- **What happens during one message.** -/
theorem handle_trace (py : PyRuntime) (limit : Nat) (adapter : LocalMCPAdapter W Ctx) (request : Json)
    (requestContext : Ctx) (w : World W) :
    ∃ events, (adapter.handle py limit request requestContext w).2.events =
      w.events ++ .consulted request :: events ∧
      (events = [] ∨ ∃ name arguments, CallsTool request name arguments ∧
        Granted py limit adapter name arguments requestContext events) := by
  unfold LocalMCPAdapter.handle
  simp only
  split
  · rename_i members
    split
    · exact ⟨[], rfl, Or.inl rfl⟩
    rename_i hversion
    rw [Bool.not_eq_true', Bool.not_eq_false] at hversion
    split
    · exact ⟨[], rfl, Or.inl rfl⟩
    rename_i method params hmethod
    unfold LocalMCPAdapter.dispatch
    split
    · exact ⟨[], rfl, Or.inl rfl⟩
    split
    · rename_i hcall
      obtain ⟨events, hevents, hgranted⟩ := callTool_events py limit adapter (params.get "name")
        (params.get "arguments") requestContext (w.note (.consulted (.object members)))
      refine ⟨events, hevents.trans (List.append_assoc _ _ _), hgranted.imp id ?_⟩
      rintro ⟨name, arguments, hname, harguments, hevents⟩
      refine ⟨name, arguments, ⟨members, params, rfl, hversion, ?_, hname, harguments⟩, hevents⟩
      rw [hmethod, hcall]
    · exact ⟨[], rfl, Or.inl rfl⟩
  · exact ⟨[], rfl, Or.inl rfl⟩

/-! ## Many messages -/

theorem HookAllowed.prepend {before : List Event}
    (h : HookAllowed adapter name arguments requestContext before) (earlier : List Event) :
    HookAllowed adapter name arguments requestContext (earlier ++ before) := by
  intro hook hhook
  obtain ⟨reason, events, hbefore, hworld⟩ := h hook hhook
  refine ⟨reason, earlier ++ events, ?_, hworld⟩
  rw [hbefore, List.append_assoc]

/-- An invocation among the events of a call is that of the call. -/
theorem Granted.invoked_of_mem {events before after : List Event} {name' : PyStr} {arguments' : Members}
    (h : Granted py limit adapter name arguments requestContext events) (request : Json)
    (hsplit : .consulted request :: events = before ++ .invoked name' arguments' :: after) :
    name' = name ∧ arguments' = arguments ∧ Passes py limit adapter name arguments ∧
      HookAllowed adapter name arguments requestContext before := by
  have hmem : Event.invoked name' arguments' ∈ Event.consulted request :: events := by
    rw [hsplit]
    exact List.mem_append_right _ List.mem_cons_self
  cases h with
  | nothing =>
    cases List.mem_singleton.mp hmem
  | asked answer =>
    rcases List.mem_cons.mp hmem with habs | hmem
    · cases habs
    · cases List.mem_singleton.mp hmem
  | @invoked questions hpasses hquestions hallowed =>
    have hnot : Event.invoked name' arguments' ∉ Event.consulted request :: questions := by
      intro habs
      rcases List.mem_cons.mp habs with habs | habs
      · cases habs
      · obtain ⟨answer, habs⟩ := hquestions _ habs
        cases habs
    -- everything before the invocation is a question
    rw [← List.cons_append] at hsplit
    rcases List.append_eq_append_iff.mp hsplit with ⟨middle, hbefore, hlast⟩ | ⟨middle, hquestion, hlast⟩
    · cases middle with
      | nil =>
        rw [List.append_nil] at hbefore
        obtain ⟨hsame, _⟩ := List.cons.inj hlast
        obtain ⟨rfl, rfl⟩ := Event.invoked.inj hsame
        rw [hbefore]
        exact ⟨rfl, rfl, hpasses, hallowed.prepend [.consulted request]⟩
      | cons e middle =>
        obtain ⟨_, htail⟩ := List.cons.inj hlast
        cases middle <;> cases htail
    · cases middle with
      | nil =>
        rw [List.append_nil] at hquestion
        obtain ⟨hsame, _⟩ := List.cons.inj hlast
        obtain ⟨rfl, rfl⟩ := Event.invoked.inj hsame
        rw [← hquestion]
        exact ⟨rfl, rfl, hpasses, hallowed.prepend [.consulted request]⟩
      | cons e middle =>
        obtain ⟨rfl, _⟩ := List.cons.inj hlast
        refine absurd ?_ hnot
        rw [hquestion]
        exact List.mem_append_right _ List.mem_cons_self

/-- A tool was invoked for this message, and rightly. -/
def Permitted (py : PyRuntime) (limit : Nat) (adapter : LocalMCPAdapter W Ctx)
    (messages : List (Json × Ctx)) (name : PyStr) (arguments : Members) (before : List Event) : Prop :=
  ∃ message ∈ messages, CallsTool message.1 name arguments ∧ Passes py limit adapter name arguments ∧
    HookAllowed adapter name arguments message.2 before

/-- **The run lemma.** -/
theorem serve_trace (py : PyRuntime) (limit : Nat) (adapter : LocalMCPAdapter W Ctx) (w : World W)
    (messages : List (Json × Ctx)) :
    ∃ events, (serve py limit adapter w messages).2.events = w.events ++ events ∧
      ∀ before after name arguments, events = before ++ .invoked name arguments :: after →
        Permitted py limit adapter messages name arguments before := by
  induction messages generalizing w with
  | nil =>
    refine ⟨[], (List.append_nil _).symm, ?_⟩
    intro before after name arguments habs
    cases before <;> cases habs
  | cons message rest ih =>
    obtain ⟨first, hfirst, hgranted⟩ := handle_trace py limit adapter message.1 message.2 w
    obtain ⟨events, hevents, hpermitted⟩ := ih (adapter.handle py limit message.1 message.2 w).2
    refine ⟨(.consulted message.1 :: first) ++ events, ?_, ?_⟩
    · rw [← List.append_assoc, ← hfirst]
      exact hevents
    · intro before after name arguments hsplit
      have hlater : ∀ before', events = before' ++ .invoked name arguments :: after →
          before = (.consulted message.1 :: first) ++ before' →
            Permitted py limit adapter (message :: rest) name arguments before := by
        rintro before' hevents' rfl
        obtain ⟨message', hmessage', hcalls, hpasses, hallowed⟩ := hpermitted before' after name arguments hevents'
        exact ⟨message', List.mem_cons_of_mem _ hmessage', hcalls, hpasses, hallowed.prepend _⟩
      have hnow : ∀ after', .consulted message.1 :: first = before ++ .invoked name arguments :: after' →
          Permitted py limit adapter (message :: rest) name arguments before := by
        intro after' hfirst'
        rcases hgranted with rfl | ⟨name', arguments', hcalls, hgranted⟩
        · have hmem : Event.invoked name arguments ∈ [Event.consulted message.1] := by
            rw [hfirst']
            exact List.mem_append_right _ List.mem_cons_self
          cases List.mem_singleton.mp hmem
        · obtain ⟨rfl, rfl, hpasses, hallowed⟩ := hgranted.invoked_of_mem message.1 hfirst'
          exact ⟨message, List.mem_cons_self, hcalls, hpasses, hallowed⟩
      rcases List.append_eq_append_iff.mp hsplit with ⟨middle, hbefore, hlast⟩ | ⟨middle, hfirst', hlast⟩
      · exact hlater middle hlast hbefore
      · cases middle with
        | nil =>
          rw [List.append_nil] at hfirst'
          exact hlater [] hlast.symm (by rw [hfirst', List.append_nil])
        | cons e middle =>
          obtain ⟨rfl, _⟩ := List.cons.inj hlast
          exact hnow middle hfirst'

end Steps

/-! ## Two adapters -/

/-- The same allowlist, hook and allowlisted registrations. -/
structure SameAllowed (adapter adapter' : LocalMCPAdapter W Ctx) : Prop where
  governance : adapter'.governance = adapter.governance
  tools : ∀ name ∈ adapter.governance.allowedTools, adapter'.tools.get name = adapter.tools.get name

section Indistinguishable

variable {py limit} {adapter adapter' : LocalMCPAdapter W Ctx}

theorem text_total (a b : PyStr) : decide (a < b) = false ∨ decide (b < a) = false := by
  rw [decide_eq_false_iff_not, decide_eq_false_iff_not]
  rcases le_total a b with hle | hle
  · exact Or.inr (not_lt.mpr hle)
  · exact Or.inl (not_lt.mpr hle)

theorem text_trans (a b c : PyStr) (hab : decide (b < a) = false) (hbc : decide (c < b) = false) :
    decide (c < a) = false := by
  rw [decide_eq_false_iff_not] at hab hbc ⊢
  exact not_lt.mpr ((not_lt.mp hab).trans (not_lt.mp hbc))

/-- The names of a list, in order, that are allowed: the order of registration does not show. -/
theorem allowedNames_congr (h : SameAllowed adapter adapter') :
    (PyList.sorted (fun a b => decide (a < b)) adapter'.tools.keys).filter adapter.governance.isAllowed =
      (PyList.sorted (fun a b => decide (a < b)) adapter.tools.keys).filter
        adapter.governance.isAllowed := by
  have hsorted : ∀ keys : List PyStr,
      ((PyList.sorted (fun a b => decide (a < b)) keys).filter adapter.governance.isAllowed).Pairwise
        fun a b => (!decide (b < a)) = true :=
    fun keys => (PyList.pairwise_sorted text_total text_trans keys).sublist List.filter_sublist
  have hnodup : ∀ keys : List PyStr, keys.Nodup →
      ((PyList.sorted (fun a b => decide (a < b)) keys).filter adapter.governance.isAllowed).Nodup :=
    fun keys hkeys => ((PyList.sorted_perm _ keys).nodup_iff.mpr hkeys).sublist List.filter_sublist
  have hperm : ((PyList.sorted (fun a b => decide (a < b)) adapter'.tools.keys).filter
      adapter.governance.isAllowed).Perm ((PyList.sorted (fun a b => decide (a < b))
        adapter.tools.keys).filter adapter.governance.isAllowed) := by
    refine (List.perm_ext_iff_of_nodup (hnodup _ adapter'.tools.nodup_keys)
      (hnodup _ adapter.tools.nodup_keys)).mpr fun name => ?_
    rw [List.mem_filter, List.mem_filter, PyList.mem_sorted, PyList.mem_sorted]
    refine and_congr_left fun hallowed => ?_
    rw [Dict.mem_keys_iff, Dict.mem_keys_iff, h.tools name (of_decide_eq_true hallowed)]
  refine hperm.eq_of_pairwise ?_ (hsorted _) (hsorted _)
  intro a b _ _ hab hba
  rw [Bool.not_eq_true', decide_eq_false_iff_not] at hab hba
  exact le_antisymm (not_lt.mp hab) (not_lt.mp hba)

theorem toolsList_congr (h : SameAllowed adapter adapter') : adapter'.toolsList = adapter.toolsList := by
  unfold LocalMCPAdapter.toolsList
  simp only [h.governance, allowedNames_congr h]
  refine congrArg (fun tools => [key "tools" (.array tools)]) (List.filterMap_congr fun name hname => ?_)
  rw [h.tools name (of_decide_eq_true (List.mem_filter.mp hname).2)]

theorem callRegistered_congr (h : SameAllowed adapter adapter') {name : PyStr}
    (hallowed : name ∈ adapter.governance.allowedTools) (arguments : Members) (requestContext : Ctx) :
    adapter'.callRegistered py limit name arguments requestContext =
      adapter.callRegistered py limit name arguments requestContext := by
  unfold LocalMCPAdapter.callRegistered
  rw [h.governance, h.tools name hallowed]

/-- The allowlist comes first: of a name that is not on it nothing else is looked at. -/
theorem ensured_congr (h : SameAllowed adapter adapter') (name : PyStr) (arguments : Members)
    (requestContext : Ctx) :
    (do adapter'.governance.ensureAllowed name
        adapter'.callRegistered py limit name arguments requestContext : Call W Members) =
      (do adapter.governance.ensureAllowed name
          adapter.callRegistered py limit name arguments requestContext : Call W Members) := by
  funext w
  rw [h.governance]
  rcases ensureAllowed_cases adapter name w with ⟨hallowed, hensure⟩ | ⟨_, hensure⟩
  · rw [call_bind_ok hensure, call_bind_ok hensure, callRegistered_congr h hallowed]
  · rw [call_bind_error hensure, call_bind_error hensure]

theorem callTool_congr (h : SameAllowed adapter adapter') (givenName given : Option Json)
    (requestContext : Ctx) :
    adapter'.callTool py limit givenName given requestContext =
      adapter.callTool py limit givenName given requestContext := by
  unfold LocalMCPAdapter.callTool
  split
  · rename_i c name
    cases given.getD (.object []) with
    | null => exact ensured_congr h _ _ _
    | object arguments => exact ensured_congr h _ _ _
    | bool b => rfl
    | int n => rfl
    | float x => rfl
    | string s => rfl
    | array items => rfl
  · rfl

theorem handle_congr (h : SameAllowed adapter adapter') (request : Json) (requestContext : Ctx)
    (w : World W) :
    adapter'.handle py limit request requestContext w = adapter.handle py limit request requestContext w := by
  have hdispatch : ∀ requestId method params w,
      adapter'.dispatch py limit requestId method params requestContext w =
        adapter.dispatch py limit requestId method params requestContext w := by
    intro requestId method params w
    unfold LocalMCPAdapter.dispatch
    rw [toolsList_congr h, callTool_congr h]
  unfold LocalMCPAdapter.handle
  simp only [hdispatch]

theorem serve_congr (h : SameAllowed adapter adapter') (messages : List (Json × Ctx)) (w : World W) :
    serve py limit adapter' w messages = serve py limit adapter w messages := by
  induction messages generalizing w with
  | nil => rfl
  | cons message rest ih => rw [serve, serve, handle_congr h, ih]

end Indistinguishable

/-- **The allowlist is a boundary.**  In every sequence of messages each invocation of a handler is one for
    a `tools/call` of an allowlisted, registered tool, with arguments that the validator accepts, and one
    that the hook, if there is one, was asked about right before and allowed.  And an adapter that differs
    in tools outside the allowlist only gives the same responses. -/
theorem allowlist_boundary {W Ctx : Type} (py : PyRuntime) (limit : Nat) (adapter : LocalMCPAdapter W Ctx)
    (outside : W) (messages : List (Json × Ctx)) :
    (∀ before after name arguments,
      (serve py limit adapter ⟨outside, []⟩ messages).2.events =
        before ++ .invoked name arguments :: after →
      Permitted py limit adapter messages name arguments before) ∧
    ∀ adapter', SameAllowed adapter adapter' →
      (serve py limit adapter' ⟨outside, []⟩ messages).1 = (serve py limit adapter ⟨outside, []⟩ messages).1 := by
  obtain ⟨events, hevents, hpermitted⟩ := serve_trace py limit adapter ⟨outside, []⟩ messages
  refine ⟨fun before after name arguments hsplit => ?_, fun adapter' h => by rw [serve_congr h]⟩
  refine hpermitted before after name arguments ?_
  rw [← hsplit, hevents, List.nil_append]

/-! ### Two tools, one of them allowed -/

def echo : PyStr := PyStr.ofString "echo"

/-- Only `echo` is allowed, and a hook allows every call. -/
def echoOnly : ToolGovernance Unit Unit where
  allowedTools := [echo]
  authorizationHook := some fun request w => ((.decided true none, request.arguments), w)
  nonempty := by decide

/-- A tool that returns its name. -/
def sampleTool (name : PyStr) (nonempty : name ≠ []) : LocalTool Unit Unit where
  name := name
  description := []
  inputSchema := []
  handler := fun _ w => (.returned (.value (.str name)), w)
  contextHandler := none
  nonempty := nonempty

def echoCall : Json :=
  .object [key "jsonrpc" (text "2.0"), key "id" (.int 1), key "method" (text "tools/call"),
    key "params" (.object [key "name" (.string echo)])]

/-- `echo` is invoked, after the hook has allowed it, and `secret` might as well not be registered. -/
theorem echo_permitted :
    ∃ adapter adapter', LocalMCPAdapter.ofTools echoOnly [sampleTool echo (by decide),
        sampleTool (PyStr.ofString "secret") (by decide)] = .ok adapter ∧
      LocalMCPAdapter.ofTools echoOnly [sampleTool echo (by decide)] = .ok adapter' ∧
      Permitted .plain 10 adapter [(echoCall, ())] echo []
        [.consulted echoCall, .asked echo [] (.decided true none)] ∧
      (serve .plain 10 adapter' ⟨(), []⟩ [(echoCall, ())]).1 =
        (serve .plain 10 adapter ⟨(), []⟩ [(echoCall, ())]).1 := by
  refine ⟨_, _, rfl, rfl, ?_, ?_⟩
  · exact (allowlist_boundary .plain 10 _ () [(echoCall, ())]).1 _ [] echo [] rfl
  · refine (allowlist_boundary .plain 10 _ () [(echoCall, ())]).2 _ ⟨rfl, fun name hname => ?_⟩
    obtain rfl := List.mem_singleton.mp hname
    rfl

end FinancialRag.Mcp
