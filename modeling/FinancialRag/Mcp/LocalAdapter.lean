/-
  `mcp/local_adapter.py` and `mcp/governance.py`: tools behind an allowlist and an authorization hook.

  The hook and the handlers are the operator's code.  Each is a function on a WORLD of its own; it may
  raise.  `World` also keeps, FOR THE STATEMENTS ONLY, what has been asked and invoked so far.

  Values are immutable here, but in one place aliasing shows: the hook is given a copy of the arguments
  whose nested values are SHARED with the handler.  So a hook says what it has left of them, and that is
  what the handler gets.
-/
import FinancialRag.Lib.Dict
import FinancialRag.Mcp.Schema

set_option linter.unusedVariables false

namespace FinancialRag.Mcp

/-! ## What a handler returns -/

/-- A Python value on its way to JSON.  A key is given by its `str`, an object of another class by its
    `str` if that does not raise. -/
inductive PyValue where
  | none
  | bool (b : Bool)
  | int (n : Int)
  | float (x : Double)
  | str (s : PyStr)
  | mapping (items : List (PyStr × PyValue))
  | sequence (items : List PyValue)
  | other (text : Option PyStr)

mutual

/-- `_json_safe`; nothing where it raises. -/
def jsonSafe : PyValue → Option Json
  | .none => some .null
  | .bool b => some (.bool b)
  | .int n => some (.int n)
  | .float x => some (.float x)
  | .str s => some (.string s)
  | .mapping items => (jsonSafeMembers items).map .object
  | .sequence items => (jsonSafeItems items).map .array
  | .other text => text.map .string

def jsonSafeItems : List PyValue → Option (List Json)
  | [] => some []
  | v :: rest =>
    match jsonSafe v, jsonSafeItems rest with
    | some v, some rest => some (v :: rest)
    | _, _ => none

/-- The display of `_json_safe`: of two keys with the same text the later value wins. -/
def jsonSafeMembers : List (PyStr × PyValue) → Option Members
  | [] => some []
  | (k, v) :: rest =>
    match jsonSafe v, jsonSafeMembers rest with
    | some v, some members =>
      match members.lookup k with
      | some later => some ((k, later) :: members.filter fun m => decide (m.1 ≠ k))
      | none => some ((k, v) :: members)
    | _, _ => none

end

inductive Answer where
  /-- `MCPToolResult` -/
  | mcpToolResult (content structuredContent : PyValue) (isError : Bool)
  /-- anything with the attributes of a tool result -/
  | toolResult (status output artifacts latencyMs error metadata : PyValue)
  | value (v : PyValue)

def key (name : String) (v : Json) : PyStr × Json := (PyStr.ofString name, v)

def text (s : String) : Json := .string (PyStr.ofString s)

/-- `json.dumps(…, ensure_ascii=False, sort_keys=True)`. -/
def sortedStyle : JsonStyle := ⟨", ", ": ", true⟩

section ToMcp

variable (py : PyRuntime)

/-- `[{"type": "text", "text": text}]`. -/
def textContent (s : PyStr) : Json := .array [.object [key "type" (text "text"), key "text" (.string s)]]

/-- The text of a result: the value itself if it is one, its dump otherwise. -/
def textOf (value : PyValue) (safe : Json) : Option PyStr :=
  match value with
  | .str s => some s
  | _ => (Json.dumps py sortedStyle safe).toOption

/-- `MCPToolResult.as_dict`. -/
def asDict (content structuredContent : PyValue) (isError : Bool) : Option Members := do
  let result := [key "content" (← jsonSafe content), key "isError" (.bool isError)]
  match structuredContent with
  | .none => return result
  | v => return result ++ [key "structuredContent" (← jsonSafe v)]

/-- `status != "success"`. -/
def failed : PyValue → Bool
  | .str s => decide (s ≠ PyStr.ofString "success")
  | _ => true

/-- `_tool_result_to_mcp`. -/
def toolResultToMcp (status output artifacts latencyMs error metadata : PyValue) : Option Members := do
  let structuredContent := Json.object [key "status" (← jsonSafe status), key "output" (← jsonSafe output),
    key "artifacts" (← jsonSafe artifacts), key "latency_ms" (← jsonSafe latencyMs),
    key "error" (← jsonSafe error), key "metadata" (← jsonSafe metadata)]
  return [key "content" (textContent (← textOf py output structuredContent)),
    key "structuredContent" structuredContent, key "isError" (.bool (failed status))]

/-- `_to_mcp_result`; nothing where it raises. -/
def toMcpResult : Answer → Option Members
  | .mcpToolResult content structuredContent isError => asDict content structuredContent isError
  | .toolResult status output artifacts latencyMs error metadata =>
    toolResultToMcp py status output artifacts latencyMs error metadata
  | .value v => do
    let safe ← jsonSafe v
    return [key "content" (textContent (← textOf py v safe)), key "structuredContent" safe,
      key "isError" (.bool false)]

end ToMcp

/-! ## Governance -/

/-- `ToolAuthorizationRequest`. -/
structure ToolAuthorizationRequest (Ctx : Type) where
  toolName : PyStr
  arguments : Members
  requestContext : Ctx

/-- How a hook ends; a `bool` is a decision without a reason. -/
inductive HookAnswer where
  | decided (allowed : Bool) (reason : Option PyStr)
  | invalid
  | raised

/-- What has happened so far. -/
inductive Event where
  | consulted (request : Json)
  | asked (name : PyStr) (arguments : Members) (answer : HookAnswer)
  | invoked (name : PyStr) (arguments : Members)

structure World (W : Type) where
  outside : W
  events : List Event

def World.note {W : Type} (w : World W) (e : Event) : World W := { w with events := w.events ++ [e] }

abbrev Call (W : Type) : Type → Type := ExceptT Raised (StateM (World W))

theorem call_bind_ok {W α β : Type} {x : Call W α} {f : α → Call W β} {w w' : World W} {a : α}
    (h : x w = (.ok a, w')) : (x >>= f) w = f a w' := by
  show (ExceptT.bindCont f (x w).1) (x w).2 = _
  rw [h]
  rfl

theorem call_bind_error {W α β : Type} {x : Call W α} {f : α → Call W β} {w w' : World W} {e : Raised}
    (h : x w = (.error e, w')) : (x >>= f) w = (.error e, w') := by
  show (ExceptT.bindCont f (x w).1) (x w).2 = _
  rw [h]
  rfl

/-- A computation that may raise and touches nothing. -/
def lift {W α : Type} (r : Except Raised α) : Call W α := fun w => (r, w)

def raise {W α : Type} (cls : ErrorClass) (message : PyStr) : Call W α := throw (.mcp cls message)

/-- What the hook answers, what it has left of the arguments, and its world. -/
abbrev AuthorizationHook (W Ctx : Type) : Type :=
  ToolAuthorizationRequest Ctx → W → (HookAnswer × Members) × W

structure ToolGovernance (W Ctx : Type) where
  /-- only membership is used -/
  allowedTools : List PyStr
  authorizationHook : Option (AuthorizationHook W Ctx)
  nonempty : ∀ name ∈ allowedTools, name ≠ []

/-- `f"Tool '{name}'{rest}"`. -/
def toolMessage (name : PyStr) (rest : String) : PyStr :=
  PyStr.ofString "Tool '" ++ name ++ PyStr.ofString ("'" ++ rest)

section Governance

variable {W Ctx : Type}

def ToolGovernance.isAllowed (g : ToolGovernance W Ctx) (toolName : PyStr) : Bool :=
  decide (toolName ∈ g.allowedTools)

/-- `ensure_allowed`. -/
def ToolGovernance.ensureAllowed (g : ToolGovernance W Ctx) (toolName : PyStr) : Call W Unit :=
  if g.isAllowed toolName then pure ()
  else raise .toolNotAllowed (toolMessage toolName " is not in the allowlist")

/-- The call of the hook. -/
def askHook (hook : AuthorizationHook W Ctx) (request : ToolAuthorizationRequest Ctx) :
    Call W (HookAnswer × Members) := fun w =>
  let answered := hook request w.outside
  (.ok answered.1, { w with outside := answered.2 }.note (.asked request.toolName request.arguments answered.1.1))

/-- What `authorize` makes of an answer. -/
def HookAnswer.verdict (toolName : PyStr) : HookAnswer → Except Raised Unit
  | .raised => .error (.mcp .toolAuthorizationDenied (PyStr.ofString "authorization hook failed"))
  | .invalid =>
    .error (.mcp .toolAuthorizationDenied (PyStr.ofString "authorization hook returned an invalid decision"))
  | .decided false (some (c :: reason)) =>
    .error (.mcp .toolAuthorizationDenied (toolMessage toolName " was not authorized: " ++ c :: reason))
  | .decided false _ => .error (.mcp .toolAuthorizationDenied (toolMessage toolName " was not authorized"))
  | .decided true _ => .ok ()

/-- The hook's part of `authorize`: the arguments as it has left them. -/
def ToolGovernance.consult (g : ToolGovernance W Ctx) (toolName : PyStr) (arguments : Members)
    (requestContext : Ctx) : Call W Members :=
  match g.authorizationHook with
  | none => pure arguments
  | some hook => do
    let answered ← askHook hook ⟨toolName, arguments, requestContext⟩
    lift (answered.1.verdict toolName)
    return answered.2

/-- `authorize`. -/
def ToolGovernance.authorize (g : ToolGovernance W Ctx) (toolName : PyStr) (arguments : Members)
    (requestContext : Ctx) : Call W Members := do
  g.ensureAllowed toolName
  g.consult toolName arguments requestContext

end Governance

/-! ## Tools -/

inductive HandlerOutcome where
  | returned (answer : Answer)
  | raised (e : Raised)

structure LocalTool (W Ctx : Type) where
  name : PyStr
  description : PyStr
  inputSchema : Members
  handler : Members → W → HandlerOutcome × W
  contextHandler : Option (Members → Ctx → W → HandlerOutcome × W)
  nonempty : name ≠ []

section Tools

variable {W Ctx : Type}

/-- `as_mcp_definition`. -/
def LocalTool.asMcpDefinition (tool : LocalTool W Ctx) : Json :=
  .object [key "name" (.string tool.name), key "description" (.string tool.description),
    key "inputSchema" (.object tool.inputSchema)]

/-- `invoke`. -/
def LocalTool.invoke (tool : LocalTool W Ctx) (arguments : Members) (requestContext : Ctx) (w : W) :
    HandlerOutcome × W :=
  match tool.contextHandler with
  | some contextHandler => contextHandler arguments requestContext w
  | none => tool.handler arguments w

/-- The `try` around the handler; the event has the arguments of the CALL. -/
def runTool (tool : LocalTool W Ctx) (name : PyStr) (arguments left : Members) (requestContext : Ctx) :
    Call W Answer := fun w =>
  let outcome := tool.invoke left requestContext w.outside
  let w := { w with outside := outcome.2 }.note (.invoked name arguments)
  match outcome.1 with
  | .returned answer => (.ok answer, w)
  | .raised (.mcp cls message) => (.error (.mcp cls message), w)
  | .raised .exception => (.error (.mcp .toolExecution (toolMessage name " failed")), w)

end Tools

/-! ## The adapter -/

/-- A tool is registered under its own name. -/
structure LocalMCPAdapter (W Ctx : Type) where
  governance : ToolGovernance W Ctx
  tools : Dict PyStr (LocalTool W Ctx)
  named : ∀ name tool, tools.get name = some tool → tool.name = name

def resultResponse (requestId : Json) (result : Members) : Json :=
  .object [key "jsonrpc" (text "2.0"), key "id" requestId, key "result" (.object result)]

def errorResponse (requestId : Json) (code : Int) (message : PyStr) : Json :=
  .object [key "jsonrpc" (text "2.0"), key "id" requestId,
    key "error" (.object [key "code" (.int code), key "message" (.string message)])]

/-- `v == s` for a text `s`. -/
def isText (v : Option Json) (s : String) : Bool :=
  match v with
  | some (.string t) => decide (t = PyStr.ofString s)
  | _ => false

/-- `request.get("method")` and `request.get("params", {})`, if they are of the right kinds. -/
def methodAndParams (request : Members) : Option (PyStr × Members) :=
  match request.get "method", (request.get "params").getD (.object []) with
  | some (.string method), .object params => some (method, params)
  | _, _ => none

def invalidRequest (requestId : Json) : Json := errorResponse requestId (-32600) (PyStr.ofString "Invalid Request")

/-- `_mcp_error`, and the answer to any other exception. -/
def raisedResponse (requestId : Json) : Raised → Json
  | .mcp .protocol message => errorResponse requestId (-32602) message
  | .mcp .schemaValidation message => errorResponse requestId (-32602) message
  | .mcp .toolNotRegistered message => errorResponse requestId (-32602) message
  | .mcp .toolNotAllowed message => errorResponse requestId (-32001) message
  | .mcp .toolAuthorizationDenied message => errorResponse requestId (-32001) message
  | .mcp .schemaDefinition message => errorResponse requestId (-32000) message
  | .mcp .toolExecution message => errorResponse requestId (-32000) message
  | .mcp .other _ => errorResponse requestId (-32603) (PyStr.ofString "Internal error")
  | .exception => errorResponse requestId (-32603) (PyStr.ofString "Internal error")

namespace LocalMCPAdapter

variable {W Ctx : Type}

/-- `LocalMCPAdapter(allowed_tools=…, authorization_hook=…)` with no tool yet. -/
def new (governance : ToolGovernance W Ctx) : LocalMCPAdapter W Ctx where
  governance := governance
  tools := Dict.empty
  named := by
    intro name tool habs
    cases habs

/-- `register`. -/
def register (adapter : LocalMCPAdapter W Ctx) (tool : LocalTool W Ctx) :
    Except PyStr (LocalMCPAdapter W Ctx) :=
  match adapter.tools.get tool.name with
  | some _ => .error (toolMessage tool.name " is already registered")
  | none => .ok {
      adapter with
      tools := adapter.tools.set tool.name tool
      named := by
        intro name registered hget
        rw [Dict.get_set] at hget
        split at hget
        · rename_i hname
          rw [← Option.some.inj hget, hname]
        · exact adapter.named name registered hget }

/-- The loop of `__init__`. -/
def ofTools (governance : ToolGovernance W Ctx) (tools : List (LocalTool W Ctx)) :
    Except PyStr (LocalMCPAdapter W Ctx) :=
  tools.foldlM register (new governance)

/-- `tools_list`. -/
def toolsList (adapter : LocalMCPAdapter W Ctx) : Members :=
  let names := PyList.sorted (fun a b => decide (a < b)) adapter.tools.keys
  let allowed := names.filter adapter.governance.isAllowed
  [key "tools" (.array (allowed.filterMap fun name =>
    (adapter.tools.get name).map LocalTool.asMcpDefinition))]

section Calls

variable (py : PyRuntime) (limit : Nat)

/-- `_tools.get(name)` and the rest of `call_tool`. -/
def callRegistered (adapter : LocalMCPAdapter W Ctx) (name : PyStr) (arguments : Members)
    (requestContext : Ctx) : Call W Members := do
  match adapter.tools.get name with
  | none => raise .toolNotRegistered (toolMessage name " has no local handler")
  | some tool =>
    let validated ← lift (validateArguments py limit arguments tool.inputSchema)
    let left ← adapter.governance.authorize name validated requestContext
    let answer ← runTool tool name validated left requestContext
    match toMcpResult py answer with
    | some result => return result
    | none => throw .exception

/-- `call_tool`. -/
def callTool (adapter : LocalMCPAdapter W Ctx) (name arguments : Option Json) (requestContext : Ctx) :
    Call W Members := do
  match name with
  | some (.string (c :: name)) =>
    match arguments.getD (.object []) with
    | .null =>
      adapter.governance.ensureAllowed (c :: name)
      callRegistered py limit adapter (c :: name) [] requestContext
    | .object arguments =>
      adapter.governance.ensureAllowed (c :: name)
      callRegistered py limit adapter (c :: name) arguments requestContext
    | _ => raise .schemaValidation (PyStr.ofString "tools/call arguments must be an object")
  | _ => raise .protocol (PyStr.ofString "tools/call requires a non-empty string name")

/-- The methods of `handle`. -/
def dispatch (adapter : LocalMCPAdapter W Ctx) (requestId : Json) (method : PyStr) (params : Members)
    (requestContext : Ctx) (w : World W) : Json × World W :=
  if method = PyStr.ofString "tools/list" then (resultResponse requestId adapter.toolsList, w)
  else if method = PyStr.ofString "tools/call" then
    let called := callTool py limit adapter (params.get "name") (params.get "arguments") requestContext w
    (match called.1 with
      | .ok result => resultResponse requestId result
      | .error e => raisedResponse requestId e, called.2)
  else (errorResponse requestId (-32601) (PyStr.ofString "Method not found"), w)

/-- `handle`. -/
def handle (adapter : LocalMCPAdapter W Ctx) (request : Json) (requestContext : Ctx) (w : World W) :
    Json × World W :=
  let w := w.note (.consulted request)
  match request with
  | .object members =>
    let requestId := (Members.get members "id").getD .null
    if !isText (Members.get members "jsonrpc") "2.0" then (invalidRequest requestId, w)
    else
      match methodAndParams members with
      | none => (invalidRequest requestId, w)
      | some (method, params) => dispatch py limit adapter requestId method params requestContext w
  | _ => (invalidRequest .null, w)

end Calls

end LocalMCPAdapter

end FinancialRag.Mcp
