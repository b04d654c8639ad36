/-
  `mcp/server.py`: the lifecycle of one connection.

  A message is handled in three steps: is it a JSON-RPC request at all, what do the lifecycle methods make
  of it, and is there anybody to answer.  The phase changes in the second, BEFORE the third.
-/
import FinancialRag.Mcp.LocalAdapter

set_option linter.unusedVariables false

namespace FinancialRag.Mcp

def mcpProtocolVersion : String := "2025-06-18"

def supportedProtocolVersions : List String := [mcpProtocolVersion, "2025-03-26"]

structure MCPServerInfo where
  name : PyStr
  version : PyStr
  instructions : Option PyStr
  nameNonempty : PyStr.strip name ≠ []
  versionNonempty : PyStr.strip version ≠ []

inductive Phase where
  | new
  | awaitingInitialized
  | ready
  deriving DecidableEq

/-- What changes along a connection. -/
structure Connection (W : Type) where
  phase : Phase
  negotiatedProtocol : Option PyStr
  world : World W

structure MCPServer (W Ctx : Type) where
  adapter : LocalMCPAdapter W Ctx
  serverInfo : MCPServerInfo

def Connection.new {W : Type} (outside : W) : Connection W := ⟨.new, none, ⟨outside, []⟩⟩

/-- `isinstance(v, str) and bool(v.strip())`. -/
def nonblank : Option Json → Bool
  | some (.string s) => !(PyStr.strip s).isEmpty
  | _ => false

/-- `_valid_implementation`. -/
def validImplementation : Option Json → Bool
  | some (.object members) => nonblank (Members.get members "name") && nonblank (Members.get members "version")
  | _ => false

def isMapping : Option Json → Bool
  | some (.object _) => true
  | _ => false

/-- The version of an `initialize`, if its parameters are valid. -/
def requestedVersion (params : Members) : Option PyStr :=
  match params.get "protocolVersion" with
  | some (.string version) =>
    if isMapping (params.get "capabilities") && validImplementation (params.get "clientInfo") then some version
    else none
  | _ => none

/-- A supported version is granted, any other answered with the current one. -/
def negotiate (requested : PyStr) : PyStr :=
  if supportedProtocolVersions.any fun version => decide (PyStr.ofString version = requested) then requested
  else PyStr.ofString mcpProtocolVersion

/-- `if self._server_info.instructions`. -/
def instructionsOf (info : MCPServerInfo) : Members :=
  match info.instructions with
  | some (c :: rest) => [key "instructions" (.string (c :: rest))]
  | _ => []

def initializeResult (info : MCPServerInfo) (negotiated : PyStr) : Members :=
  [key "protocolVersion" (.string negotiated),
    key "capabilities" (.object [key "tools" (.object [key "listChanged" (.bool false)])]),
    key "serverInfo" (.object [key "name" (.string info.name), key "version" (.string info.version)])] ++
    instructionsOf info

namespace MCPServer

variable {W Ctx : Type}

/-- `_initialize`. -/
def initializeConnection (server : MCPServer W Ctx) (requestId : Json) (params : Members) (c : Connection W) :
    Json × Connection W :=
  if c.phase ≠ .new then
    (errorResponse requestId (-32600) (PyStr.ofString "Server is already initialized"), c)
  else
    match requestedVersion params with
    | none => (errorResponse requestId (-32602) (PyStr.ofString "Invalid initialize parameters"), c)
    | some version =>
      let negotiated := negotiate version
      (resultResponse requestId (initializeResult server.serverInfo negotiated),
        { c with negotiatedProtocol := some negotiated, phase := .awaitingInitialized })

/-- `_mark_ready`. -/
def markReady (requestId : Json) (c : Connection W) : Json × Connection W :=
  if c.phase ≠ .awaitingInitialized then
    (errorResponse requestId (-32600) (PyStr.ofString "Initialize request is required"), c)
  else (resultResponse requestId [], { c with phase := .ready })

section Handling

variable (py : PyRuntime) (limit : Nat)

/-- The response that `handle` has ready for a method, and the connection after it. -/
def respond (server : MCPServer W Ctx) (request : Members) (method : PyStr) (params : Members)
    (requestContext : Ctx) (c : Connection W) : Json × Connection W :=
  let requestId := (request.get "id").getD .null
  if method = PyStr.ofString "initialize" then server.initializeConnection requestId params c
  else if method = PyStr.ofString "notifications/initialized" then markReady requestId c
  else if method = PyStr.ofString "ping" then (resultResponse requestId [], c)
  else if c.phase ≠ .ready then
    (errorResponse requestId (-32002) (PyStr.ofString "Server is not initialized"), c)
  else
    let answered := server.adapter.handle py limit (.object request) requestContext c.world
    (answered.1, { c with world := answered.2 })

/-- `handle` of an object. -/
def handleObject (server : MCPServer W Ctx) (request : Members) (requestContext : Ctx) (c : Connection W) :
    Option Json × Connection W :=
  let requestId := (request.get "id").getD .null
  let isNotification := !request.has "id"
  if !isText (request.get "jsonrpc") "2.0" then
    (if isNotification then none else some (invalidRequest requestId), c)
  else
    match methodAndParams request with
    | none => (if isNotification then none else some (invalidRequest requestId), c)
    | some (method, params) =>
      let responded := server.respond py limit request method params requestContext c
      (if isNotification then none else some responded.1, responded.2)

/-- `handle`. -/
def handle (server : MCPServer W Ctx) (request : Json) (requestContext : Ctx) (c : Connection W) :
    Option Json × Connection W :=
  match request with
  | .object members => server.handleObject py limit members requestContext c
  | _ => (some (invalidRequest .null), c)

end Handling

end MCPServer

end FinancialRag.Mcp
