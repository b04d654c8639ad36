/-
  `serve_stdio` (`mcp/server.py`): one line in, at most one line out.

  The decoder is outside; it returns a value or raises one of three exceptions, of which the loop catches
  one.  A response is written if `json.dumps` finds a text for it and UTF-8 can encode that text;
  otherwise the exception ends the loop, and with it the connection.
-/
import FinancialRag.Mcp.Server

set_option linter.unusedVariables false

namespace FinancialRag.Mcp

/-- How `json.loads` ends. -/
inductive Loaded where
  | value (v : Json)
  | jsonDecodeError
  | valueError
  | recursionError

/-- The exception that ends the loop. -/
inductive Crash where
  | valueError
  | recursionError
  | unicodeEncodeError
  deriving DecidableEq

/-- `separators=(",", ":")`. -/
def compactStyle : JsonStyle := ⟨",", ":", false⟩

def parseError : Json := errorResponse .null (-32700) (PyStr.ofString "Parse error")

/-- The line of a response. -/
def lineOf (py : PyRuntime) (response : Json) : PyStr :=
  Json.text py compactStyle response ++ ['\n'.codePoint]

/-- `destination.write(json.dumps(…) + "\n")`, to a strict UTF-8 stream. -/
def write (py : PyRuntime) (response : Json) : Except Crash PyStr :=
  match Json.dumps py compactStyle response with
  | .error .recursionError => .error .recursionError
  | .error .valueError => .error .valueError
  | .ok s =>
    if PyStr.encodable s then .ok (s ++ ['\n'.codePoint]) else .error .unicodeEncodeError

section Serving

variable {W Ctx : Type} (py : PyRuntime) (limit : Nat) (loads : PyStr → Loaded) (server : MCPServer W Ctx)
  (requestContext : Ctx)

/-- What a line is answered with, and the connection after it, if nothing is raised before that. -/
def answerLine (c : Connection W) (rawLine : PyStr) : Except Crash (Option Json × Connection W) :=
  let line := PyStr.strip rawLine
  if line.isEmpty then .ok (none, c)
  else
    match loads line with
    | .jsonDecodeError => .ok (some parseError, c)
    | .valueError => .error .valueError
    | .recursionError => .error .recursionError
    | .value request => .ok (server.handle py limit request requestContext c)

/-- One turn of the loop; the output is what has been written so far. -/
def serveLine (s : Connection W × PyStr) (rawLine : PyStr) : Except Crash (Connection W × PyStr) := do
  let answered ← answerLine py limit loads server requestContext s.1 rawLine
  match answered.1 with
  | none => return (answered.2, s.2)
  | some response => return (answered.2, s.2 ++ (← write py response))

/-- `serve_stdio`. -/
def serveStdio (s : Connection W × PyStr) (lines : List PyStr) : Except Crash (Connection W × PyStr) :=
  lines.foldlM (serveLine py limit loads server requestContext) s

end Serving

end FinancialRag.Mcp
