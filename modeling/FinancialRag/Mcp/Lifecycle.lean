/-
  The lifecycle over whole conversations.

  A conversation is a list of exchanges, one a message.  `lawful_of_converse`: in every exchange of every
  conversation the phase moves forward or not at all, the adapter is consulted in the last phase only, the
  negotiated version is set once, and a message is answered if and only if it has an `id`.

  That the phase changes before the response is suppressed shows in one place: an `initialize` WITHOUT an
  `id` negotiates a version that nobody is told.  `initialization_told_iff` says for which conversations
  the client knows.
-/
import FinancialRag.Mcp.Server

set_option linter.unusedVariables false

namespace FinancialRag.Mcp

/-! ## Responses -/

/-- A response to `requestId`: it has a result or an error, and not both. -/
def Answers (requestId : Json) (response : Json) : Prop :=
  ∃ members : Members, response = .object members ∧ members.get "id" = some requestId ∧
    (members.has "result" = true ↔ members.has "error" = false)

theorem answers_result (requestId : Json) (result : Members) :
    Answers requestId (resultResponse requestId result) := by
  refine ⟨_, rfl, ?_, ?_⟩
  · simp [key]
  · simp [key, Members.has]

theorem answers_error (requestId : Json) (code : Int) (message : PyStr) :
    Answers requestId (errorResponse requestId code message) := by
  refine ⟨_, rfl, ?_, ?_⟩
  · simp [key]
  · simp [key, Members.has]

theorem answers_raised (requestId : Json) (e : Raised) : Answers requestId (raisedResponse requestId e) := by
  cases e with
  | exception => exact answers_error _ _ _
  | mcp cls message => cases cls <;> exact answers_error _ _ _

section Connections

variable {W Ctx : Type} (py : PyRuntime) (limit : Nat)

theorem answers_dispatch (adapter : LocalMCPAdapter W Ctx) (requestId : Json) (method : PyStr)
    (params : Members) (requestContext : Ctx) (w : World W) :
    Answers requestId (adapter.dispatch py limit requestId method params requestContext w).1 := by
  unfold LocalMCPAdapter.dispatch
  split
  · exact answers_result _ _
  split
  · simp only
    split
    · exact answers_result _ _
    · exact answers_raised _ _
  · exact answers_error _ _ _

/-- Whatever happens in the adapter, it answers. -/
theorem answers_handle (adapter : LocalMCPAdapter W Ctx) (request : Members) (requestContext : Ctx)
    (w : World W) :
    Answers ((request.get "id").getD .null)
      (adapter.handle py limit (.object request) requestContext w).1 := by
  unfold LocalMCPAdapter.handle
  simp only
  split
  · exact answers_error _ _ _
  split
  · exact answers_error _ _ _
  · exact answers_dispatch _ _ _ _ _ _ _ _

theorem answers_respond (server : MCPServer W Ctx) (request : Members) (method : PyStr) (params : Members)
    (requestContext : Ctx) (c : Connection W) :
    Answers ((request.get "id").getD .null)
      (server.respond py limit request method params requestContext c).1 := by
  unfold MCPServer.respond
  simp only
  split
  · unfold MCPServer.initializeConnection
    split
    · exact answers_error _ _ _
    split
    · exact answers_error _ _ _
    · exact answers_result _ _
  split
  · unfold MCPServer.markReady
    split
    · exact answers_error _ _ _
    · exact answers_result _ _
  split
  · exact answers_result _ _
  split
  · exact answers_error _ _ _
  · exact answers_handle _ _ _ _ _ _

/-! ## What one message does to the connection -/

/-- The parameters of a request for `method`. -/
def paramsOf (request : Members) (method : String) : Option Members :=
  if isText (request.get "jsonrpc") "2.0" then
    match methodAndParams request with
    | some (m, params) => if m = PyStr.ofString method then some params else none
    | none => none
  else none

/-- A valid `initialize`, with or without an `id`. -/
def validInitialize (request : Members) : Bool :=
  match paramsOf request "initialize" with
  | some params => (requestedVersion params).isSome
  | none => false

/-- A `notifications/initialized`. -/
def initializedNotice (request : Members) : Bool := (paramsOf request "notifications/initialized").isSome

/-- The version is known from the first phase on, and is a supported one. -/
structure Sound (c : Connection W) : Prop where
  negotiated : c.negotiatedProtocol = none ↔ c.phase = .new
  supported : ∀ version, c.negotiatedProtocol = some version →
    ∃ v ∈ supportedProtocolVersions, version = PyStr.ofString v

theorem negotiate_supported (requested : PyStr) :
    ∃ v ∈ supportedProtocolVersions, negotiate requested = PyStr.ofString v := by
  unfold negotiate
  split
  · rename_i h
    obtain ⟨v, hv, heq⟩ := List.any_eq_true.mp h
    exact ⟨v, hv, (of_decide_eq_true heq).symm⟩
  · exact ⟨mcpProtocolVersion, List.mem_cons_self, rfl⟩

/-- What can become of a connection. -/
inductive Moves (request : Members) (c : Connection W) : Connection W → Prop
  | stays : Moves request c c
  | initializes {version : PyStr} : c.phase = .new → validInitialize request = true →
      (∃ v ∈ supportedProtocolVersions, version = PyStr.ofString v) →
      Moves request c { c with negotiatedProtocol := some version, phase := .awaitingInitialized }
  | becomesReady : c.phase = .awaitingInitialized → initializedNotice request = true →
      Moves request c { c with phase := .ready }
  | consults {w : World W} : c.phase = .ready → Moves request c { c with world := w }

theorem handleObject_moves (server : MCPServer W Ctx) (request : Members) (requestContext : Ctx)
    (c : Connection W) : Moves request c (server.handleObject py limit request requestContext c).2 := by
  unfold MCPServer.handleObject
  simp only
  split
  · exact .stays
  rename_i hversion
  rw [Bool.not_eq_true', Bool.not_eq_false] at hversion
  split
  · exact .stays
  rename_i method params hmethod
  have hparams : paramsOf request = fun m => if method = PyStr.ofString m then some params else none := by
    funext m
    unfold paramsOf
    rw [if_pos hversion, hmethod]
  unfold MCPServer.respond
  simp only
  split
  · rename_i hinitialize
    unfold MCPServer.initializeConnection
    split
    · exact .stays
    rename_i hnew
    split
    · exact .stays
    rename_i version hrequested
    refine .initializes (not_not.mp hnew) ?_ (negotiate_supported version)
    unfold validInitialize
    simp only [hparams, if_pos hinitialize, hrequested, Option.isSome_some]
  split
  · rename_i hnotice
    unfold MCPServer.markReady
    split
    · exact .stays
    rename_i hawaiting
    refine .becomesReady (not_not.mp hawaiting) ?_
    unfold initializedNotice
    rw [hparams]
    simp only [if_pos hnotice, Option.isSome_some]
  split
  · exact .stays
  split
  · exact .stays
  · rename_i hready
    exact .consults (not_not.mp hready)

/-- **Exactly one response to a request, none to a notification.** -/
theorem handleObject_answers (server : MCPServer W Ctx) (request : Members) (requestContext : Ctx)
    (c : Connection W) :
    match request.get "id" with
    | some id => ∃ response,
        (server.handleObject py limit request requestContext c).1 = some response ∧ Answers id response
    | none => (server.handleObject py limit request requestContext c).1 = none := by
  have hrespond := answers_respond py limit server request
  unfold MCPServer.handleObject Members.has
  cases hid : request.get "id" with
  | none =>
    simp only [Option.isSome_none, Bool.not_false, if_true]
    split
    · rfl
    · split <;> rfl
  | some id =>
    simp only [Option.isSome_some, Bool.not_true, Bool.false_eq_true, if_false, Option.getD_some]
    rw [hid] at hrespond
    split
    · exact ⟨_, rfl, answers_error _ _ _⟩
    · split
      · exact ⟨_, rfl, answers_error _ _ _⟩
      · exact ⟨_, rfl, hrespond _ _ _ _⟩

end Connections

/-! ## Conversations -/

/-- One message and what came of it. -/
structure Exchange (W : Type) where
  request : Members
  before : Connection W
  response : Option Json
  after : Connection W

/-- What is to hold of an exchange. -/
structure Lawful {W : Type} (e : Exchange W) : Prop where
  /-- the adapter is consulted in the last phase only -/
  consulted : e.before.phase ≠ .ready → e.after.world = e.before.world
  phase : e.after.phase = e.before.phase ∨
    (e.before.phase = .new ∧ e.after.phase = .awaitingInitialized ∧ validInitialize e.request = true) ∨
    (e.before.phase = .awaitingInitialized ∧ e.after.phase = .ready ∧ initializedNotice e.request = true)
  soundBefore : Sound e.before
  soundAfter : Sound e.after
  stable : ∀ version, e.before.negotiatedProtocol = some version →
    e.after.negotiatedProtocol = some version
  answered : match e.request.get "id" with
    | some id => ∃ response, e.response = some response ∧ Answers id response
    | none => e.response = none

theorem sound_new {W : Type} (outside : W) : Sound (.new outside : Connection W) where
  negotiated := ⟨fun _ => rfl, fun _ => rfl⟩
  supported := by
    intro version habs
    cases habs

section Conversations

variable {W Ctx : Type} (py : PyRuntime) (limit : Nat) (server : MCPServer W Ctx)

def exchange (c : Connection W) (message : Members × Ctx) : Exchange W :=
  let handled := server.handle py limit (.object message.1) message.2 c
  ⟨message.1, c, handled.1, handled.2⟩

/-- The exchanges of a sequence of messages. -/
def converse (c : Connection W) : List (Members × Ctx) → List (Exchange W)
  | [] => []
  | message :: rest =>
    let e := exchange py limit server c message
    e :: converse e.after rest

/-- The connection after them. -/
def connectionAfter (c : Connection W) : List (Members × Ctx) → Connection W
  | [] => c
  | message :: rest => connectionAfter (exchange py limit server c message).after rest

/-- **The step lemma.** -/
theorem lawful_exchange {c : Connection W} (hc : Sound c) (message : Members × Ctx) :
    Lawful (exchange py limit server c message) := by
  have hmoves : Moves message.1 c (exchange py limit server c message).after :=
    handleObject_moves py limit server message.1 message.2 c
  have hanswers := handleObject_answers py limit server message.1 message.2 c
  generalize hafter : (exchange py limit server c message).after = c' at hmoves
  have hlawful : (c.phase ≠ .ready → c'.world = c.world) ∧
      (c'.phase = c.phase ∨
        (c.phase = .new ∧ c'.phase = .awaitingInitialized ∧ validInitialize message.1 = true) ∨
        (c.phase = .awaitingInitialized ∧ c'.phase = .ready ∧ initializedNotice message.1 = true)) ∧
      Sound c' ∧
      ∀ version, c.negotiatedProtocol = some version → c'.negotiatedProtocol = some version := by
    cases hmoves with
    | stays => exact ⟨fun _ => rfl, Or.inl rfl, hc, fun _ h => h⟩
    | initializes hnew hvalid hsupported =>
      refine ⟨fun _ => rfl, Or.inr (Or.inl ⟨hnew, rfl, hvalid⟩), ⟨?_, ?_⟩, ?_⟩
      · constructor
        · intro habs
          cases habs
        · intro habs
          cases habs
      · intro version hversion
        rw [← Option.some.inj hversion]
        exact hsupported
      · intro version hversion
        rw [hc.negotiated.mpr hnew] at hversion
        cases hversion
    | becomesReady hawaiting hnotice =>
      refine ⟨fun _ => rfl, Or.inr (Or.inr ⟨hawaiting, rfl, hnotice⟩), ⟨?_, hc.supported⟩, fun _ h => h⟩
      constructor
      · intro hnone
        rw [hc.negotiated.mp hnone] at hawaiting
        cases hawaiting
      · intro habs
        cases habs
    | consults hready =>
      exact ⟨fun hnot => absurd hready hnot, Or.inl rfl, ⟨hc.negotiated, hc.supported⟩, fun _ h => h⟩
  obtain ⟨hconsulted, hphase, hsound, hstable⟩ := hlawful
  subst hafter
  exact ⟨hconsulted, hphase, hc, hsound, hstable, hanswers⟩

theorem lawful_of_mem_converse {c : Connection W} (hc : Sound c) {messages : List (Members × Ctx)} :
    ∀ e ∈ converse py limit server c messages, Lawful e := by
  induction messages generalizing c with
  | nil =>
    intro e habs
    cases habs
  | cons message rest ih =>
    have hlawful := lawful_exchange py limit server hc message
    intro e he
    rcases List.mem_cons.mp he with rfl | hrest
    · exact hlawful
    · exact ih hlawful.soundAfter e hrest

end Conversations

/-- **The lifecycle of a connection**, over every sequence of messages. -/
theorem lawful_of_converse {W Ctx : Type} (py : PyRuntime) (limit : Nat) (server : MCPServer W Ctx)
    (outside : W) (messages : List (Members × Ctx)) :
    ∀ e ∈ converse py limit server (.new outside) messages, Lawful e :=
  lawful_of_mem_converse py limit server (sound_new outside)

/-! ## Who has been told -/

/-- The exchange is an `initialize` answered with the version. -/
def Exchange.Tells {W : Type} (e : Exchange W) (version : PyStr) : Prop :=
  (∃ params, paramsOf e.request "initialize" = some params) ∧
    ∃ response result : Members, e.response = some (.object response) ∧
      response.get "result" = some (.object result) ∧
      result.get "protocolVersion" = some (.string version)

section Told

variable {W Ctx : Type} {py : PyRuntime} {limit : Nat} {server : MCPServer W Ctx} {c : Connection W}

/-- A request for `initialize` is a call of `_initialize`. -/
theorem handleObject_paramsOf {request params : Members}
    (hparams : paramsOf request "initialize" = some params) (requestContext : Ctx) :
    server.handleObject py limit request requestContext c =
      (if request.has "id" then
          some (server.initializeConnection ((request.get "id").getD .null) params c).1 else none,
        (server.initializeConnection ((request.get "id").getD .null) params c).2) := by
  unfold paramsOf at hparams
  split at hparams
  · rename_i hversion
    split at hparams
    · rename_i method params' hmethod
      split at hparams
      · rename_i hinitialize
        obtain rfl := Option.some.inj hparams
        unfold MCPServer.handleObject MCPServer.respond
        rw [hversion, hmethod]
        simp only [Bool.not_true, Bool.false_eq_true, if_false, if_pos hinitialize]
        cases request.has "id" with
        | true => rfl
        | false => rfl
      · cases hparams
    · cases hparams
  · cases hparams

/-- Only the valid `initialize` of a new connection tells, and only if it has an `id`. -/
theorem of_tells {message : Members × Ctx} {version : PyStr}
    (h : (exchange py limit server c message).Tells version) :
    c.phase = .new ∧ validInitialize message.1 = true ∧ message.1.has "id" = true := by
  have hnotTold : ∀ {requestId : Json} {code : Int} {text : PyStr} {response result : Members},
      some (errorResponse requestId code text) = some (.object response) →
        response.get "result" = some (.object result) → False := by
    intro requestId code text response result hresponse hresult
    rw [← Json.object.inj (Option.some.inj hresponse)] at hresult
    simp [key] at hresult
  obtain ⟨⟨params, hparams⟩, response, result, hresponse, hresult, _⟩ := h
  replace hparams : paramsOf message.1 "initialize" = some params := hparams
  replace hresponse : (server.handleObject py limit message.1 message.2 c).1 = some (.object response) :=
    hresponse
  rw [handleObject_paramsOf hparams] at hresponse
  cases hid : message.1.has "id" with
  | false =>
    rw [hid] at hresponse
    cases hresponse
  | true =>
    rw [hid] at hresponse
    simp only [if_true] at hresponse
    unfold MCPServer.initializeConnection at hresponse
    split at hresponse
    · exact (hnotTold hresponse hresult).elim
    rename_i hnew
    split at hresponse
    · exact (hnotTold hresponse hresult).elim
    · rename_i requested hrequested
      refine ⟨not_not.mp hnew, ?_, rfl⟩
      unfold validInitialize
      rw [hparams]
      simp only [hrequested, Option.isSome_some]

variable (py limit server)

/-- The valid `initialize` of a new connection, and what the client hears of it. -/
theorem initializes {message : Members × Ctx} (hnew : c.phase = .new)
    (hvalid : validInitialize message.1 = true) :
    (exchange py limit server c message).after.phase = .awaitingInitialized ∧
      (message.1.has "id" = true → ∃ version, (exchange py limit server c message).Tells version ∧
        (exchange py limit server c message).after.negotiatedProtocol = some version) := by
  unfold validInitialize at hvalid
  split at hvalid
  · rename_i params hparams
    obtain ⟨requested, hrequested⟩ := Option.isSome_iff_exists.mp hvalid
    have hinitialized : server.initializeConnection ((message.1.get "id").getD .null) params c =
        (resultResponse ((message.1.get "id").getD .null)
          (initializeResult server.serverInfo (negotiate requested)),
          { c with negotiatedProtocol := some (negotiate requested), phase := .awaitingInitialized }) := by
      unfold MCPServer.initializeConnection
      rw [if_neg (not_not.mpr hnew), hrequested]
    have hexchange : exchange py limit server c message = ⟨message.1, c,
        if message.1.has "id" then some (resultResponse ((message.1.get "id").getD .null)
          (initializeResult server.serverInfo (negotiate requested))) else none,
        { c with negotiatedProtocol := some (negotiate requested), phase := .awaitingInitialized }⟩ := by
      show Exchange.mk _ _ (server.handleObject py limit message.1 message.2 c).1
        (server.handleObject py limit message.1 message.2 c).2 = _
      rw [handleObject_paramsOf hparams, hinitialized]
    rw [hexchange]
    refine ⟨rfl, fun hid => ⟨negotiate requested, ⟨⟨params, hparams⟩, ?_⟩, rfl⟩⟩
    rw [hid]
    refine ⟨_, initializeResult server.serverInfo (negotiate requested), rfl, ?_, ?_⟩
    · simp [key]
    · simp [initializeResult, key]
  · cases hvalid

/-- Any other message leaves a new connection new. -/
theorem stays_new (hc : Sound c) {message : Members × Ctx} (hnew : c.phase = .new)
    (hinvalid : validInitialize message.1 = false) :
    (exchange py limit server c message).after.phase = .new := by
  have hlawful := lawful_exchange py limit server hc message
  rcases hlawful.phase with hstays | ⟨_, _, hvalid⟩ | ⟨hawaiting, _⟩
  · exact hstays.trans hnew
  · have habs : validInitialize message.1 = true := hvalid
    rw [hinvalid] at habs
    cases habs
  · have habs : c.phase = .awaitingInitialized := hawaiting
    rw [hnew] at habs
    cases habs

/-- Once the connection is no longer new it never is again, and nobody is told any more. -/
theorem notTold_of_not_new (hc : Sound c) (hphase : c.phase ≠ .new) (messages : List (Members × Ctx)) :
    (connectionAfter py limit server c messages).phase ≠ .new ∧
      (connectionAfter py limit server c messages).negotiatedProtocol = c.negotiatedProtocol ∧
      ∀ e ∈ converse py limit server c messages, ∀ version, ¬ e.Tells version := by
  induction messages generalizing c with
  | nil =>
    refine ⟨hphase, rfl, ?_⟩
    intro e habs
    cases habs
  | cons message rest ih =>
    have hlawful := lawful_exchange py limit server hc message
    have hphase' : (exchange py limit server c message).after.phase ≠ .new := by
      rcases hlawful.phase with hstays | ⟨habs, _⟩ | ⟨_, hready, _⟩
      · rw [hstays]
        exact hphase
      · exact absurd habs hphase
      · rw [hready]
        intro habs
        cases habs
    obtain ⟨hafter, hnegotiated, hrest⟩ := ih hlawful.soundAfter hphase'
    refine ⟨hafter, ?_, ?_⟩
    · obtain ⟨version, hversion⟩ := Option.ne_none_iff_exists'.mp (mt hc.negotiated.mp hphase)
      rw [hversion]
      exact hnegotiated.trans (hlawful.stable version hversion)
    · intro e he version htells
      rcases List.mem_cons.mp he with rfl | he
      · exact hphase (of_tells htells).1
      · exact hrest e he version htells

/-- Has the client been told the version by the end of a conversation? -/
theorem told_iff (hc : Sound c) (hnew : c.phase = .new) (messages : List (Members × Ctx)) :
    ((connectionAfter py limit server c messages).phase ≠ .new →
      ∃ e ∈ converse py limit server c messages, ∃ version, e.Tells version ∧
        (connectionAfter py limit server c messages).negotiatedProtocol = some version) ↔
    ∀ request, (messages.map Prod.fst).find? validInitialize = some request → request.has "id" = true := by
  induction messages generalizing c with
  | nil =>
    constructor
    · intro _ request habs
      cases habs
    · intro _ habs
      exact absurd hnew habs
  | cons message rest ih =>
    have hlawful := lawful_exchange py limit server hc message
    rw [List.map_cons]
    cases hvalid : validInitialize message.1 with
    | false =>
      -- nothing happens to the connection
      have hnew' := stays_new py limit server hc hnew hvalid
      rw [List.find?_cons_of_neg (by rw [hvalid]; exact Bool.false_ne_true)]
      rw [← ih hlawful.soundAfter hnew']
      refine imp_congr_right fun _ => ?_
      constructor
      · rintro ⟨e, he, version, htells, hversion⟩
        rcases List.mem_cons.mp he with rfl | he
        · have habs := (of_tells htells).2.1
          rw [hvalid] at habs
          cases habs
        · exact ⟨e, he, version, htells, hversion⟩
      · rintro ⟨e, he, version, htells, hversion⟩
        exact ⟨e, List.mem_cons_of_mem _ he, version, htells, hversion⟩
    | true =>
      -- the version is negotiated now or never
      obtain ⟨hphase, htold⟩ := initializes py limit server hnew hvalid
      have hnotNew : (exchange py limit server c message).after.phase ≠ .new := by
        rw [hphase]
        intro habs
        cases habs
      obtain ⟨hafter, hnegotiated, hnotTold⟩ :=
        notTold_of_not_new py limit server hlawful.soundAfter hnotNew rest
      rw [List.find?_cons_of_pos hvalid]
      constructor
      · intro hclient request hrequest
        obtain rfl := Option.some.inj hrequest
        obtain ⟨e, he, version, htells, _⟩ := hclient hafter
        rcases List.mem_cons.mp he with rfl | he
        · exact (of_tells htells).2.2
        · exact absurd htells (hnotTold e he version)
      · intro hid _
        obtain ⟨version, htells, hversion⟩ := htold (hid _ rfl)
        exact ⟨_, List.mem_cons_self, version, htells, hnegotiated.trans hversion⟩

end Told

/-- **When initialization is not silent.**  After a sequence of messages to a new connection, a server that
    is no longer new has told its client the negotiated version, if and only if the first valid
    `initialize` of the sequence, if there is one, has an `id`. -/
theorem initialization_told_iff {W Ctx : Type} (py : PyRuntime) (limit : Nat) (server : MCPServer W Ctx)
    (outside : W) (messages : List (Members × Ctx)) :
    ((connectionAfter py limit server (.new outside) messages).phase ≠ .new →
      ∃ e ∈ converse py limit server (.new outside) messages, ∃ version, e.Tells version ∧
        (connectionAfter py limit server (.new outside) messages).negotiatedProtocol = some version) ↔
    ∀ request, (messages.map Prod.fst).find? validInitialize = some request → request.has "id" = true :=
  told_iff py limit server (sound_new outside) rfl messages

/-! ### A notification for a request -/

/-- A server without tools. -/
def bareServer : MCPServer Unit Unit where
  adapter := .new { allowedTools := [], authorizationHook := none, nonempty := fun _ habs => (by cases habs) }
  serverInfo := {
    name := PyStr.ofString "test"
    version := PyStr.ofString "1"
    instructions := none
    nameNonempty := by decide +kernel
    versionNonempty := by decide +kernel }

/-- A client that names itself. -/
def clientInfo : Json := .object [key "name" (text "client"), key "version" (text "1")]

/-- An `initialize` without an `id`, and the notification that follows it. -/
def silentMessages : List (Members × Unit) :=
  [([key "jsonrpc" (text "2.0"), key "method" (text "initialize"), key "params" (.object
      [key "protocolVersion" (text mcpProtocolVersion), key "capabilities" (.object []),
        key "clientInfo" clientInfo])], ()),
    ([key "jsonrpc" (text "2.0"), key "method" (text "notifications/initialized")], ())]

/-- The first of them moves the connection on, and is lawful. -/
theorem silent_start_lawful :
    ∃ e, (converse .plain 1000 bareServer (.new ()) silentMessages).head? = some e ∧
      e.after.phase = .awaitingInitialized ∧ Lawful e :=
  ⟨_, rfl, by decide +kernel,
    lawful_of_converse .plain 1000 bareServer () silentMessages _ List.mem_cons_self⟩

/-- The server is ready, and has said nothing. -/
theorem ready_without_a_word :
    (connectionAfter .plain 1000 bareServer (.new ()) silentMessages).phase = .ready ∧
      ¬ ∃ e ∈ converse .plain 1000 bareServer (.new ()) silentMessages, ∃ version, e.Tells version := by
  refine ⟨by decide +kernel, ?_⟩
  rintro ⟨e, he, version, _, response, _, hresponse, _⟩
  have hsilent : (converse .plain 1000 bareServer (.new ()) silentMessages).all
      (fun e => e.response.isNone) = true := by decide +kernel
  have hnone := List.all_eq_true.mp hsilent e he
  rw [hresponse] at hnone
  cases hnone

end FinancialRag.Mcp
