/-
  The HTTP rate limit (`middleware/security.py`).

  `dispatch` is one step, from the reading of the headers to the counting: nothing is awaited in between.
  The state is the dictionary of the clients; an entry is kept under the identity of the request, so the
  requests of one identity run on an entry of their own (`serve_filter`), and that run is a chain of anchored
  windows (`serveOne_eq_anchored`).

  Times are in microseconds, as those of `datetime`.  The entry of a NEW client is made by the default factory,
  which reads the clock a second time (`created`): its first window starts there.
-/
import Mathlib.Data.List.Flatten
import FinancialRag.Lib.Dict
import FinancialRag.Lib.PyText
import FinancialRag.Lib.RateLimit

set_option linter.unusedVariables false

namespace FinancialRag.Middleware

open RateLimit

/-! ## Requests -/

/-- What the middleware reads of a request. -/
structure Request where
  authorization : Option String
  xForwardedFor : Option String
  path : String
  clientHost : Option String

/-- What it reads of the environment. -/
structure Environment where
  rateLimitEnabled : Option String
  trustProxyHeaders : Option String

/-- The standard library: the text tables, `hashlib.sha256(·).hexdigest()` of UTF-8, and
    `str(ipaddress.ip_address(·))` with the `ValueError`. -/
structure Library where
  text : PyText
  sha256 : String → String
  ipAddress : String → Option String

/-- A request as it is handled: with its environment, and the clock at its start and at the making of an entry. -/
structure Arrival where
  request : Request
  environment : Environment
  now : Int
  created : Int

def trueValues : List String := ["1", "true", "yes", "on"]

def healthPaths : List String := ["/health", "/api/v1/health", "/api/v1/ready"]

/-- `os.getenv(name, default).strip().lower() in _TRUE_VALUES`. -/
def isTrue (lib : Library) (default : String) (value : Option String) : Bool :=
  trueValues.contains (lib.text.lower (lib.text.strip (value.getD default)))

/-- `str.partition(" ")`, if there is a blank. -/
def partitionBlank (s : String) : Option (String × String) :=
  if s.toList.contains ' ' then
    some (String.ofList (s.toList.takeWhile (· != ' ')), String.ofList ((s.toList.dropWhile (· != ' ')).drop 1))
  else none

/-- The token of a bearer authorization. -/
def bearerToken (lib : Library) (request : Request) : Option String :=
  match partitionBlank (request.authorization.getD "") with
  | none => none
  | some (scheme, token) =>
    if lib.text.lower scheme = "bearer" ∧ lib.text.strip token ≠ "" then some (lib.text.strip token) else none

/-- The address a trusted proxy gives for the client. -/
def proxyAddress (lib : Library) (request : Request) : Option String :=
  let candidate := lib.text.strip (String.ofList ((request.xForwardedFor.getD "").toList.takeWhile (· != ',')))
  if candidate = "" then none else lib.ipAddress candidate

/-- `_rate_limit_identity`. -/
def rateLimitIdentity (lib : Library) (a : Arrival) : String :=
  match bearerToken lib a.request with
  | some token => "auth:" ++ String.ofList ((lib.sha256 token).toList.take 24)
  | none =>
    let direct := "ip:" ++ a.request.clientHost.getD "unknown"
    if isTrue lib "false" a.environment.trustProxyHeaders then
      match proxyAddress lib a.request with
      | some address => "ip:" ++ address
      | none => direct
    else direct

/-- The request goes through the limiter. -/
def isCounted (lib : Library) (a : Arrival) : Bool :=
  isTrue lib "true" a.environment.rateLimitEnabled && !healthPaths.contains a.request.path

/-! ## The middleware -/

/-- `RateLimitMiddleware.__init__`. -/
structure RateLimitMiddleware where
  requestsPerWindow : Int
  windowSeconds : Int

/-- `self._clients`: for each identity the count and the start of its window. -/
abbrev Clients := Dict String (Window Int)

inductive Response where
  | callNext
  | json (statusCode : Nat) (detail : String) (retryAfter : Int)
  deriving DecidableEq, Repr

def RateLimitMiddleware.width (m : RateLimitMiddleware) : Int := m.windowSeconds * 1000000

/-- The answer to a request that is its window's `count`-th. -/
def RateLimitMiddleware.answer (m : RateLimitMiddleware) (count : Nat) : Response :=
  if m.requestsPerWindow < count then
    .json 429 "Too many requests. Please try again later." m.windowSeconds
  else .callNext

/-- The entry of a client that is looked up: the default factory makes one for a new client. -/
def entryOf (entry : Option (Window Int)) (a : Arrival) : Window Int := entry.getD ⟨0, a.created⟩

/-- The entry after counting. -/
def RateLimitMiddleware.count (m : RateLimitMiddleware) (entry : Window Int) (now : Int) : Window Int :=
  let entry := if m.width < now - entry.start then ⟨0, now⟩ else entry
  ⟨entry.count + 1, entry.start⟩

/-- `dispatch`. -/
def RateLimitMiddleware.dispatch (lib : Library) (m : RateLimitMiddleware) (clients : Clients) (a : Arrival) :
    Response × Clients :=
  if !isTrue lib "true" a.environment.rateLimitEnabled then (.callNext, clients)
  else if healthPaths.contains a.request.path then (.callNext, clients)
  else
    let clientId := rateLimitIdentity lib a
    let entry := m.count (entryOf (clients.get clientId) a) a.now
    (m.answer entry.count, clients.set clientId entry)

/-- A handled request: its answer, and the start of the window of its identity as it was then. -/
structure Handled where
  arrival : Arrival
  response : Response
  windowStart : Option Int

/-- The requests one after the other. -/
def RateLimitMiddleware.serve (lib : Library) (m : RateLimitMiddleware) (clients : Clients) :
    List Arrival → List Handled
  | [] => []
  | a :: later =>
    let step := m.dispatch lib clients a
    ⟨a, step.1, (step.2.get (rateLimitIdentity lib a)).map Window.start⟩ :: m.serve lib step.2 later

/-! ## The requests of one identity -/

/-- The request is counted for the identity. -/
def isOf (lib : Library) (clientId : String) (a : Arrival) : Bool :=
  isCounted lib a && rateLimitIdentity lib a == clientId

/-- The readings of the clock. -/
def readings (arrivals : List Arrival) : List Int := arrivals.flatMap fun a => [a.now, a.created]

/-- The requests of one identity, with its entry alone. -/
def RateLimitMiddleware.serveOne (m : RateLimitMiddleware) (entry : Option (Window Int)) :
    List Arrival → List Handled
  | [] => []
  | a :: later =>
    let counted := m.count (entryOf entry a) a.now
    ⟨a, m.answer counted.count, some counted.start⟩ :: m.serveOne (some counted) later

variable {lib : Library} {m : RateLimitMiddleware} {clients : Clients} {clientId : String}

/-- What a counted request does. -/
theorem dispatch_of_counted {a : Arrival} (h : isCounted lib a = true) :
    m.dispatch lib clients a =
      (m.answer (m.count (entryOf (clients.get (rateLimitIdentity lib a)) a) a.now).count,
        clients.set (rateLimitIdentity lib a)
          (m.count (entryOf (clients.get (rateLimitIdentity lib a)) a) a.now)) := by
  obtain ⟨henabled, hpath⟩ := Bool.and_eq_true_iff.mp h
  rw [Bool.not_eq_true', ← Bool.not_eq_true] at hpath
  unfold RateLimitMiddleware.dispatch
  rw [henabled, if_neg (by decide), if_neg hpath]

/-- Any other request passes, and leaves the clients alone. -/
theorem dispatch_of_not_counted {a : Arrival} (h : isCounted lib a = false) :
    m.dispatch lib clients a = (.callNext, clients) := by
  unfold isCounted at h
  unfold RateLimitMiddleware.dispatch
  cases henabled : isTrue lib "true" a.environment.rateLimitEnabled with
  | false => rfl
  | true =>
    rw [henabled, Bool.true_and, Bool.not_eq_false'] at h
    rw [if_neg (by decide), if_pos h]

/-- A request that is not of the identity leaves its entry alone. -/
theorem get_dispatch_of_other {a : Arrival} (h : isOf lib clientId a = false) :
    (m.dispatch lib clients a).2.get clientId = clients.get clientId := by
  cases hcounted : isCounted lib a with
  | false => rw [dispatch_of_not_counted hcounted]
  | true =>
    unfold isOf at h
    rw [hcounted, Bool.true_and, beq_eq_false_iff_ne] at h
    rw [dispatch_of_counted hcounted, Dict.get_set, if_neg h.symm]

/-- **The requests of an identity run on its own entry**, whoever else is served in between. -/
theorem serve_filter (lib : Library) (m : RateLimitMiddleware) (clients : Clients) (clientId : String)
    (arrivals : List Arrival) :
    (m.serve lib clients arrivals).filter (fun h => isOf lib clientId h.arrival) =
      m.serveOne (clients.get clientId) (arrivals.filter (isOf lib clientId)) := by
  induction arrivals generalizing clients with
  | nil => rfl
  | cons a later ih =>
    rw [RateLimitMiddleware.serve, List.filter_cons, List.filter_cons, ih]
    cases hof : isOf lib clientId a with
    | false =>
      rw [if_neg Bool.false_ne_true, if_neg Bool.false_ne_true, get_dispatch_of_other hof]
    | true =>
      obtain ⟨hcounted, hid⟩ := Bool.and_eq_true_iff.mp hof
      obtain rfl := eq_of_beq hid
      rw [if_pos rfl, if_pos rfl, RateLimitMiddleware.serveOne, dispatch_of_counted hcounted, Dict.get_set,
        if_pos rfl]
      rfl

theorem arrivals_serve (lib : Library) (m : RateLimitMiddleware) (clients : Clients) (arrivals : List Arrival) :
    (m.serve lib clients arrivals).map Handled.arrival = arrivals := by
  induction arrivals generalizing clients with
  | nil => rfl
  | cons a later ih => rw [RateLimitMiddleware.serve, List.map_cons, ih]

/-- The same of a run with these requests alone. -/
theorem serve_of_identity {arrivals : List Arrival} (h : ∀ a ∈ arrivals, isOf lib clientId a = true) :
    m.serve lib clients arrivals = m.serveOne (clients.get clientId) arrivals := by
  have hall : ∀ handled ∈ m.serve lib clients arrivals, isOf lib clientId handled.arrival = true := by
    intro handled hmem
    refine h _ ?_
    rw [← arrivals_serve lib m clients arrivals]
    exact List.mem_map_of_mem hmem
  have hfilter := serve_filter lib m clients clientId arrivals
  rwa [List.filter_eq_self.mpr hall, List.filter_eq_self.mpr h] at hfilter

/-! ## Anchored windows -/

/-- A handled request as a call of its window. -/
def Handled.call (h : Handled) : Call Int :=
  ⟨h.arrival.now, h.windowStart.getD 0, decide (h.response = .callNext)⟩

theorem count_eq_enter (w : Window Int) (now : Int) : m.count w now = w.enter m.width now := by
  by_cases h : m.width < now - w.start
  · rw [enter_of_over (decide_eq_true h)]
    unfold RateLimitMiddleware.count
    simp only [if_pos h]
  · rw [enter_of_open (decide_eq_false h)]
    unfold RateLimitMiddleware.count
    simp only [if_neg h]

theorem answer_eq_callNext_iff (count : Nat) : m.answer count = .callNext ↔ (count : Int) ≤ m.requestsPerWindow := by
  unfold RateLimitMiddleware.answer
  split
  · rename_i h
    exact iff_of_false (by simp) (not_le.mpr h)
  · rename_i h
    exact iff_of_true rfl (not_lt.mp h)

/-- **The run of an identity is a chain of anchored windows.** -/
theorem serveOne_eq_anchored (w : Window Int) (arrivals : List Arrival) :
    (m.serveOne (some w) arrivals).map Handled.call =
      anchored m.requestsPerWindow m.width w (arrivals.map Arrival.now) := by
  induction arrivals generalizing w with
  | nil => rfl
  | cons a later ih =>
    rw [RateLimitMiddleware.serveOne, List.map_cons, List.map_cons, anchored, ih]
    have hentry : m.count (entryOf (some w) a) a.now = w.enter m.width a.now := count_eq_enter w a.now
    rw [hentry]
    congr 1
    exact congrArg (Call.mk a.now (w.enter m.width a.now).start) (decide_eq_decide.mpr (answer_eq_callNext_iff _))

/-- A new client starts with the entry of the default factory. -/
theorem serveOne_none (a : Arrival) (later : List Arrival) :
    m.serveOne none (a :: later) = m.serveOne (some ⟨0, a.created⟩) (a :: later) := rfl

theorem windowStart_of_mem_serveOne {entry : Option (Window Int)} {arrivals : List Arrival} {h : Handled}
    (hmem : h ∈ m.serveOne entry arrivals) : h.windowStart = some h.call.start := by
  induction arrivals generalizing entry with
  | nil => cases hmem
  | cons a later ih =>
    rcases List.mem_cons.mp hmem with rfl | hmem
    · rfl
    · exact ih hmem

/-- The times of the requests are in order. -/
theorem pairwise_now {arrivals : List Arrival} (hclock : (readings arrivals).Pairwise (· ≤ ·)) :
    (arrivals.map Arrival.now).Pairwise (· ≤ ·) := by
  refine hclock.sublist ?_
  clear hclock
  induction arrivals with
  | nil => exact List.Sublist.refl _
  | cons a later ih => exact (ih.cons a.created).cons_cons a.now

theorem readings_sublist {arrivals arrivals' : List Arrival} (h : arrivals.Sublist arrivals')
    (hclock : (readings arrivals').Pairwise (· ≤ ·)) : (readings arrivals).Pairwise (· ≤ ·) :=
  hclock.sublist (h.flatMap _)

/-! ## The limit -/

/-- A request of the identity that is forwarded in the closed interval from `a` on. -/
def forwardedIn (lib : Library) (m : RateLimitMiddleware) (clientId : String) (a : Int) (h : Handled) : Bool :=
  isOf lib clientId h.arrival && decide (h.response = .callNext) &&
    decide (a ≤ h.arrival.now ∧ h.arrival.now ≤ a + m.width)

/-- A request of the identity that is forwarded in its window with this start. -/
def forwardedInWindow (lib : Library) (clientId : String) (start : Option Int) (h : Handled) : Bool :=
  isOf lib clientId h.arrival && decide (h.response = .callNext) && decide (h.windowStart = start)

/-- Counting requests of one identity is counting in its own run. -/
theorem countP_of_identity (p : Handled → Bool) (handled : List Handled) :
    handled.countP (fun h => isOf lib clientId h.arrival && p h) =
      (handled.filter fun h => isOf lib clientId h.arrival).countP p := by
  rw [List.countP_filter]
  exact List.countP_congr fun h _ => by rw [Bool.and_comm]

/-- **No more than twice the limit**, in any interval as long as the window. -/
theorem countP_forwardedIn_le {arrivals : List Arrival} (hclock : (readings arrivals).Pairwise (· ≤ ·))
    (clientId : String) (a : Int) :
    (m.serve lib .empty arrivals).countP (forwardedIn lib m clientId a) ≤ 2 * m.requestsPerWindow.toNat := by
  have hone := serve_filter lib m .empty clientId arrivals
  have hsorted := pairwise_now (readings_sublist (List.filter_sublist : (arrivals.filter (isOf lib clientId)).Sublist arrivals) hclock)
  rw [Dict.get_empty] at hone
  have hcount : (m.serve lib .empty arrivals).countP (forwardedIn lib m clientId a) =
      ((m.serveOne none (arrivals.filter (isOf lib clientId))).map Handled.call).countP
        (forwardedFrom m.width a) := by
    rw [List.countP_map, ← hone, ← countP_of_identity]
    refine List.countP_congr fun h _ => ?_
    rw [forwardedIn, Bool.and_assoc]
    rfl
  rw [hcount]
  generalize arrivals.filter (isOf lib clientId) = own at hsorted
  cases own with
  | nil => exact Nat.zero_le _
  | cons first later =>
    rw [serveOne_none, serveOne_eq_anchored]
    exact countP_forwarded_le _ hsorted a

/-- Only counted requests are answered by the limiter. -/
theorem counted_of_answered {arrivals : List Arrival} {h : Handled} (hmem : h ∈ m.serve lib clients arrivals)
    (hanswer : h.response ≠ .callNext) : isCounted lib h.arrival = true := by
  induction arrivals generalizing clients with
  | nil => cases hmem
  | cons a later ih =>
    rcases List.mem_cons.mp hmem with rfl | hmem
    · by_contra hcounted
      rw [Bool.not_eq_true] at hcounted
      exact hanswer (congrArg Prod.fst (dispatch_of_not_counted hcounted))
    · exact ih hmem

/-- The same in the run of one identity. -/
theorem countP_of_refused_one {own : List Arrival} (hclock : (readings own).Pairwise (· ≤ ·))
    {before after : List Handled} {h : Handled} (hserve : m.serveOne none own = before ++ h :: after)
    (hrefused : h.response ≠ .callNext) :
    before.countP (fun e => decide (e.response = .callNext) && decide (e.windowStart = h.windowStart)) =
      m.requestsPerWindow.toNat := by
  have hmem : ∀ e ∈ before ++ h :: after, e.windowStart = some e.call.start := by
    intro e he
    rw [← hserve] at he
    exact windowStart_of_mem_serveOne he
  have hchain := congrArg (List.map Handled.call) hserve
  have hcall : h.call = ⟨h.arrival.now, h.call.start, false⟩ :=
    congrArg (Call.mk h.arrival.now h.call.start) (decide_eq_false hrefused)
  cases own with
  | nil => cases before <;> cases hserve
  | cons first later =>
    -- the readings of the clock: the first request, the making of its entry, the later requests
    obtain ⟨hfirst, hrest⟩ := List.pairwise_cons.mp hclock
    obtain ⟨hcreated, hlater⟩ := List.pairwise_cons.mp hrest
    have htimes : ∀ t ∈ later.map Arrival.now, first.created ≤ t := by
      intro t ht
      obtain ⟨a, ha, rfl⟩ := List.mem_map.mp ht
      exact hcreated _ (List.mem_flatMap.mpr ⟨a, ha, List.mem_cons_self⟩)
    rw [serveOne_none, serveOne_eq_anchored, List.map_append, List.map_cons, List.map_cons, hcall] at hchain
    rw [← forwarded_of_refused_first (pairwise_now hlater) (hfirst _ List.mem_cons_self) htimes hchain,
      List.countP_map]
    refine List.countP_congr fun e he => ?_
    rw [hmem e (List.mem_append_left _ he), hmem h (List.mem_append_right _ List.mem_cons_self), Bool.and_comm,
      decide_eq_decide.mpr Option.some_inj]
    rfl

/-- **A request is refused only when its window has forwarded the limit.** -/
theorem countP_of_refused {arrivals : List Arrival} (hclock : (readings arrivals).Pairwise (· ≤ ·))
    {before after : List Handled} {h : Handled} (hserve : m.serve lib .empty arrivals = before ++ h :: after)
    (hrefused : h.response ≠ .callNext) :
    before.countP (forwardedInWindow lib (rateLimitIdentity lib h.arrival) h.windowStart) =
      m.requestsPerWindow.toNat := by
  have hmem : h ∈ m.serve lib .empty arrivals := by
    rw [hserve]
    exact List.mem_append_right _ List.mem_cons_self
  have hcounted := counted_of_answered hmem hrefused
  generalize hid : rateLimitIdentity lib h.arrival = clientId
  have hof : isOf lib clientId h.arrival = true :=
    Bool.and_eq_true_iff.mpr ⟨hcounted, beq_iff_eq.mpr hid⟩
  have hone := serve_filter lib m .empty clientId arrivals
  rw [Dict.get_empty, hserve, List.filter_append, List.filter_cons, if_pos hof] at hone
  rw [← countP_of_refused_one
    (readings_sublist (List.filter_sublist : (arrivals.filter (isOf lib clientId)).Sublist arrivals) hclock)
    hone.symm hrefused, ← countP_of_identity]
  refine List.countP_congr fun e _ => ?_
  rw [forwardedInWindow, Bool.and_assoc]

/-- **The rate limit.**  In every closed interval as long as the window no identity has more than twice the limit
    forwarded; a request is answered 429 only when its window has forwarded the limit; and what an identity gets
    is what it would get alone. -/
theorem http_rate_limit (lib : Library) (m : RateLimitMiddleware) {arrivals : List Arrival}
    (hclock : (readings arrivals).Pairwise (· ≤ ·)) :
    (∀ (clientId : String) (a : Int),
      (m.serve lib .empty arrivals).countP (forwardedIn lib m clientId a) ≤ 2 * m.requestsPerWindow.toNat) ∧
    (∀ (before after : List Handled) (h : Handled) (detail : String) (retryAfter : Int),
      m.serve lib .empty arrivals = before ++ h :: after → h.response = .json 429 detail retryAfter →
      before.countP (forwardedInWindow lib (rateLimitIdentity lib h.arrival) h.windowStart) =
        m.requestsPerWindow.toNat) ∧
    (∀ clientId : String,
      (m.serve lib .empty arrivals).filter (fun h => isOf lib clientId h.arrival) =
        m.serve lib .empty (arrivals.filter (isOf lib clientId))) := by
  refine ⟨countP_forwardedIn_le hclock, ?_, ?_⟩
  · intro before after h detail retryAfter hserve hanswer
    refine countP_of_refused hclock hserve ?_
    rw [hanswer]
    simp
  · intro clientId
    rw [serve_filter, serve_of_identity fun a ha => (List.mem_filter.mp ha).2]

/-- ASCII text; no token is hashed and no proxy is trusted. -/
def sampleLibrary : Library := ⟨.ascii, id, some⟩

/-- A request from this host, with nothing set. -/
def sampleArrival (host : String) (now : Int) : Arrival :=
  ⟨⟨none, none, "/api/v1/chat", some host⟩, ⟨none, none⟩, now, now⟩

/-- One request a minute, and two clients. -/
def sampleArrivals : List Arrival :=
  [sampleArrival "a" 0, sampleArrival "a" 1000000, sampleArrival "b" 1000000, sampleArrival "a" 61000000]

/-- The second request of the one client is refused, and the other client does not matter to it. -/
theorem http_rate_limit_sample :
    ((RateLimitMiddleware.mk 1 60).serve sampleLibrary .empty sampleArrivals).map Handled.response =
      [.callNext, .json 429 "Too many requests. Please try again later." 60, .callNext, .callNext] ∧
    ((RateLimitMiddleware.mk 1 60).serve sampleLibrary .empty sampleArrivals).countP
      (forwardedIn sampleLibrary ⟨1, 60⟩ "ip:a" 1000000) ≤ 2 :=
  ⟨by decide +kernel, (http_rate_limit sampleLibrary ⟨1, 60⟩ (by decide +kernel)).1 "ip:a" 1000000⟩

end FinancialRag.Middleware
