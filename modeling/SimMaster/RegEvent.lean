import SimMaster.DigestChallenge
import SimMaster.Machine
import SimMaster.Method
import SimMaster.RegEventSnapshot
import SimMaster.SipMessage

/-!
# The registration-event observer

`RegEventSubscription` keeps a subscription to the `reg` event for exactly one accepted REGISTER
binding. Its four operations (`poll`, `buildRequest`, `disable`, `onFrame`) are translated here one
by one, and `Call` and `step` put them together as a machine, so that a run is any list of calls
with any arguments. Instants and durations are natural numbers of nanoseconds. Random octets are
an argument of the calls that draw them, `none` when the source of entropy fails, and `xml` is the
tokenizer of the XML package.
-/

namespace SimMaster

namespace RegEvent

open Rust

/-! ## Time -/

def secs (n : ℕ) : ℕ := n * 1000000000

def requestedLeaseMax : ℕ := 3600
def transactionTimeout : ℕ := secs 32
def t1 : ℕ := 500000000
def t2 : ℕ := secs 4

/-- The instant `deadline` is set and has come. -/
def reached (deadline : Option ℕ) (now : ℕ) : Bool := deadline.any (· ≤ now)

@[simp] theorem reached_none (now : ℕ) : reached none now = false := rfl

@[simp] theorem reached_some (deadline now : ℕ) :
    reached (some deadline) now = decide (deadline ≤ now) := rfl

/-! ## The subscription -/

structure Transaction where
  wire : Bytes
  branch : Str
  deadline : ℕ
  resendAt : Option ℕ
  interval : ℕ
  deriving DecidableEq

structure RegEventSubscription where
  binding : RegEventBinding
  callId : Str
  localTag : Str
  remoteTag : Option Str
  target : Str
  dialogRoutes : Option (List Str)
  cseq : ℕ
  transaction : Option Transaction
  authPending : Option Bool
  authRounds : ℕ
  authDeadline : Option ℕ
  due : ℕ
  leaseDeadline : Option ℕ
  requestedLease : ℕ
  disabled : Bool
  lastNotify : Option (ℕ × Bytes)
  snapshot : Snapshot
  fullRequests : ℕ
  needFull : Bool
  authScope : Option (Bool × Str × Str)
  deriving DecidableEq

/-- Sixteen random octets in hexadecimal. -/
def randomId (entropy : Option Bytes) : Except ImsError Str :=
  match entropy with
  | some octets => .ok (hexLower octets)
  | none => .error ⟨"ims_reg_event_entropy_unavailable"⟩

/-- The part of a successful registration a request reads: its lease and its service route. -/
structure RegisteredImsContext where
  leaseExpiresSeconds : ℕ
  serviceRoute : Option Str

inductive RegEventAction where
  | begin
  | retransmit (wire : Bytes)
  | idle
  deriving DecidableEq

inductive RegEventFrame where
  | other
  | notify (responseStatus : ℕ) (effect : RegEventEffect)
  | authChallenge (challenge : DigestChallenge)
  | response (status : ℕ)
  deriving DecidableEq

namespace RegEventSubscription

def new (binding : RegEventBinding) (now : ℕ) (callEntropy tagEntropy : Option Bytes) :
    Except ImsError RegEventSubscription := do
  let callId ← randomId callEntropy
  let localTag ← randomId tagEntropy
  return {
    binding, callId := callId ++ "@reg-event.invalid".toList, localTag
    remoteTag := none, target := binding.aor, dialogRoutes := none, cseq := 0, transaction := none
    authPending := none, authRounds := 0, authDeadline := none, due := now
    leaseDeadline := none, requestedLease := requestedLeaseMax, disabled := false
    lastNotify := none, snapshot := {}, fullRequests := 0, needFull := false, authScope := none }

def disable (self : RegEventSubscription) : RegEventSubscription :=
  { self with disabled := true, transaction := none, authPending := none, authDeadline := none }

def nextDeadline (self : RegEventSubscription) : Option ℕ :=
  if self.disabled then none
  else
    let next := match self.transaction with
      | some transaction =>
        min (transaction.resendAt.getD transaction.deadline) transaction.deadline
      | none => self.authDeadline.getD self.due
    some (self.leaseDeadline.elim next fun expiry => min expiry next)

def poll (self : RegEventSubscription) (now : ℕ) : RegEventAction × RegEventSubscription :=
  if self.disabled then (.idle, self)
  else if reached self.leaseDeadline now || reached self.authDeadline now ||
      reached (self.transaction.map (·.deadline)) now then (.idle, self.disable)
  else match self.transaction with
    | some tx =>
      if reached tx.resendAt now then
        let interval := min (tx.interval * 2) t2
        (.retransmit tx.wire,
          { self with transaction := some { tx with interval, resendAt := some (now + interval) } })
      else (.idle, self)
    | none =>
      if self.authPending.isNone && self.due ≤ now then (.begin, self) else (.idle, self)

/-! ## Requests -/

/-- What a caller passes to `build_request`. -/
structure RequestArgs where
  route : ImsRoute
  registration : RegisteredImsContext
  userAgent : Str
  accessHeaders : List SipHeader
  authorization : Option Str
  now : ℕ
  entropy : Option Bytes

/-- The authorization header: none for a new transaction, a Digest header under the right name for
the continuation of a challenge. -/
def authorizationHeader : Option Bool → Option Str → Except ImsError (Option SipHeader)
  | none, none => .ok none
  | some proxy, some value => do
    -- `trim_end_matches("\r\n")` takes whole line ends off
    let (name, value) ← okOrInvalid (splitOnce ':' (trimLineEnds value))
    let expected := if proxy then "Proxy-Authorization" else "Authorization"
    if !eqIgnoreAsciiCase name expected.toList || !safeHeaderValue value ||
        !"Digest ".toList.isPrefixOf (trimStart value) then
      throw invalid
    return some { name, value := trim value }
  | _, _ => .error invalid
where
  trimLineEnds (value : Str) : Str := (dropLineEnds value.reverse).reverse
  dropLineEnds : Str → Str
    | '\n' :: '\r' :: rest => dropLineEnds rest
    | value => value

def header (name : String) (value : Str) : SipHeader := { name := name.toList, value }

/-- The Route headers: the dialog's, else the service route, else the P-CSCF. -/
def routeHeaders (self : RegEventSubscription) (args : RequestArgs) :
    Except ImsError (List SipHeader) :=
  match self.dialogRoutes, args.registration.serviceRoute with
  | some routes, _ => .ok (routes.map (header "Route"))
  | none, some routes => do
    let routes ← routeList routes
    return routes.map (header "Route")
  | none, none =>
    .ok [header "Route" ("<sip:".toList ++ sipHost args.route.pcscfAddr.ip ++ ":".toList ++
      decimal args.route.pcscfAddr.port.toNat ++ ";lr>".toList)]

/-- Names an access header may not have. -/
def reservedHeaders : List String :=
  ["via", "v", "from", "f", "to", "t", "call-id", "i", "cseq", "contact", "m", "event", "o",
    "accept", "expires", "content-length", "l", "content-type", "c", "route", "record-route",
    "authorization", "proxy-authorization", "user-agent", "max-forwards"]

/-- Access headers with distinct, unreserved names; `names` holds the names so far. -/
def accessHeadersOk : List Str → List SipHeader → Bool
  | _, [] => true
  | names, header :: headers =>
    let name := toAsciiLowercase header.name
    token name && safeHeaderValue header.value && !names.contains name &&
      !reservedHeaders.any (·.toList == name) && accessHeadersOk (name :: names) headers

/-- The request for the current state, with its CSeq and branch. -/
def subscribeRequest (self : RegEventSubscription) (args : RequestArgs)
    (headers : List SipHeader) (cseq : ℕ) (branch : Str) : SipRequest where
  method := "SUBSCRIBE".toList
  requestUri := self.target
  route := args.route
  branch := branch
  fromUri := self.binding.aor
  fromTag := self.localTag
  toValue := ['<'] ++ self.binding.aor ++ ['>'] ++
    self.remoteTag.elim [] fun tag => ";tag=".toList ++ tag
  callId := self.callId
  cseq := cseq
  headers := headers
  body := []

/-- The conditions on the state under which a request may be built. -/
def mayBuild (self : RegEventSubscription) (now : ℕ) : Bool :=
  !(self.disabled || self.transaction.isSome || reached self.leaseDeadline now ||
    reached self.authDeadline now) && !(self.authPending.isNone && now < self.due)

/-- The first `n` checked against the limit of CSeq numbers. -/
def nextCseq (self : RegEventSubscription) : Except ImsError ℕ :=
  if self.cseq + 1 < 0x80000000 then .ok (self.cseq + 1) else .error invalid

/-- A request that was sent: the budget of challenges starts anew with an unauthenticated one. -/
def beginTransaction (self : RegEventSubscription) (args : RequestArgs) (wire : Bytes)
    (branch : Str) (cseq : ℕ) : RegEventSubscription :=
  let self := if self.authPending.isNone then
    { self with authRounds := 0, authScope := none, needFull := false } else self
  { self with
    authPending := none
    authDeadline := none
    cseq := cseq
    transaction := some {
      wire, branch, deadline := args.now + transactionTimeout
      resendAt := if args.route.transport = .udp then some (args.now + t1) else none
      interval := t1 } }

theorem beginTransaction_eq (self : RegEventSubscription) (args : RequestArgs) (wire : Bytes)
    (branch : Str) (cseq : ℕ) : self.beginTransaction args wire branch cseq = { self with
      authRounds := if self.authPending.isNone then 0 else self.authRounds
      authScope := if self.authPending.isNone then none else self.authScope
      needFull := if self.authPending.isNone then false else self.needFull
      authPending := none
      authDeadline := none
      cseq := cseq
      transaction := some {
        wire, branch, deadline := args.now + transactionTimeout
        resendAt := if args.route.transport = .udp then some (args.now + t1) else none
        interval := t1 } } := by
  unfold beginTransaction
  split <;> rfl

/-- Build and remember the bytes actually sent. -/
def buildRequest (args : RequestArgs) : Method RegEventSubscription ImsError Bytes := do
  let self ← get
  if !self.mayBuild args.now then
    throw invalid
  let auth ← authorizationHeader self.authPending args.authorization
  if !safeHeaderValue args.userAgent || 32 < args.accessHeaders.length then
    throw invalid
  let routes ← self.routeHeaders args
  modify fun self => { self with
    requestedLease := min requestedLeaseMax args.registration.leaseExpiresSeconds }
  let self ← get
  if self.requestedLease = 0 then
    throw invalid
  if !accessHeadersOk [] args.accessHeaders then
    throw invalid
  let headers := routes ++ [
    header "Contact" (['<'] ++ self.binding.contactUri ++ ['>']),
    header "Event" "reg".toList,
    header "Accept" "application/reginfo+xml".toList,
    header "Expires" (decimal self.requestedLease),
    header "User-Agent" args.userAgent] ++ args.accessHeaders ++ auth.toList
  let cseq ← self.nextCseq
  let id ← randomId args.entropy
  let branch := "z9hG4bK".toList ++ id
  let wire := (self.subscribeRequest args headers cseq branch).build
  if maxHeaders < wire.length then
    throw invalid
  modify fun self => self.beginTransaction args wire branch cseq
  return wire

/-! ## Responses -/

/-- The response belongs to the transaction. -/
def responseMatches (self : RegEventSubscription) (tx : Transaction) (frame : Frame) :
    Except ImsError Bool := do
  let fromAddress ← address (← frame.required "from")
  let toAddress ← address (← frame.required "to")
  let (_, params) ← parameters (← frame.required "via")
  let branch := (params.find? (·.1 == "branch".toList)).bind (·.2)
  return (← frame.one "call-id") == some self.callId &&
    (← frame.cseq) == (self.cseq, "SUBSCRIBE".toList) &&
    fromAddress.uri == self.binding.aor && fromAddress.param "tag" == some self.localTag &&
    toAddress.uri == self.binding.aor && branch == some tx.branch

/-- The challenge has the proxy flag, the realm and, up to case, the algorithm of the scope. -/
def sameScope (scope : Bool × Str × Str) (challenge : DigestChallenge) : Bool :=
  let (proxy, realm, algorithm) := scope
  proxy == challenge.proxy && realm == challenge.realm &&
    eqIgnoreAsciiCase algorithm challenge.algorithm

/-- The scope of the challenges so far admits this one. -/
def scopeAdmits (self : RegEventSubscription) (challenge : DigestChallenge) : Bool :=
  self.authScope.all (sameScope · challenge)

/-- The one challenge of a 401 or 407 response. -/
def responseChallenge (self : RegEventSubscription) (frame : Frame) (status : ℕ) :
    Except ImsError DigestChallenge := do
  if 2 ≤ self.authRounds || (← frame.one "security-server").isSome ||
      (← frame.one "security-verify").isSome then
    throw invalid
  let wanted := if status = 401 then "www-authenticate" else "proxy-authenticate"
  let other := if status = 401 then "proxy-authenticate" else "www-authenticate"
  if (← frame.one other).isSome then
    throw invalid
  let value ← frame.required wanted
  if (Digest.splitDigestChallengeValues value).length ≠ 1 then
    throw invalid
  if self.authPending.isSome then
    throw invalid
  let challenge ← (if status = 401 then Digest.selectDigestChallenge [value] [] false
    else Digest.selectDigestChallenge [] [value] false)
  if !self.scopeAdmits challenge then
    throw invalid
  return challenge

/-- What an accepted 200 or 202 says. -/
structure Accepted where
  tag : Str
  target : Str
  routes : List Str
  expires : ℕ

def responseAccepted (self : RegEventSubscription) (frame : Frame) : Except ImsError Accepted := do
  let toAddress ← address (← frame.required "to")
  let tag ← validTag (← okOrInvalid (toAddress.param "tag"))
  if self.remoteTag.any (· != tag) then
    throw invalid
  let contact ← address (← frame.required "contact")
  let routes ← frame.routes true
  if self.dialogRoutes.any (fun old => !routes.isEmpty && old != routes) then
    throw invalid
  let expires ← positive (← frame.required "expires")
  return { tag, target := contact.uri, routes, expires := min expires self.requestedLease }

/-- A challenge is passed on, and waits for its answer. -/
def recordChallenge (self : RegEventSubscription) (challenge : DigestChallenge) (now : ℕ) :
    RegEventSubscription :=
  { self with
    transaction := none
    authRounds := self.authRounds + 1
    authScope := some (challenge.proxy, challenge.realm, challenge.algorithm)
    authPending := some challenge.proxy
    authDeadline := some (now + transactionTimeout) }

/-- The subscription is accepted until its lease ends. -/
def recordAccepted (self : RegEventSubscription) (accepted : Accepted) (now : ℕ) :
    RegEventSubscription :=
  { self with
    remoteTag := some accepted.tag
    target := accepted.target
    dialogRoutes := self.dialogRoutes.or (some accepted.routes)
    transaction := none
    leaseDeadline := some (now + secs accepted.expires)
    due := if self.needFull then now else now + secs (max (accepted.expires / 2) 1) }

def response (frame : Frame) (now : ℕ) (self : RegEventSubscription) :
    RegEventFrame × RegEventSubscription :=
  match self.transaction with
  | none => (.other, self)
  | some tx =>
    if !((self.responseMatches tx frame).toOption.getD false) then (.other, self)
    else
      let status := frame.status.getD 0
      if tx.deadline ≤ now || self.disabled then (.response status, self.disable)
      else if 100 ≤ status ∧ status < 200 then
        -- timer E continues at T2 in the proceeding state
        let tx := { tx with interval := t2, resendAt := tx.resendAt.map fun _ => now + t2 }
        (.response status, { self with transaction := some tx })
      else if status = 401 ∨ status = 407 then
        match self.responseChallenge frame status with
        | .ok challenge => (.authChallenge challenge, self.recordChallenge challenge now)
        | .error _ => (.response status, self.disable)
      else if status = 200 ∨ status = 202 then
        match self.responseAccepted frame with
        | .ok accepted => (.response status, self.recordAccepted accepted now)
        | .error _ => (.response status, self.disable)
      else (.response status, self.disable)

/-! ## NOTIFY requests -/

/-- `map_err(|_| status)`. -/
def orStatus {α : Type} (status : ℕ) : Except ImsError α → Except ℕ α
  | .ok a => .ok a
  | .error _ => .error status

/-- `ok_or(status)`. -/
def okOrStatus {α : Type} (status : ℕ) : Option α → Except ℕ α
  | some a => .ok a
  | none => .error status

/-- A header that must be there, with status 400 if it is not. -/
def requiredOr400 (frame : Frame) (name : String) : Except ℕ Str := do
  okOrStatus 400 (← orStatus 400 (frame.one name))

structure SubscriptionState where
  terminated : Bool
  expires : Option ℕ
  retryAfter : Option ℕ

/-- The parameters of a subscription state. -/
def stateParameters (state : SubscriptionState) : List (Str × Option Str) →
    Except ImsError SubscriptionState
  | [] => .ok state
  | (name, value) :: params => do
    let value ← okOrInvalid value
    if name = "expires".toList ∧ state.terminated = false then
      let expires ← positive value
      stateParameters { state with expires := some expires } params
    else if name = "retry-after".toList ∧ state.terminated = true then
      let retryAfter ← unsigned value
      stateParameters { state with retryAfter := some retryAfter } params
    else if name = "reason".toList ∧ state.terminated = true ∧
        ["deactivated", "probation", "rejected", "timeout", "giveup", "noresource",
          "invariant"].any (·.toList == toAsciiLowercase value) then
      stateParameters state params
    else throw invalid

/-- Whether the subscription has ended. -/
def stateTerminated (state : Str) : Except ImsError Bool :=
  if state = "active".toList ∨ state = "pending".toList then .ok false
  else if state = "terminated".toList then .ok true
  else .error invalid

def subscriptionState (value : Str) : Except ImsError SubscriptionState := do
  let (state, params) ← parameters value
  let terminated ← stateTerminated (toAsciiLowercase state)
  let state ← stateParameters { terminated, expires := none, retryAfter := none } params
  if !terminated && state.expires.isNone then
    throw invalid
  return state

/-- The checks that tie a NOTIFY to the event, the dialog and the binding: its remote tag and its
CSeq. -/
def notifyDialog (self : RegEventSubscription) (frame : Frame) : Except ℕ (Str × ℕ) := do
  let event ← okOrStatus 489 (← orStatus 400 (frame.one "event"))
  let (event, params) ← orStatus 400 (parameters event)
  -- no Event id is ever sent, an id denotes a different subscription
  if !eqIgnoreAsciiCase event "reg".toList || !params.isEmpty then
    throw 489
  if (← orStatus 400 (frame.one "call-id")) ≠ some self.callId then
    throw 481
  let fromAddress ← orStatus 400 (address (← requiredOr400 frame "from"))
  let toAddress ← orStatus 400 (address (← requiredOr400 frame "to"))
  let remote ← orStatus 400 (validTag (← okOrStatus 481 (fromAddress.param "tag")))
  if toAddress.uri ≠ self.binding.aor ∨ fromAddress.uri ≠ self.binding.aor ∨
      toAddress.param "tag" ≠ some self.localTag ∨ self.remoteTag.any (· != remote) ∨
      (frame.requestUri.bind fun uri => (canonicalUri uri).toOption) ≠
        some self.binding.contactUri then
    throw 481
  let (cseq, method) ← orStatus 400 frame.cseq
  if method ≠ "NOTIFY".toList then
    throw 400
  return (remote, cseq)

/-- What the body and the headers about it say: the state of the subscription and the document. -/
def notifyContent (xml : XmlReader) (frame : Frame) :
    Except ℕ (SubscriptionState × Option Document) := do
  let subscription ← orStatus 400
    (subscriptionState (← requiredOr400 frame "subscription-state"))
  let contentType ← orStatus 400 (frame.one "content-type")
  if (← orStatus 400 (frame.one "require")).isSome then
    throw 420
  let via ← okOrStatus 400 (frame.headers.lookup "via".toList)
  let (sentBy, viaParams) ← orStatus 400
    (parameters ((splitBy (· == ',') via).headD []))
  if !(["SIP/2.0/UDP ", "SIP/2.0/TCP ", "SIP/2.0/TLS "].any (·.toList.isPrefixOf sentBy)) ||
      !viaParams.any (fun (name, value) => name == "branch".toList && value.any token) then
    throw 400
  if frame.body.isEmpty && subscription.terminated then
    return (subscription, none)
  let (media, params) ← orStatus 415 (parameters (← okOrStatus 415 contentType))
  if !eqIgnoreAsciiCase media "application/reginfo+xml".toList || params.any (fun (name, value) =>
      name != "charset".toList || !value.any fun value =>
        eqIgnoreAsciiCase (trimEndMatches (· == '"') (value.dropWhile (· == '"')))
          "utf-8".toList) then
    throw 415
  let document ← orStatus 400 (parseDocument xml frame.body)
  return (subscription, some document)

/-- The later of two optional delays. -/
def laterDelay : Option ℕ → Option ℕ → Option ℕ
  | some a, some b => some (max a b)
  | some a, none => some a
  | none, b => b

/-- A reported end of the binding takes the longer of the two delays. -/
def withRetryAfter (retryAfter : Option ℕ) : RegEventEffect → RegEventEffect
  | .bindingTerminated reason delay => .bindingTerminated reason (laterDelay delay retryAfter)
  | effect => effect

/-- The dialog facts and the snapshot of an accepted NOTIFY. -/
def recordNotify (self : RegEventSubscription) (snapshot : Snapshot) (remote target : Str)
    (routes : List Str) (cseq : ℕ) (wire : Bytes) : RegEventSubscription :=
  { self with
    snapshot := snapshot
    remoteTag := some remote
    target := target
    dialogRoutes := self.dialogRoutes.or (some routes)
    lastNotify := some (cseq, wire) }

/-- A NOTIFY can shorten a subscription but never renew it on its own. -/
def recordExpires (self : RegEventSubscription) (expires : Option ℕ) (now : ℕ) :
    RegEventSubscription :=
  match expires with
  | none => self
  | some expires =>
    let expires := min expires self.requestedLease
    let deadline := now + secs expires
    let renewal := now + secs (max (expires / 2) 1)
    { self with
      leaseDeadline := some (self.leaseDeadline.elim deadline fun old => min old deadline)
      due := if self.transaction.isNone then min self.due renewal else self.due }

/-- A gap in the versions asks for a full document, once. -/
def recordNeedFull (self : RegEventSubscription) (effect : RegEventEffect) (now : ℕ) :
    RegEventSubscription :=
  if effect = .needFull then
    let self := { self with needFull := true, fullRequests := self.fullRequests + 1 }
    if 1 < self.fullRequests then self.disable else { self with due := now }
  else self

/-- The end of the subscription or of the binding ends the observation. -/
def recordEnd (self : RegEventSubscription) (terminated : Bool) (effect : RegEventEffect) :
    RegEventSubscription :=
  if terminated || effect.isTermination then self.disable else self

/-- The subscription still takes NOTIFY requests: it is on, its lease runs, and the dialog exists or
its request is still open. -/
def listening (self : RegEventSubscription) (now : ℕ) : Bool :=
  !(self.disabled || reached self.leaseDeadline now ||
    (self.remoteTag.isNone && self.transaction.all (·.deadline ≤ now)))

/-- The document is applied to a copy of the snapshot; without one nothing happens. -/
def applyDocument (self : RegEventSubscription) :
    Option Document → Except ImsError RegEventEffect × Snapshot
  | some document => self.snapshot.apply document self.binding
  | none => (.ok .none, self.snapshot)

/-- The part of `notify` after the check for a repeated CSeq. -/
def notifyNew (xml : XmlReader) (frame : Frame) (wire : Bytes) (now : ℕ) (remote : Str)
    (cseq : ℕ) : Method RegEventSubscription ℕ RegEventEffect := do
  let self ← get
  if !self.listening now then
    throw 481
  let (subscription, document) ← notifyContent xml frame
  let contact ← orStatus 400 (address (← requiredOr400 frame "contact"))
  let routes ← orStatus 400 (frame.routes false)
  if self.dialogRoutes.any fun old => !routes.isEmpty && old != routes then
    throw 481
  let applied := self.applyDocument document
  let effect ← orStatus 400 applied.1
  let effect := withRetryAfter subscription.retryAfter effect
  modify fun self => self.recordNotify applied.2 remote contact.uri routes cseq wire
  modify fun self => self.recordExpires subscription.expires now
  modify fun self => self.recordNeedFull effect now
  modify fun self => self.recordEnd subscription.terminated effect
  return effect

def notify (xml : XmlReader) (frame : Frame) (wire : Bytes) (now : ℕ) :
    Method RegEventSubscription ℕ RegEventEffect := do
  let self ← get
  let (remote, cseq) ← self.notifyDialog frame
  match self.lastNotify with
  | some (last, bytes) =>
    if cseq = last then
      if wire = bytes then return .none else throw 400
    else if cseq < last then throw 500
    else notifyNew xml frame wire now remote cseq
  | none => notifyNew xml frame wire now remote cseq

/-! ## Frames -/

/-- A NOTIFY of the `reg` event, or one of this dialog without an event, is handled here. -/
def takesNotify (self : RegEventSubscription) (wire : Bytes) (frame : Frame) : Bool :=
  isRegNotify wire || ((frame.one "call-id").toOption.join == some self.callId &&
    (frame.one "event").toOption.join.isNone)

def onFrame (xml : XmlReader) (wire : Bytes) (now : ℕ) (self : RegEventSubscription) :
    RegEventFrame × RegEventSubscription :=
  let isNotify := (ascii "NOTIFY ").isPrefixOf wire
  match Frame.parse wire with
  | .error _ =>
    if isNotify && isRegNotify wire then (.notify 400 .none, self) else (.other, self)
  | .ok frame =>
    if isNotify then
      if !self.takesNotify wire frame then (.other, self)
      else match (notify xml frame wire now).call self with
        | (.ok effect, self) => (.notify 200 effect, self)
        | (.error status, self) => (.notify status .none, self)
    else if frame.status.isSome then response frame now self
    else (.other, self)

/-! ## The machine -/

inductive Call where
  | poll (now : ℕ)
  | buildRequest (args : RequestArgs)
  | disable
  | onFrame (wire : Bytes) (now : ℕ)

inductive Answer where
  | action (action : RegEventAction)
  | built (wire : Except ImsError Bytes)
  | done
  | frame (frame : RegEventFrame)

/-- One call on a subscription. -/
def step (xml : XmlReader) (self : RegEventSubscription) : Call → Answer × RegEventSubscription
  | .poll now => let (action, self) := self.poll now; (.action action, self)
  | .buildRequest args => let (wire, self) := (buildRequest args).call self; (.built wire, self)
  | .disable => (.done, self.disable)
  | .onFrame wire now => let (frame, self) := onFrame xml wire now self; (.frame frame, self)

theorem step_onFrame (xml : XmlReader) (self : RegEventSubscription) (wire : Bytes) (now : ℕ) :
    step xml self (.onFrame wire now) =
      (.frame (onFrame xml wire now self).1, (onFrame xml wire now self).2) := rfl

/-- The states that runs of calls lead to. -/
def Reachable (xml : XmlReader) (self : RegEventSubscription) : Prop :=
  ∃ binding now callEntropy tagEntropy start calls,
    new binding now callEntropy tagEntropy = .ok start ∧ self = Machine.run (step xml) start calls

end RegEventSubscription

end RegEvent

end SimMaster
