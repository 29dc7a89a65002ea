import SimMaster.Clock
import SimMaster.ReferTransfer
import SimMaster.RegisterResponse
import SimMaster.SipMessage

/-!
# The trunk driver

The driver owns the socket to the PBX. Datagrams that arrive on it go to `handle_inbound`: a MESSAGE
becomes a short message, a REGISTER of the other side is refused, and everything else is for the
bridge. The trunk registers itself over the same socket, so `send_register_and_receive` reads it as
well while it waits for its answer.

What the driver calls is a record of methods (`Parts`) on the state of the whole trunk; nothing that
is said about the driver depends on what they do.
-/

namespace SimMaster.Trunk

open Rust List

/-! ## What the driver calls -/

inductive BridgeError where
  | malformedRequest (reason : String)
  | invalidState (reason : String)
  | unsupportedMedia (reason : String)
  | forbidden (reason : String)

/-- `Display`. -/
def BridgeError.text : BridgeError → String
  | malformedRequest reason => "malformed trunk request: " ++ reason
  | invalidState reason => "invalid trunk bridge state: " ++ reason
  | unsupportedMedia reason => "unsupported trunk media: " ++ reason
  | forbidden reason => "forbidden trunk request: " ++ reason

/-- What the PBX is told when the bridge refuses its request. -/
def BridgeError.response : BridgeError → ℕ × Str
  | unsupportedMedia _ => (488, "Not Acceptable Here".toList)
  | invalidState _ => (481, "Call/Transaction Does Not Exist".toList)
  | malformedRequest _ => (400, "Bad Request".toList)
  | forbidden _ => (403, "Forbidden".toList)

structure BridgeOutput where
  asteriskFrames : List Bytes
  operatorCommands : List OperatorCommand

inductive OperatorAvailability where
  | unavailable
  | eventDriven

structure SmsRequest where
  sender : Str
  recipient : Str
  body : Str

/-- The parts of the trunk that the driver calls; each works on the state `σ` of them all. -/
structure Parts (σ : Type) where
  /-- `TrunkUdpTransport::send` -/
  send : Bytes → Method σ String Unit
  recordSipRx : Bytes → σ → σ
  recordSipTx : Bytes → σ → σ
  countInvite : (reinvite : Bool) → σ → σ
  syncBridgeDiagnostics : σ → σ
  hasCall : Str → σ → Bool
  setOperator : OperatorAvailability → σ → σ
  handleAsterisk : Bytes → Method σ BridgeError BridgeOutput
  handleOperatorEvent : OperatorEvent → Method σ BridgeError BridgeOutput
  /-- the link to the operator, where there is one -/
  isAvailable : σ → Bool
  sendSmsRequest : SmsRequest → σ → σ
  sendCommand : OperatorCommand → Method σ OperatorCommand Unit

/-! ## Frames -/

/-- `USER_AGENT`. -/
def userAgent : Str := "SimAdmin Trunk/1.1.5".toList

/-- `sip::is_request`: whatever is not a response. -/
def isRequestFrame (frame : Bytes) : Bool := !startsWith frame "SIP/2.0 ".toList

/-- One of the headers that a response repeats from its request. -/
def repeatedHeader (request : Bytes) (header : String) : Except String Str := do
  let value ← okOr ("trunk_request_" ++ String.ofList (toAsciiLowercase header.toList) ++
    "_missing")
    (headerValue request header.toList)
  let tagged := if header = "To" ∧ ¬";tag=".toList <:+: toAsciiLowercase value then
      value ++ ";tag=simadmin".toList
    else value
  return header.toList ++ ": ".toList ++ tagged ++ crlf

/-- `build_response`: a response without a body. -/
def buildResponse (request : Bytes) (status : ℕ) (reason : Str) : Except String Bytes := do
  let repeated ← ["From", "To", "Call-ID", "CSeq"].mapM (repeatedHeader request)
  let vias := (headerValues request "Via".toList).flatMap fun value =>
    "Via: ".toList ++ value ++ crlf
  return asBytes ("SIP/2.0 ".toList ++ decimal status ++ " ".toList ++ reason ++ crlf ++ vias ++
    repeated.flatten ++ "Server: ".toList ++ userAgent ++ crlf ++
    "Allow: INVITE, ACK, CANCEL, BYE, INFO, REFER, NOTIFY, OPTIONS, MESSAGE".toList ++ crlf ++
    "Content-Length: 0".toList ++ crlf ++ crlf)

/-- The user part of a SIP URI. -/
def sipUser (uri : Str) : Option Str := do
  let rest ← stripPrefix "sip:".toList uri
  let user ← (splitBy (fun c => c = '@' || c = ';') rest).head?
  if user.isEmpty then none else some user

def sipUserFromHeader (frame : Bytes) (header : Str) : Option Str := do
  let value ← headerValue frame header
  let bracketed := (splitOnce '<' value).bind fun (_, rest) => (splitOnce '>' rest).map Prod.fst
  sipUser (bracketed.getD value)

def sipRequestUser (frame : Bytes) : Option Str := do
  let text ← fromUtf8 frame
  let line ← (lines text).head?
  let uri ← (splitWhitespace line)[1]?
  sipUser uri

/-! ## A datagram -/

section Inbound

variable {σ : Type} (p : Parts σ)

/-- Sends a frame and counts it. -/
def transmit (frame : Bytes) : Method σ String Unit := do
  p.send frame
  modify (p.recordSipTx frame)

/-- Refuses a request. -/
def refuse (frame : Bytes) (status : ℕ) (reason : String) : Method σ String Unit := do
  let response ← liftM (buildResponse frame status reason.toList)
  transmit p response

/-- A MESSAGE of the PBX. -/
def handleMessage (operator : Bool) (frame : Bytes) : Method σ String Unit := do
  let contentType := toAsciiLowercase ((headerValue frame "Content-Type".toList).getD [])
  if !contentType.isEmpty ∧ ¬"text/plain".toList <+: contentType then
    refuse p frame 415 "Unsupported Media Type"
  else if 4096 < (body frame).length then refuse p frame 413 "Request Entity Too Large"
  else
    let text ← liftM (okOr "trunk_message_body_not_utf8" (fromUtf8 (body frame)))
    let sender := (sipUserFromHeader frame "From".toList).getD []
    let recipient := ((sipRequestUser frame).or (sipUserFromHeader frame "To".toList)).getD []
    refuse p frame 202 "Accepted"
    if operator then modify (p.sendSmsRequest ⟨sender, recipient, text⟩)

/-- A command of the bridge; the bridge is told when the operator does not take a new call. -/
def forwardCommand (command : OperatorCommand) : Method σ String Unit := do
  let s ← get
  match (p.sendCommand command).call s with
  | (.ok (), s) => set s
  | (.error refused, s) =>
    set s
    if refused.isStart then
      match (p.handleOperatorEvent (.unavailable refused.callId)).call s with
      | (.error error, s) =>
        set s
        throw error.text
      | (.ok output, s) =>
        set s
        output.asteriskFrames.forM (transmit p)

/-- The bridge gets a frame, with what it then asks for. -/
def handleBridge (operator : Bool) (frame : Bytes) : Method σ String Unit := do
  let s ← get
  let operatorAvailable := operator && p.isAvailable s
  modify (p.setOperator (if operatorAvailable then .eventDriven else .unavailable))
  let s ← get
  match (p.handleAsterisk frame).call s with
  | (.error error, s) =>
    set s
    if isRequestFrame frame then
      match buildResponse frame error.response.1 error.response.2 with
      | .ok response => transmit p response
      | .error _ => pure ()
  | (.ok output, s) =>
    set s
    output.asteriskFrames.forM (transmit p)
    if operatorAvailable then
      output.operatorCommands.forM (forwardCommand p)
      modify p.syncBridgeDiagnostics

/-- A datagram of the PBX. `operator` tells whether the driver has the link to the operator. -/
def handleInbound (operator : Bool) (frame : Bytes) : Method σ String Unit := do
  if frame = [0x0d, 0x0a] ∨ frame = [0x0d, 0x0a, 0x0d, 0x0a] then return ()
  modify (p.recordSipRx frame)
  if isRequest frame "MESSAGE".toList then handleMessage p operator frame
  else
    if isRequest frame "INVITE".toList then
      let s ← get
      modify (p.countInvite ((headerValue frame "Call-ID".toList).any fun callId =>
        p.hasCall callId s))
    if isRequest frame "REGISTER".toList then refuse p frame 405 "Method Not Allowed"
    else handleBridge p operator frame

end Inbound

/-! ## The register transaction -/

/-- `REGISTER_RESPONSE_TIMEOUT`. -/
def registerResponseTimeout : Duration := Duration.fromSecs 5

/-- What the clock shows at the top of the loop and what `recv` gives then. -/
structure Receipt where
  now : Instant
  received : Except String Bytes

/-- The answer to the request: the number and the method of its CSeq. -/
def answersRegister (expectedCseq : ℕ) (frame : Bytes) : Bool :=
  let parts := splitWhitespace ((headerValue frame "CSeq".toList).getD [])
  parts.head?.bind (parseUnsigned u32Max) = some expectedCseq &&
    parts[1]?.any fun method => eqIgnoreAsciiCase method "REGISTER".toList

/-- A transaction that has waited for some receipts: its result, once there is one, the frames it
has received and those of them that it has handed to `handleInbound`, and the state. -/
structure Waited (σ : Type) where
  result : Option (Except String Bytes)
  received : List Bytes
  handed : List Bytes
  state : σ

section Register

variable {σ : Type} (p : Parts σ) (request : Bytes) (expectedCseq : ℕ) (operator : Bool)
  (deadline : Instant)

/-- The loop of `send_register_and_receive`; how long it waits for a receipt only decides what that
is. -/
def receiveLoop (retransmitAfter : Duration) : List Receipt → σ → Waited σ
  | [], s => ⟨none, [], [], s⟩
  | receipt :: rest, s =>
    if deadline ≤ receipt.now then ⟨some (.error "trunk_register_timeout"), [], [], s⟩
    else
      match receipt.received with
      | .ok frame =>
        if isRequestFrame frame then
          match (handleInbound p operator frame).call s with
          | (.error error, s) => ⟨some (.error error), [frame], [frame], s⟩
          | (.ok (), s) =>
            let waited := receiveLoop retransmitAfter rest s
            { waited with received := frame :: waited.received, handed := frame :: waited.handed }
        else
          let s := p.recordSipRx frame s
          let ignored := receiveLoop retransmitAfter rest s
          let ignored := { ignored with received := frame :: ignored.received }
          if answersRegister expectedCseq frame then
            match parseStatus frame with
            | .error error => ⟨some (.error error.code), [frame], [], s⟩
            | .ok status => if 200 ≤ status then ⟨some (.ok frame), [frame], [], s⟩ else ignored
          else ignored
      | .error error =>
        if error = "trunk_udp_receive_timeout" then
          match (transmit p request).call s with
          | (.error error, s) => ⟨some (.error error), [], [], s⟩
          | (.ok (), s) =>
            receiveLoop (min (retransmitAfter * 2) (Duration.fromSecs 2)) rest s
        else ⟨some (.error error), [], [], s⟩

/-- The request is sent at `begun`. -/
def sendRegisterAndReceive (begun : Instant) (receipts : List Receipt) (s : σ) : Waited σ :=
  match (transmit p request).call s with
  | (.error error, s) => ⟨some (.error error), [], [], s⟩
  | (.ok (), s) =>
    receiveLoop p request expectedCseq operator (begun + registerResponseTimeout)
      (Duration.fromMillis 500) receipts s

/-- The loops of the driver outside a transaction, as far as they read the socket. -/
def callLoop : List Receipt → σ → Waited σ
  | [], s => ⟨none, [], [], s⟩
  | receipt :: rest, s =>
    match receipt.received with
    | .ok frame =>
      match (handleInbound p operator frame).call s with
      | (.error error, s) => ⟨some (.error error), [frame], [frame], s⟩
      | (.ok (), s) =>
        let waited := callLoop rest s
        { waited with received := frame :: waited.received, handed := frame :: waited.handed }
    | .error error =>
      if error = "trunk_udp_receive_timeout" then callLoop rest s
      else ⟨some (.error error), [], [], s⟩

end Register

/-! ## What is handed on -/

/-- A response to a REGISTER. -/
def isRegisterResponse (frame : Bytes) : Bool :=
  !isRequestFrame frame &&
    (splitWhitespace ((headerValue frame "CSeq".toList).getD []))[1]?.any fun method =>
      eqIgnoreAsciiCase method "REGISTER".toList

section Handed

variable {σ : Type} (p : Parts σ) (request : Bytes) (expectedCseq : ℕ) (operator : Bool)

/-- Outside a transaction every frame is handed on. -/
theorem callLoop_handed (receipts : List Receipt) (s : σ) :
    (callLoop p operator receipts s).handed = (callLoop p operator receipts s).received := by
  induction receipts generalizing s with
  | nil => rfl
  | cons receipt rest ih =>
    rw [callLoop]
    cases receipt.received with
    | ok frame =>
      dsimp only
      rcases (handleInbound p operator frame).call s with ⟨error | ⟨⟩, s'⟩
      · rfl
      · exact congrArg (frame :: ·) (ih s')
    | error error =>
      dsimp only
      split
      · exact ih s
      · rfl

/-- A transaction hands on the requests. -/
theorem receiveLoop_handed (deadline : Instant) (retransmitAfter : Duration)
    (receipts : List Receipt) (s : σ) :
    (receiveLoop p request expectedCseq operator deadline retransmitAfter receipts s).handed =
      (receiveLoop p request expectedCseq operator deadline retransmitAfter receipts
        s).received.filter isRequestFrame := by
  induction receipts generalizing retransmitAfter s with
  | nil => rfl
  | cons receipt rest ih =>
    rw [receiveLoop]
    split
    case isTrue => rfl
    case isFalse =>
      cases receipt.received with
      | ok frame =>
        dsimp only
        split
        case isTrue hrequest =>
          rcases (handleInbound p operator frame).call s with ⟨error | ⟨⟩, s'⟩
          · rw [filter_singleton, hrequest]
            rfl
          · rw [filter_cons_of_pos hrequest]
            exact congrArg (frame :: ·) (ih _ _)
        case isFalse hresponse =>
          have hignored := ih retransmitAfter (p.recordSipRx frame s)
          have hnone : [] = [frame].filter isRequestFrame := by
            rw [filter_cons_of_neg hresponse, filter_nil]
          rw [← filter_cons_of_neg hresponse] at hignored
          split
          · cases parseStatus frame with
            | error error => exact hnone
            | ok status =>
              dsimp only
              split
              · exact hnone
              · exact hignored
          · exact hignored
      | error error =>
        dsimp only
        split
        · rcases (transmit p request).call s with ⟨error | ⟨⟩, s'⟩
          · rfl
          · exact ih _ _
        · rfl

/-- **A registration and the calls.** While the trunk waits for the answer to its REGISTER, every
frame that is not a response to a REGISTER is handed on, once and in order, just when every response
that is received then is one to a REGISTER. -/
theorem handed_iff (begun : Instant) (receipts : List Receipt) (s : σ) :
    (sendRegisterAndReceive p request expectedCseq operator begun receipts s).handed =
        (sendRegisterAndReceive p request expectedCseq operator begun receipts s).received.filter
          (fun frame => !isRegisterResponse frame) ↔
      ∀ frame ∈ (sendRegisterAndReceive p request expectedCseq operator begun receipts s).received,
        isRequestFrame frame = true ∨ isRegisterResponse frame = true := by
  have hhanded :
      (sendRegisterAndReceive p request expectedCseq operator begun receipts s).handed =
        (sendRegisterAndReceive p request expectedCseq operator begun receipts s).received.filter
          isRequestFrame := by
    rw [sendRegisterAndReceive]
    rcases (transmit p request).call s with ⟨error | ⟨⟩, s'⟩
    · rfl
    · exact receiveLoop_handed p request expectedCseq operator _ _ receipts s'
  rw [hhanded]
  generalize (sendRegisterAndReceive p request expectedCseq operator begun receipts s).received =
    received
  constructor
  · intro heq frame hmem
    by_cases hregister : isRegisterResponse frame = true
    · exact Or.inr hregister
    · have hkept : frame ∈ received.filter fun frame => !isRegisterResponse frame :=
        mem_filter.mpr ⟨hmem, by rw [Bool.eq_false_iff.mpr hregister]; rfl⟩
      rw [← heq] at hkept
      exact Or.inl (mem_filter.mp hkept).2
  · intro h
    refine filter_congr fun frame hmem => ?_
    rw [isRegisterResponse]
    rcases h frame hmem with hrequest | hregister
    · rw [hrequest]
      rfl
    · rw [isRegisterResponse, Bool.and_eq_true, Bool.not_eq_true'] at hregister
      rw [hregister.1, hregister.2]
      rfl

end Handed

/-- The other side rings while the trunk waits for the answer to REGISTER 2. -/
def ringingThenAnswer : List Receipt :=
  [⟨0, .ok (asBytes "SIP/2.0 180 Ringing\r\nCSeq: 1 INVITE\r\n\r\n".toList)⟩,
    ⟨0, .ok (asBytes "SIP/2.0 200 OK\r\nCSeq: 2 REGISTER\r\n\r\n".toList)⟩]

/-- Parts that do nothing. -/
def idleParts : Parts Unit where
  send _ := pure ()
  recordSipRx _ s := s
  recordSipTx _ s := s
  countInvite _ s := s
  syncBridgeDiagnostics s := s
  hasCall _ _ := false
  setOperator _ s := s
  handleAsterisk _ := pure ⟨[], []⟩
  handleOperatorEvent _ := pure ⟨[], []⟩
  isAvailable _ := false
  sendSmsRequest _ s := s
  sendCommand _ := pure ()

/-- The ringing is not handed on. -/
theorem ringing_not_handed :
    (sendRegisterAndReceive idleParts [] 2 true 0 ringingThenAnswer ()).handed ≠
      (sendRegisterAndReceive idleParts [] 2 true 0 ringingThenAnswer ()).received.filter
        (fun frame => !isRegisterResponse frame) := by
  decide +kernel

end SimMaster.Trunk
