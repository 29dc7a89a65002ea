import SimMaster.Clock
import SimMaster.NativeSms

/-!
# Unsolicited indications of a modem

Lines that no command has asked for are events. The hints that go out name what has happened and
carry no payload. A PDU that the network delivers directly comes as a header and the line after it;
it is queued under the SIM that was bound when it came, and its token is retired once.
-/

namespace SimMaster.At

open Rust NativeSms

def u64Max : ℕ := 2 ^ 64 - 1

structure UrcEvents where
  smsStored : Bool := false
  smsDirect : Bool := false
  deliveryReport : Bool := false
  callChanged : Bool := false
  ussd : Bool := false
  registrationChanged : Bool := false
  vendor : Bool := false
  deriving DecidableEq

inductive DirectKind where
  | deliver
  | statusReport
  deriving DecidableEq

def DirectKind.inboxKind : DirectKind → Str
  | .deliver => "deliver".toList
  | .statusReport => "report".toList

structure DirectPdu where
  token : ℕ
  kind : DirectKind
  simKey : Str
  hex : Str
  deriving DecidableEq

structure DirectBatch where
  pdus : List DirectPdu := []
  dropped : ℕ := 0
  deriving DecidableEq

structure QueuedPdu where
  value : DirectPdu
  received : Instant
  ackLive : Bool
  deriving DecidableEq

structure UrcRouter where
  events : UrcEvents := {}
  /-- A header that waits for its PDU, with the length it has announced. -/
  pendingPdu : Option (DirectKind × Option ℕ) := none
  direct : List QueuedPdu := []
  simKey : Option Str := none
  nextToken : ℕ := 0
  dropped : ℕ := 0
  framingFault : Bool := false
  ackBlocked : Bool := false
  deriving DecidableEq

/-! ## The line of a PDU -/

/-- `u8::from_str_radix(text.get(..2)?, 16)` of hexadecimal digits. -/
def hexByte : Str → Option ℕ
  | high :: low :: _ => some (hexValue high * 16 + hexValue low)
  | _ => none

/-- The message type of the TPDU after the service centre. -/
def messageType (line : Str) : Option ℕ := do
  let smscLength ← hexByte line
  let first ← hexByte (line.drop ((smscLength + 1) * 2))
  return first % 4

def DirectKind.messageType : DirectKind → ℕ
  | .deliver => 0
  | .statusReport => 2

/-- A line of hexadecimal digits, which can only be a PDU. -/
def hexLine (line : Str) : Bool :=
  !line.isEmpty && utf8Len line % 2 == 0 && line.all isAsciiHexdigit

/-- The PDU that a header has announced. -/
def validPdu (kind : DirectKind) (length : Option ℕ) (line : Str) : Bool :=
  utf8Len line ≤ 1024 &&
    ((hexByte line).bind fun n => length.map fun l => utf8Len line / 2 == n + 1 + l) == some true &&
    messageType line == some kind.messageType

/-- The length at the end of a header. -/
def headerLength (header : Str) : Option ℕ :=
  (((splitBy (· = ',') header).getLast?.map trim).bind (parseUnsigned usizeMax)).filter
    fun n => 1 ≤ n && n ≤ 255

namespace UrcRouter

/-! ## Losses and the scope of the SIM -/

def take (r : UrcRouter) : UrcEvents × UrcRouter := (r.events, { r with events := {} })

def lostPdu (r : UrcRouter) : UrcRouter :=
  { r with dropped := min (r.dropped + 1) u64Max, ackBlocked := true }

/-- A header that waits for its PDU is lost. -/
def dropPending (r : UrcRouter) : UrcRouter :=
  match r.pendingPdu with
  | some _ => { r with pendingPdu := none }.lostPdu
  | none => r

def resetFrame (r : UrcRouter) : UrcRouter := { r.dropPending with framingFault := false }

/-- A reopened port cannot tell whether an old acknowledgement is still outstanding: the PDUs are
kept, but not acknowledged. -/
def transportReset (r : UrcRouter) : UrcRouter :=
  { r.resetFrame with direct := r.resetFrame.direct.map fun pdu => { pdu with ackLive := false } }

def clearPrivateData (r : UrcRouter) : UrcRouter :=
  { r.resetFrame with
    dropped := min (r.resetFrame.dropped + r.resetFrame.direct.length) u64Max
    direct := []
    simKey := none
    ackBlocked := false }

def bindSim (r : UrcRouter) (simKey : Str) : Except Str UrcRouter :=
  if utf8Len simKey ≠ 64 ∨ !simKey.all isAsciiHexdigit then
    .error "AT direct SIM scope invalid".toList
  else if r.simKey ≠ some simKey then .ok { r.clearPrivateData with simKey := some simKey }
  else .ok r

def directBatch (r : UrcRouter) : DirectBatch :=
  { pdus := r.direct.map (·.value), dropped := r.dropped }

/-- An acknowledgement names no message: it may only be given to the one PDU it can be about. -/
def ackRefused (r : UrcRouter) (now : Instant) (pdu : QueuedPdu) : Bool :=
  r.direct.length ≠ 1 || r.pendingPdu.isSome || r.ackBlocked || !pdu.ackLive ||
    Duration.fromSecs 10 < now.saturatingDurationSince pdu.received ||
    r.simKey ≠ some pdu.value.simKey

def takeDirect (r : UrcRouter) (now : Instant) (token : ℕ) (acknowledge : Bool) :
    Option (DirectPdu × UrcRouter) := do
  let position ← r.direct.findIdx? (·.value.token == token)
  let pdu ← r.direct[position]?
  if acknowledge && r.ackRefused now pdu then none
  else some (pdu.value, { r with direct := r.direct.eraseIdx position })

def takeFramingFault (r : UrcRouter) : Bool × UrcRouter :=
  (r.framingFault, { r with framingFault := false })

def hasPendingFrame (r : UrcRouter) : Bool := r.pendingPdu.isSome

def blockAck (r : UrcRouter) : UrcRouter := { r with ackBlocked := true }

/-! ## Routing a line -/

/-- Even an invalid header owns the line after it. -/
def beginPdu (r : UrcRouter) (kind : DirectKind) (header : Str) : UrcRouter :=
  { r.dropPending with pendingPdu := some (kind, headerLength header) }

/-- The PDU after a header. -/
def takeBody (r : UrcRouter) (now : Instant) (kind : DirectKind) (length : Option ℕ) (line : Str)
    (command : Option Str) : UrcRouter :=
  let valid := validPdu kind length line
  match if valid && r.direct.length < 16 then r.simKey else none with
  | some simKey =>
    let token := max ((r.nextToken + 1) % 2 ^ 64) 1
    { r with
      nextToken := token
      direct := r.direct ++ [{
        value := { token, kind, simKey, hex := line.map Char.toUpper }
        received := now
        ackLive := true }] }
  | none =>
    { r.lostPdu with framingFault := r.framingFault || (!valid && command.isSome) }

def callFinals : List Str :=
  ["NO CARRIER".toList, "BUSY".toList, "NO ANSWER".toList, "NO DIALTONE".toList,
    "NO DIAL TONE".toList]

/-- The answers to a query have the name of the query. -/
def ownReply (upper command : Str) : Bool :=
  match splitOnce ':' upper, "AT".toList.isPrefixOf? command with
  | some (name, _), some stem => (splitBy (fun c => c = '?' || c = '=') stem).head? == some name
  | _, _ => false

/-- The calls end with these commands. -/
def dials (command : Str) : Bool := "ATD".toList.isPrefixOf command || command == "ATA".toList

/-- What is said of the line after the first colon. -/
def payload (line : Str) : Str := ((splitOnce ':' line).map (·.2)).getD []

def hasName (upper : Str) (names : List String) : Bool := names.any (·.toList.isPrefixOf upper)

end UrcRouter

/-- The arms for the unsolicited lines. -/
inductive Indication where
  | callFinal
  | call
  | storedSms
  | directPdu (kind : DirectKind)
  | storedReport
  | ussd
  | registration
  | pin
  | vendor
  deriving DecidableEq

/-- The indication of a line in upper case. -/
def indicationOf (upper : Str) : Option Indication :=
  if UrcRouter.callFinals.contains upper then some .callFinal
  else if upper = "RING".toList then some .call
  else if UrcRouter.hasName upper ["+CMTI:"] then some .storedSms
  else if UrcRouter.hasName upper ["+CMT:"] then some (.directPdu .deliver)
  else if UrcRouter.hasName upper ["+CDS:"] then some (.directPdu .statusReport)
  else if UrcRouter.hasName upper ["+CDSI:"] then some .storedReport
  else if UrcRouter.hasName upper ["+CLIP:", "+CRING:", "+CCWA:", "+COLP:"] then some .call
  else if UrcRouter.hasName upper ["+CUSD:"] then some .ussd
  else if UrcRouter.hasName upper ["+CREG:", "+CGREG:", "+CEREG:", "+C5GREG:"] then
    some .registration
  else if UrcRouter.hasName upper ["+CPIN:"] then some .pin
  else if UrcRouter.hasName upper ["+QIND:"] then some .vendor
  else none

namespace UrcRouter

/-- The header of a PDU sets its hint and waits for the line after it. -/
def noteDirect (events : UrcEvents) : DirectKind → UrcEvents
  | .deliver => { events with smsDirect := true }
  | .statusReport => { events with deliveryReport := true }

/-- What an indication does; false if the line is none. -/
def indicate (r : UrcRouter) (line upper command : Str) : Bool × UrcRouter :=
  match indicationOf upper with
  | some .callFinal => (!dials command, { r with events.callChanged := true })
  | some .call => (true, { r with events.callChanged := true })
  | some .storedSms => (true, { r with events.smsStored := true })
  | some (.directPdu kind) =>
    (true, { r with events := noteDirect r.events kind }.beginPdu kind (payload line))
  | some .storedReport => (true, { r with events.deliveryReport := true })
  | some .ussd => (true, { r with events.ussd := true })
  | some .registration => (true, { r with events.registrationChanged := true })
  | some .pin => (true, { r.clearPrivateData with events.registrationChanged := true })
  | some .vendor => (true, { r with events.vendor := true })
  | none => (false, r)

/-- A line that is not the PDU of a header. -/
def routeText (r : UrcRouter) (line : Str) (command : Option Str) : Bool × UrcRouter :=
  let upper := line.map Char.toUpper
  let command := (trim (command.getD [])).map Char.toUpper
  if ownReply upper command then (false, r) else r.indicate line upper command

/-- True means that the line must not enter the reply to the command. -/
def route (r : UrcRouter) (now : Instant) (line : Str) (command : Option Str) : Bool × UrcRouter :=
  let line := trim line
  match r.pendingPdu with
  | none => r.routeText line command
  | some (kind, length) =>
    if line.isEmpty then (true, r)
    else
      let r := { r with pendingPdu := none }
      if hexLine line then (true, r.takeBody now kind length line command)
      else { r.lostPdu with framingFault := command.isSome }.routeText line command

/-! ## What a line can do -/

section Fields

variable (r : UrcRouter)

@[simp] theorem dropPending_events : r.dropPending.events = r.events := by
  unfold dropPending
  split <;> rfl

@[simp] theorem dropPending_direct : r.dropPending.direct = r.direct := by
  unfold dropPending
  split <;> rfl

@[simp] theorem dropPending_simKey : r.dropPending.simKey = r.simKey := by
  unfold dropPending
  split <;> rfl

@[simp] theorem dropPending_nextToken : r.dropPending.nextToken = r.nextToken := by
  unfold dropPending
  split <;> rfl

@[simp] theorem dropPending_framingFault : r.dropPending.framingFault = r.framingFault := by
  unfold dropPending
  split <;> rfl

@[simp] theorem dropPending_pendingPdu : r.dropPending.pendingPdu = none := by
  unfold dropPending
  split
  next => rfl
  next h => exact h

/-- A header that is dropped blocks the acknowledgements. -/
@[simp] theorem dropPending_ackBlocked :
    r.dropPending.ackBlocked = (r.ackBlocked || r.pendingPdu.isSome) := by
  unfold dropPending
  split
  next h => simp [lostPdu, h]
  next h => simp [h]

theorem dropPending_of_none (h : r.pendingPdu = none) : r.dropPending = r := by
  rw [dropPending, h]

end Fields

/-- An indication sets a hint, begins a PDU or ends the scope of the SIM. -/
theorem indicate_cases (r : UrcRouter) (line upper command : Str) : ∃ events,
    (r.indicate line upper command).2 = { r with events } ∨ (∃ kind header,
      (r.indicate line upper command).2 = { r with events }.beginPdu kind header) ∨
    (r.indicate line upper command).2 = { r.clearPrivateData with events } := by
  unfold indicate
  cases hindication : indicationOf upper with
  | none => exact ⟨r.events, .inl rfl⟩
  | some indication =>
    cases indication with
    | directPdu kind => exact ⟨_, .inr (.inl ⟨_, _, rfl⟩)⟩
    | pin => exact ⟨_, .inr (.inr rfl)⟩
    | callFinal | call | storedSms | storedReport | ussd | registration | vendor =>
      exact ⟨_, .inl rfl⟩

theorem routeText_cases (r : UrcRouter) (line : Str) (command : Option Str) : ∃ events,
    (r.routeText line command).2 = { r with events } ∨
    (∃ kind header, (r.routeText line command).2 = { r with events }.beginPdu kind header) ∨
    (r.routeText line command).2 = { r.clearPrivateData with events } := by
  unfold routeText
  dsimp only
  split
  next => exact ⟨r.events, .inl rfl⟩
  next => exact r.indicate_cases ..

/-- The token of the next PDU. -/
def succToken (token : ℕ) : ℕ := max ((token + 1) % 2 ^ 64) 1

/-- The PDU after a header is queued or lost. -/
theorem takeBody_cases (r : UrcRouter) (now : Instant) (kind : DirectKind) (length : Option ℕ)
    (line : Str) (command : Option Str) :
    (∃ simKey, r.simKey = some simKey ∧ validPdu kind length line = true ∧ r.direct.length < 16 ∧
      r.takeBody now kind length line command = { r with
          nextToken := succToken r.nextToken
          direct := r.direct ++ [{
            value := ⟨succToken r.nextToken, kind, simKey, line.map Char.toUpper⟩
            received := now
            ackLive := true }] }) ∨
    ((validPdu kind length line = true → r.direct.length < 16 → r.simKey = none) ∧
      ∃ framingFault,
        r.takeBody now kind length line command = { r.lostPdu with framingFault }) := by
  unfold takeBody
  dsimp only
  by_cases hvalid : (validPdu kind length line && r.direct.length < 16) = true
  · rw [if_pos hvalid]
    rw [Bool.and_eq_true, decide_eq_true_eq] at hvalid
    cases hkey : r.simKey with
    | none => exact .inr ⟨fun _ _ => rfl, _, rfl⟩
    | some simKey => exact .inl ⟨simKey, rfl, hvalid.1, hvalid.2, rfl⟩
  · rw [if_neg hvalid]
    rw [Bool.and_eq_true, decide_eq_true_eq, not_and] at hvalid
    exact .inr ⟨fun h hlt => absurd hlt (hvalid h), _, rfl⟩

end UrcRouter

end SimMaster.At
