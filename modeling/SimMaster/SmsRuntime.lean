import SimMaster.Machine

/-!
# The SMS runtime

One `SmsRuntimeStateMachine` keeps the delivery record of the text being sent and of the text being
received. The parts of a received text are kept in one list under their reference and sequence
number, the first one with each, and `partsComplete` looks at the whole list.
-/

namespace SimMaster.SmsRuntime

/-- Which way a text goes. -/
inductive SmsDirection where
  | mobileOriginated
  | mobileTerminated
  deriving DecidableEq

/-- How far the MESSAGE of a text has come. -/
inductive SipMessageState where
  | queued
  | submitted
  | provisional
  | accepted
  | rejected
  | timeout
  deriving DecidableEq

/-- The name of the state in a summary. -/
def SipMessageState.asStr : SipMessageState → String
  | queued => "queued"
  | submitted => "submitted"
  | provisional => "provisional"
  | accepted => "accepted"
  | rejected => "rejected"
  | timeout => "timeout"

/-- What the RP layer has answered. -/
inductive RpduAckState where
  | none
  | acked
  | error
  deriving DecidableEq

/-- What the two layers come to. -/
inductive SmsDeliveryState where
  | queued
  | submitted
  | accepted
  | delivered
  | received
  | failed
  deriving DecidableEq

/-- The transport of the receiver. -/
inductive SmsTransportKind where
  | tcp
  | udp
  deriving DecidableEq

/-- The name of the transport in a summary. -/
def SmsTransportKind.asStr : SmsTransportKind → String
  | tcp => "tcp"
  | udp => "udp"

/-- A part that has come. -/
structure SmsPartState where
  reference : UInt16
  sequence : UInt8
  total : UInt8
  received : Bool
  deriving DecidableEq

/-- What is known of the text of one direction. -/
structure SmsDeliveryRecord where
  direction : SmsDirection
  sipState : SipMessageState := .queued
  rpduAck : RpduAckState := .none
  deliveryReported : Bool := false
  failureCause : Option String := none
  parts : List SmsPartState := []
  deriving DecidableEq

namespace SmsDeliveryRecord

/-- Every number from 1 to the total of the first part has a part, and no part has another total. -/
def partsComplete (record : SmsDeliveryRecord) : Bool :=
  match record.parts with
  | [] => false
  | first :: _ =>
    first.total != 0 && record.parts.all (fun part => part.total == first.total) &&
      (List.range' 1 first.total.toNat).all fun number =>
        record.parts.any fun part => part.sequence == UInt8.ofNat number && part.received

/-- A failure comes first; then the direction decides. -/
def aggregateState (record : SmsDeliveryRecord) : SmsDeliveryState :=
  if record.failureCause.isSome ∨ record.sipState = .rejected ∨ record.sipState = .timeout ∨
      record.rpduAck = .error then .failed
  else if record.direction = .mobileTerminated then
    if record.partsComplete ∨ record.parts.isEmpty then .received else .submitted
  else if record.deliveryReported then .delivered
  else if record.rpduAck = .acked ∨ record.sipState = .accepted then .accepted
  else match record.sipState with
    | .queued => .queued
    | .submitted | .provisional => .submitted
    | .accepted => .accepted
    | .rejected | .timeout => .failed

/-- The state in the words of the API. -/
def apiStatus (record : SmsDeliveryRecord) : String :=
  match record.aggregateState with
  | .queued | .submitted => "pending"
  | .accepted | .delivered => "sent"
  | .received => "received"
  | .failed => "failed"

end SmsDeliveryRecord

/-- What is kept of an RPDU. -/
structure SmsRpduSummary where
  direction : String
  rpduKind : String := "rp_data"
  userDataBytes : ℕ
  segmentReference : Option UInt16 := none
  segmentSequence : Option UInt8 := none
  segmentTotal : Option UInt8 := none
  deriving DecidableEq

/-- What is kept of a MESSAGE or of its response. -/
structure SmsSipMessageSummary where
  direction : String
  method : String := "MESSAGE"
  transport : String
  sipState : String
  sipStatus : Option UInt16 := none
  contentType : String := "application/vnd.3gpp.sms"
  bodyBytes : ℕ
  deriving DecidableEq

/-- How a text is acknowledged. -/
structure SmsAckPlan where
  ackKind : String
  transport : String
  sipResponseCode : UInt16 := 200
  rpAckPresent : Bool := true
  failureCause : Option String := none
  deriving DecidableEq

/-- What is said of the text whose part came last. -/
structure SmsReassemblyState where
  keyScope : String := "sender_destination_dcs_reference"
  reference : UInt16
  expectedParts : UInt8
  receivedParts : UInt8
  complete : Bool
  duplicateParts : UInt8
  lastSequence : Option UInt8
  deriving DecidableEq

/-- The refusals. -/
inductive SmsRuntimeError where
  | invalidPart (sequence total : UInt8)
  | sipRejected (code : UInt16)
  | inconsistentState (reason : String)
  deriving DecidableEq

/-- A record for each direction, and what was said last. -/
structure SmsRuntimeStateMachine where
  receiverTransport : SmsTransportKind
  subscribeRegReady : Bool := false
  mo : SmsDeliveryRecord := { direction := .mobileOriginated }
  mt : SmsDeliveryRecord := { direction := .mobileTerminated }
  lastSipMessage : Option SmsSipMessageSummary := none
  lastRpdu : Option SmsRpduSummary := none
  lastAck : Option SmsAckPlan := none
  reassembly : Option SmsReassemblyState := none
  deriving DecidableEq

namespace SmsRuntimeStateMachine

variable (machine : SmsRuntimeStateMachine)

/-- The machine of a profile whose receiver has the given transport. -/
def new (receiverTransport : String) : SmsRuntimeStateMachine :=
  { receiverTransport := if receiverTransport = "udp" then .udp else .tcp }

/-- The subscription to reg stands. -/
def markSubscribeRegReady : SmsRuntimeStateMachine := { machine with subscribeRegReady := true }

/-- A text is queued; a failure of the one before stays in the record. -/
def queueMoText (userDataBytes : ℕ) : SmsRpduSummary × SmsRuntimeStateMachine :=
  let rpdu : SmsRpduSummary := { direction := "mobile_originated", userDataBytes }
  (rpdu, { machine with
    mo := { machine.mo with sipState := .queued }
    lastRpdu := some rpdu })

/-- The MESSAGE has gone out. -/
def submitMoSipMessage : SmsSipMessageSummary × SmsRuntimeStateMachine :=
  let summary : SmsSipMessageSummary :=
    { direction := "outbound"
      transport := machine.receiverTransport.asStr
      sipState := SipMessageState.submitted.asStr
      bodyBytes := (machine.lastRpdu.map fun rpdu => rpdu.userDataBytes).getD 0 }
  (summary, { machine with
    mo := { machine.mo with sipState := .submitted }
    lastSipMessage := some summary })

/-- The response to the MESSAGE; only a 2xx accepts. -/
def acceptMoSipResponse (sipStatus : UInt16) :
    Except SmsRuntimeError SmsSipMessageSummary × SmsRuntimeStateMachine :=
  if ¬(200 ≤ sipStatus ∧ sipStatus < 300) then
    (.error (.sipRejected sipStatus), { machine with
      mo := { machine.mo with
        sipState := .rejected
        failureCause := some ("sip_" ++ toString sipStatus) } })
  else
    let summary : SmsSipMessageSummary :=
      { direction := "inbound"
        transport := machine.receiverTransport.asStr
        sipState := SipMessageState.accepted.asStr
        sipStatus := some sipStatus
        bodyBytes := 0 }
    (.ok summary, { machine with
      mo := { machine.mo with sipState := .accepted }
      lastSipMessage := some summary })

/-- The RP-ACK has come. -/
def acceptMoRpAck : SmsAckPlan × SmsRuntimeStateMachine :=
  let ack : SmsAckPlan := { ackKind := "rp_ack", transport := machine.receiverTransport.asStr }
  (ack, { machine with mo := { machine.mo with rpduAck := .acked }, lastAck := some ack })

/-- The delivery is reported. -/
def markMoDeliveryReported : SmsRuntimeStateMachine :=
  { machine with mo := { machine.mo with deliveryReported := true } }

/-- The list of parts after a part has come: the first with its reference and number stays. -/
def storePart (parts : List SmsPartState) (reference : UInt16) (sequence total : UInt8) :
    List SmsPartState :=
  if parts.any fun part => part.reference == reference && part.sequence == sequence then parts
  else parts ++ [⟨reference, sequence, total, true⟩]

/-- A part has come. Its reference is counted by itself, but completion is that of the list. -/
def receiveMtPart (reference : UInt16) (sequence total : UInt8) (userDataBytes : ℕ) :
    Except SmsRuntimeError SmsAckPlan × SmsRuntimeStateMachine :=
  if sequence = 0 ∨ total = 0 ∨ total < sequence then
    (.error (.invalidPart sequence total), machine)
  else
    let mt := { machine.mt with
      sipState := .accepted
      rpduAck := .acked
      parts := storePart machine.mt.parts reference sequence total }
    let duplicateParts := UInt8.ofNat ((mt.parts.filter fun part =>
      part.reference == reference && part.sequence == sequence).length - 1)
    let receivedParts := UInt8.ofNat
      (mt.parts.filter fun part => part.reference == reference && part.received).length
    let complete := mt.partsComplete
    let ack : SmsAckPlan :=
      { ackKind := if complete then "rp_ack_complete" else "rp_ack_part"
        transport := machine.receiverTransport.asStr }
    (.ok ack, { machine with
      mt
      lastRpdu := some
        { direction := "mobile_terminated"
          userDataBytes
          segmentReference := some reference
          segmentSequence := some sequence
          segmentTotal := some total }
      lastSipMessage := some
        { direction := "inbound"
          transport := machine.receiverTransport.asStr
          sipState := mt.sipState.asStr
          bodyBytes := userDataBytes }
      reassembly := some
        { reference
          expectedParts := total
          receivedParts
          complete
          duplicateParts
          lastSequence := some sequence }
      lastAck := some ack })

/-- What must hold of the two records. -/
def assertStateConsistency : Except SmsRuntimeError Unit :=
  if machine.mo.rpduAck = .acked ∧ machine.mo.apiStatus = "pending" then
    .error (.inconsistentState "mo_rp_ack_must_not_remain_pending")
  else if machine.mt.partsComplete ∧ machine.mt.apiStatus ≠ "received" then
    .error (.inconsistentState "complete_mt_reassembly_must_be_received")
  else .ok ()

end SmsRuntimeStateMachine

/-! ## Runs -/

/-- The calls of the runtime. -/
inductive SmsCall where
  | markSubscribeRegReady
  | queueMoText (userDataBytes : ℕ)
  | submitMoSipMessage
  | acceptMoSipResponse (sipStatus : UInt16)
  | acceptMoRpAck
  | markMoDeliveryReported
  | receiveMtPart (reference : UInt16) (sequence total : UInt8) (userDataBytes : ℕ)

/-- What a call returns. -/
inductive SmsAnswer where
  | done
  | rpdu (summary : SmsRpduSummary)
  | sipMessage (result : Except SmsRuntimeError SmsSipMessageSummary)
  | ack (result : Except SmsRuntimeError SmsAckPlan)

/-- A call on the machine. -/
def step (machine : SmsRuntimeStateMachine) : SmsCall → SmsAnswer × SmsRuntimeStateMachine
  | .markSubscribeRegReady => (.done, machine.markSubscribeRegReady)
  | .queueMoText userDataBytes => (machine.queueMoText userDataBytes).map .rpdu id
  | .submitMoSipMessage =>
    machine.submitMoSipMessage.map (fun summary => .sipMessage (.ok summary)) id
  | .acceptMoSipResponse sipStatus => (machine.acceptMoSipResponse sipStatus).map .sipMessage id
  | .acceptMoRpAck => machine.acceptMoRpAck.map (fun ack => .ack (.ok ack)) id
  | .markMoDeliveryReported => (.done, machine.markMoDeliveryReported)
  | .receiveMtPart reference sequence total userDataBytes =>
    (machine.receiveMtPart reference sequence total userDataBytes).map .ack id

end SimMaster.SmsRuntime
