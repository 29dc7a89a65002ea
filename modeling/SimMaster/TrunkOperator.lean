import SimMaster.IpAddr

/-!
# The seam between the trunk and the operator

Commands go from the trunk to an IMS access leg and events come back. A message names its call; what
else it carries is handed on as it is.
-/

namespace SimMaster.Trunk

open Rust

/-- `MediaOffer`. The descriptions of the media are not looked into. -/
structure MediaOffer where
  audio : Str
  video : Option Str
  deriving DecidableEq

inductive DtmfSource where
  | sipInfo
  | rtpEvent
  deriving DecidableEq

structure DtmfSignal where
  digit : Char
  durationMs : ℕ
  source : DtmfSource
  deriving DecidableEq

inductive DialogTransferState where
  | pending
  | accepted
  | trying
  | succeeded
  | failed
  deriving DecidableEq

inductive ReferSubscriptionState where
  | pending
  | active
  | terminated
  deriving DecidableEq

structure ReferNotification where
  subscriptionState : ReferSubscriptionState
  sipStatus : ℕ
  transferState : DialogTransferState
  eventId : Option ℕ
  deriving DecidableEq

inductive OperatorCommand where
  | startCall (callId caller callee : Str) (trunkLocalIp : IpAddr) (offer : MediaOffer)
  | cancelCall (callId : Str)
  | hangupCall (callId : Str)
  | renegotiate (callId : Str) (trunkLocalIp : IpAddr) (offer : MediaOffer)
  | acceptRenegotiation (callId : Str) (body : Bytes)
  | rejectRenegotiation (callId : Str) (status : ℕ)
  | reportProvisional (callId : Str) (status : ℕ) (body : Option Bytes)
  | acceptCall (callId : Str) (body : Bytes)
  | rejectCall (callId : Str) (status : ℕ)
  | sendDtmf (callId : Str) (signal : DtmfSignal)
  | transferCall (callId referTo : Str)
  deriving DecidableEq

/-- Facts that are only observed. -/
inductive VoiceCallObservation where
  | remoteRinging
  | remoteAnswered
  | remoteEnded
  | localCancelled
  | localFailure
  | evidenceLost
  deriving DecidableEq

/-- `Rejected` carries a diagnosis as well, for the caller of the API. -/
inductive OperatorEvent where
  | started (callId caller callee : Str)
  | attemptChanged (callId : Str)
  | observation (callId : Str) (fact : VoiceCallObservation)
  | connected (callId : Str)
  | incoming (callId caller : Str) (body : Bytes)
  | provisional (callId : Str) (status : ℕ) (body : Option Bytes)
  | answered (callId : Str) (body : Bytes)
  | renegotiate (callId : Str) (body : Bytes)
  | dtmf (callId : Str) (signal : DtmfSignal)
  | transferResponse (callId : Str) (status : ℕ)
  | transferNotify (callId : Str) (notification : ReferNotification)
  | rejected (callId : Str) (status : ℕ)
  | unavailable (callId : Str)
  | ended (callId : Str)
  | cancelled (callId : Str)
  deriving DecidableEq

namespace OperatorCommand

/-- `command_call_id`. -/
def callId : OperatorCommand → Str
  | startCall callId .. | cancelCall callId | hangupCall callId | renegotiate callId ..
  | acceptRenegotiation callId _ | rejectRenegotiation callId _ | reportProvisional callId ..
  | acceptCall callId _ | rejectCall callId _ | sendDtmf callId _ | transferCall callId _ => callId

/-- `is_terminal_command`. -/
def isTerminal : OperatorCommand → Bool
  | cancelCall _ | hangupCall _ | rejectCall .. => true
  | _ => false

def isStart : OperatorCommand → Bool
  | startCall .. => true
  | _ => false

def isAccept : OperatorCommand → Bool
  | acceptCall .. => true
  | _ => false

def isTransfer : OperatorCommand → Bool
  | transferCall .. => true
  | _ => false

/-- The offer of a start asks for video. -/
def asksVideo : OperatorCommand → Bool
  | startCall _ _ _ _ offer => offer.video.isSome
  | _ => false

end OperatorCommand

namespace OperatorEvent

/-- `event_call_id`. -/
def callId : OperatorEvent → Str
  | started callId .. | attemptChanged callId | observation callId _ | connected callId
  | incoming callId .. | provisional callId .. | answered callId _ | renegotiate callId _
  | dtmf callId _ | transferResponse callId _ | transferNotify callId _ | rejected callId _
  | unavailable callId | ended callId | cancelled callId => callId

/-- `is_terminal_event`. -/
def isTerminal : OperatorEvent → Bool
  | rejected .. | unavailable _ | ended _ | cancelled _ => true
  | _ => false

def isIncoming : OperatorEvent → Bool
  | incoming .. => true
  | _ => false

def isUnavailable : OperatorEvent → Bool
  | unavailable _ => true
  | _ => false

/-- The event says that the call was answered. -/
def isAnswer : OperatorEvent → Bool
  | answered .. => true
  | observation _ .remoteAnswered => true
  | _ => false

end OperatorEvent

end SimMaster.Trunk
