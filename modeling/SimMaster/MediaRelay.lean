import SimMaster.IpAddr
import SimMaster.Machine
import SimMaster.RtpPacket

/-!
# The media relay

`RtpRelayCore` decides for every datagram that arrives on one of two legs where it goes: RTP and
RTCP of one call share a port on each leg and are told apart by their framing. A leg may learn its
peer from the source of what arrives. RTP may get another payload type on the way, as the two
dialogs number their codecs differently, and is held back in a direction that the dialogs do not
allow.
-/

namespace SimMaster.Media

open Rust

inductive RelayLeg where
  | operator
  | internal
  deriving DecidableEq

/-- The opposite leg. -/
def RelayLeg.peer : RelayLeg → RelayLeg
  | .operator => .internal
  | .internal => .operator

/-- The directions in which RTP may pass. -/
structure MediaRelayPolicy where
  operatorToInternalRtp : Bool
  internalToOperatorRtp : Bool

def MediaRelayPolicy.allowsRtpFrom (policy : MediaRelayPolicy) : RelayLeg → Bool
  | .operator => policy.operatorToInternalRtp
  | .internal => policy.internalToOperatorRtp

inductive MediaDatagramKind where
  | rtp
  | rtcpMux
  /-- anything, where no framing is required -/
  | opaqueDatagram
  deriving DecidableEq

/-- One relayed leg's addressing and learned remote peer. -/
structure LegEndpoint where
  remote : Option Rust.SocketAddr
  /-- whether to trust and latch the first observed source address -/
  latch : Bool
  packets : ℕ := 0
  bytes : ℕ := 0

structure PayloadTypeMapping where
  operator : UInt8
  internal : UInt8
  deriving DecidableEq

/-- A forwarding decision of the relay core. -/
structure ForwardDecision where
  toLeg : RelayLeg
  dest : Rust.SocketAddr
  kind : MediaDatagramKind
  rewritePayloadType : Option UInt8
  deriving DecidableEq

inductive RelayError where
  | peerAddressUnknown
  | notRtp
  deriving DecidableEq

/-! ## Framing -/

/-- The RTCP packets from here on, of which there are no more than `room`. -/
def rtcpPackets : (room : ℕ) → Bytes → Bool
  | _, [] => true
  | room + 1, first :: kind :: high :: low :: rest =>
    first >>> 6 == 2 && (192 ≤ kind && kind ≤ 223) &&
      let bodyLen := fromBe [high, low] * 4
      bodyLen ≤ rest.length && rtcpPackets room (rest.drop bodyLen)
  | _, _ => false

/-- A complete RTCP compound packet. -/
def isRtcpMuxDatagram (datagram : Bytes) : Bool :=
  rtcpPackets datagram.length datagram && !datagram.isEmpty

/-- The packet with another payload type. -/
def rewriteRtpPayloadType (datagram : Bytes) (payloadType : UInt8) : Option (Option Bytes) :=
  if 0x7f < payloadType then some none
  else do
    match ← RtpPacket.parse datagram with
    | none => return none
    | some _ => do
      let second : UInt8 ← datagram[1]?
      return some (datagram.set 1 ((second &&& 0x80) ||| payloadType))

/-! ## The core -/

structure RtpRelayCore where
  operator : LegEndpoint
  internal : LegEndpoint
  requireRtp : Bool := true
  payloadTypeMappings : List PayloadTypeMapping := []

namespace RtpRelayCore

/-- A mapping of numbers that are no payload types is left out. -/
def withPayloadTypeMapping (core : RtpRelayCore) (mapping : PayloadTypeMapping) : RtpRelayCore :=
  if mapping.operator ≤ 0x7f ∧ mapping.internal ≤ 0x7f then
    { core with payloadTypeMappings := core.payloadTypeMappings ++ [mapping] }
  else core

variable (core : RtpRelayCore)

def leg : RelayLeg → LegEndpoint
  | .operator => core.operator
  | .internal => core.internal

def setLeg (endpoint : LegEndpoint) : RelayLeg → RtpRelayCore
  | .operator => { core with operator := endpoint }
  | .internal => { core with internal := endpoint }

end RtpRelayCore

/-- A leg that has received a datagram. -/
def LegEndpoint.receive (endpoint : LegEndpoint) (src : Rust.SocketAddr) (datagram : Bytes) :
    LegEndpoint where
  remote := if endpoint.latch ∧ endpoint.remote ≠ some src then some src else endpoint.remote
  latch := endpoint.latch
  packets := min (endpoint.packets + 1) (2 ^ 64 - 1)
  bytes := min (endpoint.bytes + datagram.length) (2 ^ 64 - 1)

/-- The number by which a leg knows a payload type, and the one of the opposite leg. -/
def PayloadTypeMapping.onLeg (mapping : PayloadTypeMapping) : RelayLeg → UInt8 × UInt8
  | .operator => (mapping.operator, mapping.internal)
  | .internal => (mapping.internal, mapping.operator)

/-- The number of the opposite leg for a payload type that arrives on a leg. -/
def translate (mappings : List PayloadTypeMapping) (leg : RelayLeg) (current : UInt8) :
    Option UInt8 :=
  mappings.findSome? fun mapping =>
    if current = (mapping.onLeg leg).1 then some (mapping.onLeg leg).2 else none

/-- What a datagram is taken for. -/
def classify (requireRtp : Bool) (datagram : Bytes) :
    Option (Except RelayError MediaDatagramKind) :=
  if isRtcpMuxDatagram datagram then some (.ok .rtcpMux)
  else do
    match ← RtpPacket.parse datagram with
    | some _ => return .ok .rtp
    | none => return if requireRtp then .error .notRtp else .ok .opaqueDatagram

/-- A datagram that arrives on a leg. -/
structure Ingested where
  leg : RelayLeg
  src : Rust.SocketAddr
  datagram : Bytes

/-- One inbound datagram. `none` is a read outside the datagram. -/
def ingest (core : RtpRelayCore) (x : Ingested) :
    Option (Except RelayError ForwardDecision) × RtpRelayCore :=
  match classify core.requireRtp x.datagram with
  | none => (none, core)
  | some (.error error) => (some (.error error), core)
  | some (.ok kind) =>
    let core := core.setLeg ((core.leg x.leg).receive x.src x.datagram) x.leg
    match (core.leg x.leg.peer).remote with
    | none => (some (.error .peerAddressUnknown), core)
    | some dest =>
      match if kind = .rtp then x.datagram[1]?.map some else some none with
      | none => (none, core)
      | some second =>
        (some (.ok {
          toLeg := x.leg.peer
          dest
          kind
          rewritePayloadType := second.bind fun second =>
            translate core.payloadTypeMappings x.leg (second &&& 0x7f) }), core)

/-- What `forward_async` sends: the leg, the destination and the datagram. -/
structure Forwarded where
  toLeg : RelayLeg
  dest : Rust.SocketAddr
  datagram : Bytes
  deriving DecidableEq

/-- A datagram that arrives, and what is sent for it. -/
def forward (policy : MediaRelayPolicy) (core : RtpRelayCore) (x : Ingested) :
    Option (Option Forwarded) × RtpRelayCore :=
  match ingest core x with
  | (none, core) => (none, core)
  | (some (.error _), core) => (some none, core)
  | (some (.ok decision), core) =>
    let sent (datagram : Bytes) : Forwarded := ⟨decision.toLeg, decision.dest, datagram⟩
    if decision.kind = .rtp ∧ ¬policy.allowsRtpFrom x.leg then (some none, core)
    else if decision.kind = .rtp then
      match decision.rewritePayloadType with
      | some payloadType =>
        ((rewriteRtpPayloadType x.datagram payloadType).map fun rewritten => rewritten.map sent,
          core)
      | none => (some (some (sent x.datagram)), core)
    else (some (some (sent x.datagram)), core)

end SimMaster.Media
