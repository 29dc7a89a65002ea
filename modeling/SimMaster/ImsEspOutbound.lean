import SimMaster.Esp
import SimMaster.InternetChecksum

/-!
# IMS packets on their way out

A packet of the IMS client that belongs to a protected flow leaves as ESP: its payload is protected,
put into a UDP datagram if the flow wants that, and the IP header is written anew around it. The
addresses of a packet are read from it, and the header is only changed in its length, its protocol
and its checksum.
-/

namespace SimMaster.TunGateway

open Rust Method

/-- The reasons of `TunGatewayError`. -/
abbrev TunGatewayError : Type := String

/-! ## IP packets -/

/-- `ParsedIpPacket`. -/
structure ParsedIpPacket where
  version : UInt8
  headerLen : ℕ
  payloadStart : ℕ
  payloadEnd : ℕ
  nextHeader : UInt8
  src : IpAddr
  dst : IpAddr
  deriving DecidableEq

namespace ParsedIpPacket

/-- `parse_v4`. -/
def parseV4 (packet : Bytes) : Except TunGatewayError ParsedIpPacket := do
  if packet.length < 20 then
    throw "ims_esp_ipv4_packet_too_short"
  let ihl := TunGateway.headerLen packet
  if ihl < 20 ∨ packet.length < ihl then
    throw "ims_esp_ipv4_header_invalid"
  let totalLen := fromBe (slice packet 2 4)
  if totalLen < ihl ∨ packet.length < totalLen then
    throw "ims_esp_ipv4_length_invalid"
  return {
    version := 4
    headerLen := ihl
    payloadStart := ihl
    payloadEnd := totalLen
    nextHeader := packet.getD 9 0
    src := ipv4Addr (slice packet 12 16)
    dst := ipv4Addr (slice packet 16 20) }

/-- `parse_v6`. -/
def parseV6 (packet : Bytes) : Except TunGatewayError ParsedIpPacket := do
  if packet.length < 40 then
    throw "ims_esp_ipv6_packet_too_short"
  let payloadEnd := 40 + fromBe (slice packet 4 6)
  if packet.length < payloadEnd then
    throw "ims_esp_ipv6_length_invalid"
  return {
    version := 6
    headerLen := 40
    payloadStart := 40
    payloadEnd
    nextHeader := packet.getD 6 0
    src := ipv6Addr (slice packet 8 24)
    dst := ipv6Addr (slice packet 24 40) }

/-- `ParsedIpPacket::parse`. -/
def parse (packet : Bytes) : Except TunGatewayError ParsedIpPacket :=
  if TunGateway.version packet = some 4 then parseV4 packet
  else if TunGateway.version packet = some 6 then parseV6 packet
  else .error "ims_esp_ip_packet_unsupported"

/-- `payload`. -/
def payload (self : ParsedIpPacket) (packet : Bytes) : Bytes :=
  slice packet self.payloadStart self.payloadEnd

/-- The header of `rebuild_v4`, with zeros for the checksum. -/
def clearedV4Header (self : ParsedIpPacket) (packet : Bytes) (nextHeader : UInt8) (totalLen : ℕ) :
    Bytes :=
  let out := overwrite (packet.take self.headerLen) 2 (be 2 totalLen)
  let out := overwrite out 9 [nextHeader]
  overwrite (overwrite out 10 [0]) 11 [0]

/-- `rebuild_v4`. -/
def rebuildV4 (self : ParsedIpPacket) (packet : Bytes) (nextHeader : UInt8) (payload : Bytes) :
    Except TunGatewayError Bytes :=
  let totalLen := self.headerLen + payload.length
  if 65535 < totalLen then .error "ims_esp_ipv4_length_invalid"
  else
    let out := self.clearedV4Header packet nextHeader totalLen
    .ok (overwrite out 10 (be 2 (ipv4HeaderChecksum out)) ++ payload)

/-- `rebuild_v6`. -/
def rebuildV6 (packet : Bytes) (nextHeader : UInt8) (payload : Bytes) :
    Except TunGatewayError Bytes :=
  if 65535 < payload.length then .error "ims_esp_ipv6_length_invalid"
  else
    .ok (overwrite (overwrite (packet.take 40) 4 (be 2 payload.length)) 6 [nextHeader] ++ payload)

/-- `rebuild_with_payload`. -/
def rebuildWithPayload (self : ParsedIpPacket) (packet : Bytes) (nextHeader : UInt8)
    (payload : Bytes) : Except TunGatewayError Bytes :=
  if self.version = 4 then self.rebuildV4 packet nextHeader payload
  else if self.version = 6 then rebuildV6 packet nextHeader payload
  else .error "ims_esp_ip_packet_unsupported"

end ParsedIpPacket

/-! ## UDP -/

/-- The octets of an address. -/
def ipOctets : IpAddr → Bytes
  | .v4 a b c d => [a, b, c, d]
  | .v6 groups => groups.toList.flatMap fun group => be 2 group.toNat

/-- `accumulate` of `udp_checksum`: the words are added to a sum of 32 bits. -/
def accumulate (sum : ℕ) (data : Bytes) : ℕ :=
  (headerWords data).foldl (fun sum word => (sum + word) % 2 ^ 32) sum

/-- The pseudo-header, part by part. -/
def pseudoHeaderParts (src dst : IpAddr) (udpLen : ℕ) : List Bytes :=
  match src, dst with
  | .v4 .., .v4 .. => [ipOctets src, ipOctets dst, [0, 17], be 2 udpLen]
  | .v6 .., .v6 .. => [ipOctets src, ipOctets dst, be 4 udpLen, [0, 0, 0, 0, 0, 0, 0, 17]]
  | _, _ => []

/-- `u16::to_be` on a little-endian host. -/
def toBe (v : ℕ) : ℕ := swapOctets v

/-- `udp_checksum`. -/
def udpChecksum (src dst : IpAddr) (udpPacket : Bytes) : ℕ :=
  let sum := (pseudoHeaderParts src dst udpPacket.length).foldl accumulate 0
  let sum := accumulate sum udpPacket
  toBe (65535 - foldCarries sum)

/-! ## Flows -/

/-- What a packet on its way out needs of `ImsEspRuntimeFlow`. -/
structure ImsEspRuntimeFlow where
  localPort : UInt16
  remotePort : UInt16
  outboundSaIdentifier : UInt32
  secrets : ChildSaSecretPair
  icvIncludeIv : Bool
  udpEncapsulate : Bool
  nextOutboundSequence : UInt64
  outboundLogged : Bool

/-- What a packet on its way out needs of `ImsEspRuntimePolicy`. -/
structure ImsEspRuntimePolicy where
  localAddr : IpAddr
  remoteAddr : IpAddr
  flows : List ImsEspRuntimeFlow

/-- `allocate_outbound_sequence`. -/
def ImsEspRuntimeFlow.allocateOutboundSequence (flow : ImsEspRuntimeFlow) :
    Except TunGatewayError (UInt64 × ImsEspRuntimeFlow) :=
  let sequence := flow.nextOutboundSequence
  if 2 ^ 32 - 1 < sequence.toNat then .error "ims_esp_sequence_exhausted"
  else .ok (sequence, { flow with nextOutboundSequence := sequence + 1 })

/-- `transport_ports`. -/
def transportPorts (payload : Bytes) : Option (ℕ × ℕ) :=
  if 4 ≤ payload.length then some (fromBe (slice payload 0 2), fromBe (slice payload 2 4))
  else none

/-- `ImsOutboundFlowMatch`. -/
structure ImsOutboundFlowMatch where
  flowIndex : ℕ
  nextHeader : UInt8
  deriving DecidableEq

/-- `ims_outbound_flow_index`. -/
def imsOutboundFlowIndex (packet : Bytes) (policy : ImsEspRuntimePolicy) :
    Option ImsOutboundFlowMatch := do
  let parsed ← (ParsedIpPacket.parse packet).toOption
  if ¬(parsed.nextHeader = 6 ∨ parsed.nextHeader = 17) ∨ parsed.src ≠ policy.localAddr ∨
      parsed.dst ≠ policy.remoteAddr then
    none
  else do
    let (src, dst) ← transportPorts (parsed.payload packet)
    let flowIndex ← policy.flows.findIdx? fun flow =>
      src = flow.localPort.toNat ∧ dst = flow.remotePort.toNat
    return ⟨flowIndex, parsed.nextHeader⟩

/-- The datagram of a flow around an ESP frame, with zeros for the checksum. -/
def clearedDatagram (flow : ImsEspRuntimeFlow) (esp : Bytes) : Bytes :=
  be 2 flow.localPort.toNat ++ be 2 flow.remotePort.toNat ++ be 2 (8 + esp.length) ++ [0, 0] ++ esp

/-- What `protect_ims_esp_outbound_if_needed` makes of an ESP frame. -/
def wrapEspFrame (flow : ImsEspRuntimeFlow) (parsed : ParsedIpPacket) (packet esp : Bytes) :
    Except TunGatewayError Bytes :=
  if flow.udpEncapsulate then
    if 65535 < 8 + esp.length then .error "ims_esp_udp_length_invalid"
    else
      let encapsulated := clearedDatagram flow esp
      let checksum := udpChecksum parsed.src parsed.dst encapsulated
      parsed.rebuildWithPayload packet 17 (overwrite encapsulated 6 (be 2 checksum))
  else parsed.rebuildWithPayload packet 50 esp

/-- The part of `protect_ims_esp_outbound_if_needed` for a packet of a flow. -/
def protectFlowPacket (c : Ciphers) (random : Option Iv) (packet : Bytes)
    (policy : ImsEspRuntimePolicy) (matched : ImsOutboundFlowMatch) (flow : ImsEspRuntimeFlow) :
    Method (Option ImsEspRuntimePolicy) TunGatewayError Bytes := do
  let (sequence, allocated) ← liftM flow.allocateOutboundSequence
  set (some { policy with flows := policy.flows.set matched.flowIndex allocated })
  let parsed ← liftM (ParsedIpPacket.parse packet)
  let (esp, _) ← liftM
    ((protectInnerPacketForEspWithMode c random flow.outboundSaIdentifier sequence
    (parsed.payload packet) matched.nextHeader flow.secrets flow.icvIncludeIv).mapError
    fun _ => "ims_esp_protect_failed")
  set (some { policy with
    flows := policy.flows.set matched.flowIndex { allocated with outboundLogged := true } })
  liftM (wrapEspFrame flow parsed packet esp)

/-- `protect_ims_esp_outbound_if_needed`, under the lock of the policy. -/
def protectImsEspOutboundIfNeeded (c : Ciphers) (random : Option Iv) (packet : Bytes) :
    Method (Option ImsEspRuntimePolicy) TunGatewayError Bytes := do
  match ← get with
  | none => return packet
  | some policy =>
    match imsOutboundFlowIndex packet policy with
    | none => return packet
    | some matched =>
      -- the index is the position of a flow
      match policy.flows[matched.flowIndex]? with
      | none => return packet
      | some flow => protectFlowPacket c random packet policy matched flow

end SimMaster.TunGateway
