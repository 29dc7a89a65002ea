import SimMaster.HashMap
import SimMaster.IpAddr
import SimMaster.Octets
import SimMaster.Reassembly

/-!
# IP fragments of the tunnel gateway

The gateway moves whole IP packets between the TUN device and the tunnel to the ePDG. A packet that
is too long for the tunnel is cut into IP fragments (`fragmentInnerPacket`). Fragments that arrive,
from the device or from the tunnel, are gathered until the packet is whole; there is one reassembler
for IPv4 and one for IPv6 on the way out, and one for both on the way in. Each keeps a buffer for
every source, destination and identification it has seen a fragment of.

A reassembler is a function of the time, the packet and its buffers. It indexes into what it
receives, so its answer is an option: `none` is a panic.
-/

namespace SimMaster.TunGateway

open Rust Reassembly

/-! ## Headers -/

/-- The IP version, `packet.first().map(|byte| byte >> 4)`. -/
def version (packet : Bytes) : Option UInt8 := packet.head?.map fun byte : UInt8 => byte >>> 4

/-- The length of an IPv4 header, `usize::from(packet[0] & 0x0f) * 4`. -/
def headerLen (packet : Bytes) : ℕ := (packet.getD 0 0 &&& 0x0f).toNat * 4

/-- `Ipv4Addr::new` of four octets. -/
def ipv4Addr (octets : Bytes) : IpAddr :=
  .v4 (octets.getD 0 0) (octets.getD 1 0) (octets.getD 2 0) (octets.getD 3 0)

/-- `Ipv6Addr::from` of sixteen octets. -/
def ipv6Addr (octets : Bytes) : IpAddr :=
  .v6 (Vector.ofFn fun i => UInt16.ofNat (fromBe (slice octets (2 * i) (2 * i + 2))))

/-- The 16-bit words of a header; a single last octet is the upper half of its word. -/
def headerWords : Bytes → List ℕ
  | [] => []
  | [a] => [a.toNat * 256]
  | a :: b :: rest => fromBe [a, b] :: headerWords rest

/-- Adds what a sum has above 16 bits to the lower 16 bits, until nothing is left there. -/
def foldCarries (sum : ℕ) : ℕ :=
  if sum / 65536 = 0 then sum else foldCarries (sum % 65536 + sum / 65536)

def ipv4HeaderChecksum (header : Bytes) : ℕ :=
  65535 - foldCarries ((headerWords header).foldl (fun sum word => (sum + word) % 2 ^ 32) 0)

/-! ## Fragmentation -/

/-- The checksum field is computed over the header with zeros in it. -/
def withChecksum (header : Bytes) : Bytes :=
  let header := overwrite (overwrite header 10 [0]) 11 [0]
  overwrite header 10 (be 2 (ipv4HeaderChecksum header))

/-- The header that the loop of `fragment_ipv4_packet` gives a part: that of the packet with the
length, the flags and the offset of the part. -/
def ipv4FragmentHeader (packet : Bytes) (ihl : ℕ) (part : Fragment UInt8) : Bytes :=
  let fragment := packet.take ihl
  let fragment := overwrite fragment 2 (be 2 (ihl + part.data.length))
  let id := fromBe (slice packet 4 6)
  let flagsOffset := part.offset / 8 % 65536 ||| if part.last then 0 else 0x2000
  let fragment := overwrite fragment 4 (be 2 id)
  let fragment := overwrite fragment 6 (be 2 flagsOffset)
  withChecksum fragment

def ipv4Fragment (packet : Bytes) (ihl : ℕ) (part : Fragment UInt8) : Bytes :=
  ipv4FragmentHeader packet ihl part ++ part.data

def fragmentIpv4Packet (packet : Bytes) (maxIpBytes : ℕ) : List Bytes :=
  let ihl := headerLen packet
  if ihl < 20 ∨ packet.length < ihl then [packet]
  else
    let payload := packet.drop ihl
    let chunk := (maxIpBytes - ihl) / 8 * 8
    if chunk = 0 then [packet] else (cut chunk payload 0).map (ipv4Fragment packet ihl)

/-- The headers that the loop of `fragment_ipv6_packet` gives a part: that of the packet, announcing
a Fragment Header, and the Fragment Header. -/
def ipv6BaseHeader (packet : Bytes) (part : Fragment UInt8) : Bytes :=
  overwrite (overwrite (packet.take 40) 4 (be 2 (8 + part.data.length))) 6 [44]

def ipv6FragmentHeader (packet : Bytes) (identification : UInt32) (part : Fragment UInt8) : Bytes :=
  let originalNextHeader := packet.getD 6 0
  let offsetM := part.offset / 8 % 65536 * 8 % 65536 ||| if part.last then 0 else 1
  [originalNextHeader, 0] ++ be 2 offsetM ++ be 4 identification.toNat

def ipv6Fragment (packet : Bytes) (identification : UInt32) (part : Fragment UInt8) : Bytes :=
  ipv6BaseHeader packet part ++ ipv6FragmentHeader packet identification part ++ part.data

/-- The identification is what the process-wide counter `INNER_FRAGMENT_ID` stands at. -/
def fragmentIpv6Packet (packet : Bytes) (maxIpBytes : ℕ) (identification : UInt32) : List Bytes :=
  if packet.length < 40 then [packet]
  else
    let payload := packet.drop 40
    let chunk := (maxIpBytes - 48) / 8 * 8
    if chunk = 0 then [packet] else (cut chunk payload 0).map (ipv6Fragment packet identification)

/-- Cuts a packet into fragments of at most `maxIpBytes`; one that is short enough stays whole. -/
def fragmentInnerPacket (packet : Bytes) (maxIpBytes : ℕ) (identification : UInt32) : List Bytes :=
  if packet.length ≤ maxIpBytes then [packet]
  else if version packet = some 4 then fragmentIpv4Packet packet maxIpBytes
  else if version packet = some 6 then fragmentIpv6Packet packet maxIpBytes identification
  else [packet]

/-! ## Reassembly -/

inductive FragmentReassemblyOutcome where
  | forward (packet : Bytes)
  | buffered
  | dropped
  deriving DecidableEq

/-- Source, destination and identification of a packet: the key of its buffer. -/
structure FragmentKey where
  src : IpAddr
  dst : IpAddr
  identification : ℕ
  deriving DecidableEq

/-- A moment, in nanoseconds. -/
abbrev Instant := ℕ

/-- With 32 buffers or more, the reassemblers first forget those that are three seconds old. -/
def expire {B : Type} (createdAt : B → Instant) (now : Instant) (buffers : HashMap FragmentKey B) :
    HashMap FragmentKey B :=
  if 32 ≤ buffers.len then
    buffers.retain fun _ buffer => now - createdAt buffer < 3 * 10 ^ 9
  else buffers

/-- The header of a reassembled IPv4 packet: its total length, neither flags nor an offset, and the
checksum of its first `len` octets. -/
def restoreIpv4Header (header : Bytes) (len totalLen : ℕ) : Option Bytes := do
  let header ← copyFromSlice header 2 (be 2 totalLen)
  let header ← copyFromSlice header 6 [0, 0]
  let header ← copyFromSlice header 10 [0]
  let header ← copyFromSlice header 11 [0]
  let checksum := ipv4HeaderChecksum (← getRange header 0 len)
  copyFromSlice header 10 (be 2 checksum)

/-! ### IPv4, outbound -/

structure Ipv4FragmentInfo where
  identification : ℕ
  offsetBytes : ℕ
  moreFragments : Bool

/-- What `packet` says of itself as an IPv4 fragment; `none` of anything else. -/
def ipv4FragmentInfo (packet : Bytes) : Option Ipv4FragmentInfo :=
  if version packet ≠ some 4 ∨ packet.length < 20 then none
  else
    let flagsAndOffset := fromBe (slice packet 6 8)
    let moreFragments := decide (flagsAndOffset &&& 0x2000 ≠ 0)
    let offsetBytes := (flagsAndOffset &&& 0x1fff) * 8
    if moreFragments = false ∧ offsetBytes = 0 then none
    else some ⟨fromBe ([0, 0] ++ slice packet 4 6), offsetBytes, moreFragments⟩

structure Ipv4FragmentBuffer where
  /-- the complete header from fragment zero -/
  header : Option Bytes
  /-- the pieces of the payload with their offsets -/
  pieces : List (ℕ × Bytes)
  expectedLen : Option ℕ
  createdAt : Instant

def Ipv4FragmentBuffer.new (now : Instant) : Ipv4FragmentBuffer := ⟨none, [], none, now⟩

/-- Puts a piece into the buffer. -/
def Ipv4FragmentBuffer.add (buffer : Ipv4FragmentBuffer) (fragment : Ipv4FragmentInfo)
    (header payload : Bytes) : Ipv4FragmentBuffer :=
  { buffer with
    header := if fragment.offsetBytes = 0 then some header else buffer.header
    pieces := buffer.pieces ++ [(fragment.offsetBytes, payload)]
    expectedLen := if fragment.moreFragments then buffer.expectedLen
      else some (fragment.offsetBytes + payload.length) }

/-- The packet, if its pieces are all here; the buffer is kept if they are not. -/
def Ipv4FragmentBuffer.assemble (buffer : Ipv4FragmentBuffer) :
    Option (FragmentReassemblyOutcome × Option Ipv4FragmentBuffer) :=
  match buffer.expectedLen, buffer.header with
  | some expectedLen, some header =>
    let pieces := sortByOffset buffer.pieces
    match contiguousEnd 0 pieces with
    | none => some (.buffered, some buffer)
    | some cursor =>
      if cursor ≠ expectedLen ∨ 65535 < header.length + expectedLen then some (.dropped, none)
      else do
        let header ← restoreIpv4Header header header.length (header.length + expectedLen)
        some (.forward (header ++ pieces.flatMap Prod.snd), none)
  | _, _ => some (.buffered, some buffer)

/-- What a fragment does to the buffer of its packet: the outcome, and the buffer unless it is
removed. -/
def Ipv4FragmentBuffer.receive (buffer : Ipv4FragmentBuffer) (fragment : Ipv4FragmentInfo)
    (header payload : Bytes) : Option (FragmentReassemblyOutcome × Option Ipv4FragmentBuffer) :=
  let pieceEnd := fragment.offsetBytes + payload.length
  if overlaps fragment.offsetBytes pieceEnd buffer.pieces then some (.dropped, none)
  else (buffer.add fragment header payload).assemble

def ipv4Key (packet : Bytes) (fragment : Ipv4FragmentInfo) : FragmentKey :=
  ⟨ipv4Addr (slice packet 12 16), ipv4Addr (slice packet 16 20), fragment.identification⟩

/-- Gathers IPv4 fragments from the TUN device. -/
def reassembleOutboundIpFragment (now : Instant) (packet : Bytes)
    (buffers : HashMap FragmentKey Ipv4FragmentBuffer) :
    Option (FragmentReassemblyOutcome × HashMap FragmentKey Ipv4FragmentBuffer) :=
  match ipv4FragmentInfo packet with
  | none => some (.forward packet, buffers)
  | some fragment =>
    let ihl := headerLen packet
    if ¬ (20 ≤ ihl ∧ ihl ≤ packet.length) then some (.dropped, buffers)
    else
      let key := ipv4Key packet fragment
      let buffers := expire Ipv4FragmentBuffer.createdAt now buffers
      let payload := packet.drop ihl
      if payload = [] ∨ (fragment.moreFragments = true ∧ payload.length % 8 ≠ 0) then
        some (.dropped, buffers)
      else do
        let buffer := (buffers.lookup key).getD (.new now)
        let (outcome, kept) ← buffer.receive fragment (packet.take ihl) payload
        some (outcome, buffers.set key kept)

/-! ### IPv6, outbound -/

structure Ipv6FragmentBuffer where
  baseHeader : Option Bytes
  nextHeader : Option UInt8
  pieces : List (ℕ × Bytes)
  expectedLen : Option ℕ
  createdAt : Instant

def Ipv6FragmentBuffer.new (now : Instant) : Ipv6FragmentBuffer := ⟨none, none, [], none, now⟩

/-- Puts a piece into the buffer. -/
def Ipv6FragmentBuffer.add (buffer : Ipv6FragmentBuffer) (offsetBytes : ℕ) (moreFragments : Bool)
    (baseHeader : Bytes) (nextHeader : UInt8) (payload : Bytes) : Ipv6FragmentBuffer :=
  { buffer with
    baseHeader := if offsetBytes = 0 then some baseHeader else buffer.baseHeader
    nextHeader := if offsetBytes = 0 then some nextHeader else buffer.nextHeader
    pieces := buffer.pieces ++ [(offsetBytes, payload)]
    expectedLen := if moreFragments then buffer.expectedLen else some (offsetBytes + payload.length)
      }

/-- The packet, if its pieces are all here. A set that ends elsewhere than expected is dropped but
not forgotten. -/
def Ipv6FragmentBuffer.assemble (buffer : Ipv6FragmentBuffer) :
    Option (FragmentReassemblyOutcome × Option Ipv6FragmentBuffer) :=
  match buffer.expectedLen, buffer.baseHeader, buffer.nextHeader with
  | some expectedLen, some baseHeader, some nextHeader =>
    let pieces := sortByOffset buffer.pieces
    match contiguousEnd 0 pieces with
    | none => some (.buffered, some buffer)
    | some cursor =>
      if cursor ≠ expectedLen ∨ 65535 < expectedLen then some (.dropped, some buffer)
      else do
        let header ← copyFromSlice baseHeader 6 [nextHeader]
        let header ← copyFromSlice header 4 (be 2 expectedLen)
        some (.forward (header ++ pieces.flatMap Prod.snd), none)
  | _, _, _ => some (.buffered, some buffer)

/-- What a fragment does to the buffer of its packet. -/
def Ipv6FragmentBuffer.receive (buffer : Ipv6FragmentBuffer) (offsetBytes : ℕ)
    (moreFragments : Bool) (baseHeader : Bytes) (nextHeader : UInt8) (payload : Bytes) :
    Option (FragmentReassemblyOutcome × Option Ipv6FragmentBuffer) :=
  let pieceEnd := offsetBytes + payload.length
  if overlaps offsetBytes pieceEnd buffer.pieces then some (.dropped, none)
  else (buffer.add offsetBytes moreFragments baseHeader nextHeader payload).assemble

/-- Whether a packet begins with an IPv6 header and a Fragment Header. -/
def isIpv6Fragment (packet : Bytes) : Bool :=
  version packet = some 6 ∧ 48 ≤ packet.length ∧ packet.getD 6 0 = 44

def ipv6Key (packet : Bytes) : FragmentKey :=
  ⟨ipv6Addr (slice packet 8 24), ipv6Addr (slice packet 24 40), fromBe (slice packet 44 48)⟩

/-- Gathers IPv6 fragments from the TUN device. -/
def reassembleOutboundIpv6Fragment (now : Instant) (packet : Bytes)
    (buffers : HashMap FragmentKey Ipv6FragmentBuffer) :
    Option (FragmentReassemblyOutcome × HashMap FragmentKey Ipv6FragmentBuffer) :=
  if isIpv6Fragment packet = false then some (.forward packet, buffers)
  else
    let packetEnd := 40 + fromBe (slice packet 4 6)
    if packet.length < packetEnd ∨ packetEnd < 48 then some (.dropped, buffers)
    else
      let offsetM := fromBe (slice packet 42 44)
      let offsetBytes := (offsetM >>> 3) * 8
      let moreFragments := decide (offsetM &&& 1 ≠ 0)
      let key := ipv6Key packet
      let fragmentPayload := slice packet 48 packetEnd
      let buffers := expire Ipv6FragmentBuffer.createdAt now buffers
      let buffer := (buffers.lookup key).getD (.new now)
      do
        let (outcome, kept) ← buffer.receive offsetBytes moreFragments (packet.take 40)
          (packet.getD 40 0) fragmentPayload
        some (outcome, buffers.set key kept)

/-! ### Inbound -/

structure InboundFragmentInfo where
  src : IpAddr
  dst : IpAddr
  identification : ℕ
  offsetBytes : ℕ
  moreFragments : Bool
  baseHeader : Bytes
  payload : Bytes

/-- What a packet says of itself as a fragment; `some none` of a packet that is none, and `none`, a
panic, where an IPv4 header claims to be longer than the packet. -/
def inboundFragmentInfo (packet : Bytes) : Option (Option InboundFragmentInfo) :=
  if version packet = some 4 then
    if packet.length < 20 then some none
    else
      let flagsAndOffset := fromBe (slice packet 6 8)
      let moreFragments := decide (flagsAndOffset &&& 0x2000 ≠ 0)
      let offsetBytes := (flagsAndOffset &&& 0x1fff) * 8
      if moreFragments = false ∧ offsetBytes = 0 then some none
      else do
        let ihl := headerLen packet
        let baseHeader ← getRange packet 0 ihl
        let payload ← getFrom packet ihl
        some (some ⟨ipv4Addr (slice packet 12 16), ipv4Addr (slice packet 16 20),
          fromBe ([0, 0] ++ slice packet 4 6), offsetBytes, moreFragments, baseHeader, payload⟩)
  else if version packet = some 6 then
    if packet.length < 48 ∨ packet.getD 6 0 ≠ 44 then some none
    else
      let offsetM := fromBe (slice packet 42 44)
      let offsetBytes := (offsetM >>> 3) * 8
      let moreFragments := decide (offsetM &&& 1 = 1)
      -- the original next header is restored here already
      let baseHeader := overwrite (packet.take 40) 6 [packet.getD 40 0]
      some (some ⟨ipv6Addr (slice packet 8 24), ipv6Addr (slice packet 24 40),
        fromBe (slice packet 44 48), offsetBytes, moreFragments, baseHeader, packet.drop 48⟩)
  else some none

structure InboundFragmentBuffer where
  baseHeader : Option Bytes
  pieces : List (ℕ × Bytes)
  expectedLen : Option ℕ
  createdAt : Instant

def InboundFragmentBuffer.new (now : Instant) : InboundFragmentBuffer := ⟨none, [], none, now⟩

/-- The header of a reassembled packet; `some none` when the packet is too long or the header is of
no IP version. -/
def restoreInboundHeader (header : Bytes) (expected : ℕ) : Option (Option Bytes) :=
  if version header = some 4 then
    let ihl := headerLen header
    if 65535 < ihl + expected then some none
    else (restoreIpv4Header header ihl (ihl + expected)).map some
  else if version header = some 6 then
    if 65535 < expected then some none
    else (copyFromSlice header 4 (be 2 expected)).map some
  else some none

/-- Puts a piece into the buffer; fragment zero replaces a stale piece at offset zero. -/
def InboundFragmentBuffer.add (buffer : InboundFragmentBuffer) (info : InboundFragmentInfo) :
    InboundFragmentBuffer :=
  { buffer with
    baseHeader := if info.offsetBytes = 0 then some info.baseHeader else buffer.baseHeader
    pieces := (if info.offsetBytes = 0 then buffer.pieces.filter (fun piece => piece.1 ≠ 0)
      else buffer.pieces) ++ [(info.offsetBytes, info.payload)]
    expectedLen := if info.moreFragments then buffer.expectedLen
      else some (info.offsetBytes + info.payload.length) }

/-- The packet, if its pieces are all here. -/
def InboundFragmentBuffer.assemble (buffer : InboundFragmentBuffer) :
    Option (FragmentReassemblyOutcome × Option InboundFragmentBuffer) :=
  match buffer.expectedLen, buffer.baseHeader with
  | some expected, some header =>
    let pieces := sortByOffset buffer.pieces
    if coveredEnd 0 pieces ≠ some expected then some (.buffered, some buffer)
    else do
      match ← restoreInboundHeader header expected with
      | none => some (.dropped, some buffer)
      | some header => some (.forward (header ++ pieces.flatMap Prod.snd), none)
  | _, _ => some (.buffered, some buffer)

/-- What a fragment does to the buffer of its packet. -/
def InboundFragmentBuffer.receive (buffer : InboundFragmentBuffer) (info : InboundFragmentInfo) :
    Option (FragmentReassemblyOutcome × Option InboundFragmentBuffer) :=
  let start := info.offsetBytes
  let stop := start + info.payload.length
  if overlaps start stop buffer.pieces then some (.dropped, none)
  else (buffer.add info).assemble

def inboundKey (info : InboundFragmentInfo) : FragmentKey :=
  ⟨info.src, info.dst, info.identification⟩

/-- Gathers fragments from the tunnel. -/
def reassembleInboundIpFragment (now : Instant) (packet : Bytes)
    (buffers : HashMap FragmentKey InboundFragmentBuffer) :
    Option (FragmentReassemblyOutcome × HashMap FragmentKey InboundFragmentBuffer) := do
  match ← inboundFragmentInfo packet with
  | none => some (.forward packet, buffers)
  | some info =>
    let key := inboundKey info
    let buffers := expire InboundFragmentBuffer.createdAt now buffers
    let buffer := (buffers.lookup key).getD (.new now)
    let (outcome, kept) ← buffer.receive info
    some (outcome, buffers.set key kept)

end SimMaster.TunGateway
