import SimMaster.IpAddr
import SimMaster.Octets

/-!
# STUN keepalives

The Binding request a UDP flow probes its next hop with, and the answer to it: a success names the
address the request came from, an error says that the flow is gone, and everything that is not a
well-formed answer to the outstanding transaction is ignored.
-/

namespace SimMaster

open Rust

def COOKIE : Bytes := [0x21, 0x12, 0xa4, 0x42]
def FINGERPRINT_XOR : UInt32 := 0x5354554e

/-- One bit of `crc32`. -/
def crcBit (crc : UInt32) : UInt32 := (crc >>> 1) ^^^ (0xedb88320 &&& (0 - (crc &&& 1)))

def crc32 (data : Bytes) : UInt32 :=
  ~~~(data.foldl (fun crc byte => crcBit^[8] (crc ^^^ byte.toUInt32)) 0xffffffff)

/-- The FINGERPRINT of the octets before it. -/
def fingerprint (packet : Bytes) : Bytes := be 4 (crc32 packet ^^^ FINGERPRINT_XOR).toNat

def bindingRequest (id : Bytes) : Bytes :=
  let packet := [0, 1, 0, 8] ++ COOKIE ++ id
  packet ++ [0x80, 0x28, 0, 4] ++ fingerprint packet

inductive StunResponse where
  | ignore
  | error
  | mapped (addr : Rust.SocketAddr)
  deriving DecidableEq

/-- The address in an XOR-MAPPED-ADDRESS attribute. -/
def xorMappedAddress (id data : Bytes) : Option Rust.SocketAddr :=
  let port := UInt16.ofNat (fromBe (slice data 2 4)) ^^^ 0x2112
  let mask := COOKIE ++ id
  let plain := List.zipWith (· ^^^ ·) (data.drop 4) mask
  let octet := fun i => plain.getD i 0
  if data.getD 1 0 = 1 ∧
    data.length = 8 then some (.v4 (octet 0) (octet 1) (octet 2) (octet 3) port)
  else if data.getD 1 0 = 2 ∧ data.length = 20 then
    some (.v6 (Vector.ofFn fun i => UInt16.ofNat (fromBe (slice plain (2 * i) (2 * i + 2)))) port 0
      0)
  else none

/-- The attributes from `offset` on, an attribute for each unit of fuel: the mapped address and the
error code, or nothing when the answer is to be ignored. -/
def stunAttributes (packet id : Bytes) :
    ℕ → ℕ → Option Rust.SocketAddr → Option ℕ → Option (Option Rust.SocketAddr × Option ℕ)
  | 0, _, mapped, errorCode => some (mapped, errorCode)
  | fuel + 1, offset, mapped, errorCode =>
    if packet.length ≤ offset then some (mapped, errorCode)
    else if packet.length < offset + 4 then none
    else
      let attr := fromBe (slice packet offset (offset + 2))
      let len := fromBe (slice packet (offset + 2) (offset + 4))
      let paddedEnd := offset + 4 + (len + 3) / 4 * 4
      let data := slice packet (offset + 4) (offset + 4 + len)
      if packet.length < paddedEnd then none
      else if attr = 0x0020 then
        if mapped.isSome || data.length < 4 then none
        else match xorMappedAddress id data with
          | some addr => stunAttributes packet id fuel paddedEnd (some addr) errorCode
          | none => none
      else if attr = 0x8028 then
        if len ≠ 4 ∨ paddedEnd ≠ packet.length ∨ data ≠ fingerprint (packet.take offset) then none
        else stunAttributes packet id fuel paddedEnd mapped errorCode
      else if attr = 0x0009 then
        let hundreds := data.getD 2 0
        let units := data.getD 3 0
        if len < 4 ∨ errorCode.isSome ∨ hundreds &&& 0xf8 ≠ 0 ∨ hundreds < 3 ∨ 6 < hundreds ∨
            99 < units then
          none
        else
          stunAttributes packet id fuel paddedEnd mapped
            (some (hundreds.toNat * 100 + units.toNat))
      else if attr = 0x0001 ∨ attr = 0x000a ∨ 0x8000 ≤ attr then
        stunAttributes packet id fuel paddedEnd mapped errorCode
      else none

def bindingResponse (packet id : Bytes) : StunResponse :=
  let size := fromBe (slice packet 2 4)
  let kind := fromBe (slice packet 0 2)
  if packet.length < 20 ∨ slice packet 4 8 ≠ COOKIE ∨ slice packet 8 20 ≠ id then .ignore
  else if size % 4 ≠ 0 ∨ size + 20 ≠ packet.length then .ignore
  else if kind ≠ 0x0101 ∧ kind ≠ 0x0111 then .ignore
  else
    -- an attribute takes four octets at least
    match stunAttributes packet id packet.length 20 none none with
    | none => .ignore
    | some (mapped, errorCode) =>
      if kind = 0x0111 then if errorCode.isSome then .error else .ignore
      else match mapped with
        | some addr => .mapped addr
        | none => .ignore

end SimMaster
