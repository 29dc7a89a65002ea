import SimMaster.IpFragmentHeaders

/-!
# Runs of a reassembler

What it means that a reassembler forwards a packet once, in whatever order the fragments of the
packet arrive and whatever packets arrive between them (`Reassembler.ForwardsOnce`), and the packets
and parts it is about.
-/

namespace SimMaster.TunGateway

open Rust Reassembly Machine List

/-! ## Reassemblers and their runs -/

/-- What the three reassemblers have in common. -/
structure Reassembler (B : Type) where
  receive : Instant → Bytes → HashMap FragmentKey B →
    Option (FragmentReassemblyOutcome × HashMap FragmentKey B)
  /-- the buffer a packet goes to, if it is a fragment -/
  keyOf : Bytes → Option FragmentKey
  createdAt : B → Instant

def outboundIpv4 : Reassembler Ipv4FragmentBuffer where
  receive := reassembleOutboundIpFragment
  keyOf packet := (ipv4FragmentInfo packet).map (ipv4Key packet)
  createdAt := Ipv4FragmentBuffer.createdAt

def outboundIpv6 : Reassembler Ipv6FragmentBuffer where
  receive := reassembleOutboundIpv6Fragment
  keyOf packet := if isIpv6Fragment packet then some (ipv6Key packet) else none
  createdAt := Ipv6FragmentBuffer.createdAt

def inbound : Reassembler InboundFragmentBuffer where
  receive := reassembleInboundIpFragment
  keyOf packet := (inboundFragmentInfo packet).join.map inboundKey
  createdAt := InboundFragmentBuffer.createdAt

/-- A packet that arrives. -/
structure Arrival where
  now : Instant
  packet : Bytes
  /-- whether it is one of the fragments under consideration -/
  own : Bool

variable {B : Type}

/-- The arrivals as calls of a machine. A panic has no answer. -/
def Reassembler.step (r : Reassembler B) (buffers : HashMap FragmentKey B) (a : Arrival) :
    Option FragmentReassemblyOutcome × HashMap FragmentKey B :=
  match r.receive a.now a.packet buffers with
  | some (outcome, buffers') => (some outcome, buffers')
  | none => (none, buffers)

/-- The buffers are fewer than 32 or the one of `key` is younger than three seconds, and the packets
of others have other keys and cause no panic. -/
structure Reassembler.Quiet (r : Reassembler B) (key : FragmentKey)
    (buffers : HashMap FragmentKey B) (a : Arrival) : Prop where
  fresh : buffers.len < 32 ∨
    ∀ buffer, buffers.lookup key = some buffer → a.now - r.createdAt buffer < 3 * 10 ^ 9
  other : a.own = false → r.keyOf a.packet ≠ some key ∧ (r.step buffers a).1 ≠ none

/-- The fragments of `packet`, in any order and among any other packets, are buffered but for the
last to arrive; that one has the packet forwarded, and no buffer of the key is left. -/
def Reassembler.ForwardsOnce (r : Reassembler B) (key : FragmentKey) (fragments : List Bytes)
    (packet : Bytes) : Prop :=
  ∀ (buffers : HashMap FragmentKey B) (arrivals : List Arrival),
    buffers.lookup key = none →
    ((arrivals.filter Arrival.own).map Arrival.packet).Perm fragments →
    (∀ pre a post, arrivals = pre ++ a :: post → r.Quiet key (run r.step buffers pre) a) →
    ownAnswers Arrival.own (trace r.step buffers arrivals) =
        replicate (fragments.length - 1) (some .buffered) ++ [some (.forward packet)] ∧
      (run r.step buffers arrivals).lookup key = none

variable {buffers : HashMap FragmentKey B} {key : FragmentKey}

theorem lookup_expire {createdAt : B → Instant} {now : Instant}
    (h : buffers.len < 32 ∨ ∀ buffer, buffers.lookup key = some buffer →
      now - createdAt buffer < 3 * 10 ^ 9) :
    (expire createdAt now buffers).lookup key = buffers.lookup key := by
  rw [expire]
  split
  · rename_i hfull
    rw [HashMap.lookup_retain]
    cases hbuffer : buffers.lookup key with
    | none => rfl
    | some buffer =>
      have hfresh := h.resolve_left (Nat.not_lt.mpr hfull) buffer hbuffer
      exact Option.filter_some_pos (decide_eq_true hfresh)
  · rfl

/-- Packets of other keys leave a buffer alone, unless it is old. -/
def Reassembler.Frames (r : Reassembler B) (key : FragmentKey) : Prop :=
  ∀ now packet buffers outcome buffers', r.receive now packet buffers = some (outcome, buffers') →
    r.keyOf packet ≠ some key →
    buffers'.lookup key = buffers.lookup key ∨
      buffers'.lookup key = (expire r.createdAt now buffers).lookup key

theorem Reassembler.lookup_step (r : Reassembler B) (hframe : r.Frames key) {a : Arrival}
    (hq : r.Quiet key buffers a)
    (hother : a.own = false) : (r.step buffers a).2.lookup key = buffers.lookup key := by
  obtain ⟨hkey, -⟩ := hq.other hother
  rw [Reassembler.step]
  cases hanswer : r.receive a.now a.packet buffers with
  | none => rfl
  | some answer =>
    rcases hframe _ _ _ _ _ hanswer hkey with hkept | hkept
    · exact hkept
    · exact hkept.trans (lookup_expire hq.fresh)

variable {r : Reassembler B} {packet : Bytes}

/-- A packet that is no fragment is forwarded as it is. -/
theorem Reassembler.forwardsOnce_single (hframe : r.Frames key)
    (hpass : ∀ now buffers, r.receive now packet buffers = some (.forward packet, buffers)) :
    r.ForwardsOnce key [packet] packet := by
  intro buffers arrivals hbuffers hperm hquiet
  have hcarried : (arrivals.filter Arrival.own).map Arrival.packet = [()].map fun _ => packet :=
    perm_singleton.mp hperm
  let Holding : List Unit → HashMap FragmentKey B → Prop := fun _ s => s.lookup key = none
  have hrun : ownAnswers Arrival.own (trace r.step buffers arrivals) =
        (if [()] = [] then [] else
          replicate ([()].length - 1) (some .buffered) ++ [some (.forward packet)]) ∧
      Holding (if [()] = [] then [] else []) (run r.step buffers arrivals) := by
    have hperm' : [()] ≠ [] → ([] ++ [()]).Perm [()] := fun _ => Perm.refl _
    have hempty : Holding [] buffers := hbuffers
    refine run_gathers ?_ ?_ ?_ hempty hperm' hcarried hquiet
    · intro got s a hs hq hother
      exact (r.lookup_step hframe hq hother).trans hs
    · intro got p s a _ _ _ _ hsub hshort
      -- one part is all there is
      have hlen := hsub.length_le
      rw [length_append] at hlen
      have hgot : got = [] := eq_nil_of_length_eq_zero (by simpa using hlen)
      rw [hgot] at hshort
      exact absurd (Perm.refl _) hshort
    · intro got p s a hs _ _ hpacket _
      rw [Reassembler.step, hpacket, hpass]
      exact ⟨rfl, hs⟩
  exact hrun

/-! ## The parts of a payload -/

/-- What the reassemblers rely on: the parts start at multiples of eight octets and are no longer
than `size`; all but the last have a length that is a multiple of eight, and the last is not the
first. -/
structure PartsOf (payload : Bytes) (size : ℕ) (parts : List (Fragment UInt8)) : Prop where
  tiles : Tiles 0 parts
  join_eq : join parts = payload
  offset_lt : ∀ p ∈ parts, p.offset < 65536
  offset_mod : ∀ p ∈ parts, p.offset % 8 = 0
  length_le : ∀ p ∈ parts, p.data.length ≤ size
  length_mod : ∀ p ∈ parts, p.last = false → p.data.length % 8 = 0
  offset_ne : ∀ p ∈ parts, p.last = true → p.offset ≠ 0

/-- Chunks of whole units of eight octets, at least two of them. -/
theorem partsOf_cut {size : ℕ} {payload : Bytes} (hsize : 8 ≤ size)
    (hlong : size / 8 * 8 < payload.length) (hshort : payload.length < 65536) :
    PartsOf payload size (cut (size / 8 * 8) payload 0) := by
  have htiles : Tiles 0 (cut (size / 8 * 8) payload 0) := tiles_cut (by omega) (by omega)
  have hjoin : join (cut (size / 8 * 8) payload 0) = payload :=
    join_cut (by omega) (Nat.zero_le _)
  refine ⟨htiles, hjoin, fun p hp => ?_, fun p hp => ?_, fun p hp => ?_, fun p hp hlast => ?_,
    fun p hp hlast hstart => ?_⟩
  all_goals obtain ⟨⟨k, hk⟩, hlength, hstop, hfull⟩ := mem_cut (Nat.zero_le _) hp
  · rw [Fragment.stop] at hstop
    omega
  · rw [hk, Nat.zero_add, ← Nat.mul_assoc, Nat.mul_mod_left]
  · omega
  · rw [hfull hlast, Nat.mul_mod_left]
  · have hend := htiles.stop_of_last hp hlast
    rw [hjoin, Fragment.stop, hstart] at hend
    omega

/-! ## Whole packets -/

/-- A well-formed IPv4 packet that is no fragment: its header fits, it says how long it is, and
neither a flag nor an offset is set. -/
structure WholeIpv4 (packet : Bytes) : Prop where
  version : version packet = some 4
  min : 20 ≤ headerLen packet
  le : headerLen packet ≤ packet.length
  totalLength : fromBe (slice packet 2 4) = packet.length
  flags : slice packet 6 8 = [0, 0]

theorem WholeIpv4.length_lt (hp : WholeIpv4 packet) : packet.length < 65536 := by
  have hmin := hp.min
  have hle := hp.le
  have hlt := fromBe_lt (slice packet 2 4)
  rwa [hp.totalLength, length_slice (by omega)] at hlt

theorem WholeIpv4.field (hp : WholeIpv4 packet) : slice packet 2 4 = be 2 packet.length := by
  have hmin := hp.min
  have hle := hp.le
  have hback := be_fromBe (slice packet 2 4)
  rw [hp.totalLength, length_slice (by omega)] at hback
  exact hback.symm

variable {maxIpBytes : ℕ}

/-- A long packet is cut into parts of its payload. -/
theorem WholeIpv4.fragments (hp : WholeIpv4 packet)
    (hroom : headerLen packet + 8 ≤ maxIpBytes) (hlong : maxIpBytes < packet.length) :
    ∃ parts, PartsOf (packet.drop (headerLen packet)) (maxIpBytes - headerLen packet) parts ∧
      fragmentIpv4Packet packet maxIpBytes =
        parts.map (ipv4Fragment packet (headerLen packet)) := by
  have hmin := hp.min
  have hshort := hp.length_lt
  have hpayload : (packet.drop (headerLen packet)).length = packet.length - headerLen packet :=
    length_drop
  refine ⟨_, partsOf_cut (by omega) (by omega) (by omega), ?_⟩
  rw [fragmentIpv4Packet, if_neg (by omega)]
  dsimp only
  rw [if_neg (by omega)]

/-- A packet and its header, with the checksum of the header recomputed. -/
def recomputed (packet : Bytes) : Bytes :=
  withChecksum (packet.take (headerLen packet)) ++ packet.drop (headerLen packet)

/-- A well-formed IPv6 packet that is no fragment: it has a header, which says how long the rest is
and does not announce a Fragment Header. -/
structure WholeIpv6 (packet : Bytes) : Prop where
  version : version packet = some 6
  header : 40 ≤ packet.length
  payloadLength : fromBe (slice packet 4 6) = packet.length - 40
  nextHeader : packet.getD 6 0 ≠ 44

theorem WholeIpv6.length_lt (hp : WholeIpv6 packet) : packet.length - 40 < 65536 := by
  have hheader := hp.header
  have hlt := fromBe_lt (slice packet 4 6)
  rwa [hp.payloadLength, length_slice (by omega)] at hlt

theorem WholeIpv6.field (hp : WholeIpv6 packet) : slice packet 4 6 = be 2 (packet.length - 40) := by
  have hheader := hp.header
  have hback := be_fromBe (slice packet 4 6)
  rw [hp.payloadLength, length_slice (by omega)] at hback
  exact hback.symm

/-- A long packet is cut into parts of its payload. -/
theorem WholeIpv6.fragments (hp : WholeIpv6 packet)
    (identification : UInt32) (hroom : 56 ≤ maxIpBytes) (hlong : maxIpBytes < packet.length) :
    ∃ parts, PartsOf (packet.drop 40) (maxIpBytes - 48) parts ∧
      fragmentIpv6Packet packet maxIpBytes identification =
        parts.map (ipv6Fragment packet identification) := by
  have hshort := hp.length_lt
  have hpayload : (packet.drop 40).length = packet.length - 40 := length_drop
  refine ⟨_, partsOf_cut (by omega) (by omega) (by omega), ?_⟩
  rw [fragmentIpv6Packet, if_neg (by omega)]
  dsimp only
  rw [if_neg (by omega)]

/-- The key of the fragments of an IPv4 packet: it has an identification of its own. -/
def ipv4PacketKey (packet : Bytes) : FragmentKey :=
  ⟨ipv4Addr (slice packet 12 16), ipv4Addr (slice packet 16 20),
    fromBe ([0, 0] ++ slice packet 4 6)⟩

/-- The key of the fragments of an IPv6 packet: the identification is new. -/
def ipv6PacketKey (packet : Bytes) (identification : UInt32) : FragmentKey :=
  ⟨ipv6Addr (slice packet 8 24), ipv6Addr (slice packet 24 40), identification.toNat⟩

end SimMaster.TunGateway
