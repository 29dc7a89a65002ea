import SimMaster.OutboundReassembly

/-!
# Inbound reassembly

The reassembler behind the tunnel takes fragments of both IP versions. With it the statement about
all fragments is complete: a whole packet that `fragmentInnerPacket` cuts comes out of every
reassembler again, once (`fragments_reassemble`).
-/

namespace SimMaster.TunGateway

open Rust Reassembly Machine List Option

/-- Fragments that say of themselves what they were made for, and whose headers are restored to the
same, are forwarded. -/
theorem inbound_forwardsOnce {parts : List (Fragment UInt8)} (htiles : Tiles 0 parts)
    {emit header : Fragment UInt8 → Bytes} {key : FragmentKey} {restored : Bytes}
    (hinfo : ∀ p ∈ parts, inboundFragmentInfo (emit p) = some (some
      ⟨key.src, key.dst, key.identification, p.offset, !p.last, header p, p.data⟩))
    (hrestore : ∀ p ∈ parts, restoreInboundHeader (header p) (join parts).length =
      some (some restored)) :
    inbound.ForwardsOnce key (parts.map emit) (restored ++ join parts) := by
  refine inbound_refines.forwardsOnce htiles (fun p hmem => ?_) fun p hmem _ => hrestore p hmem
  rw [inboundReceived, hinfo p hmem, join_some, map_some, Bool.not_not]
  rfl

/-! ## Both IP versions -/

variable {packet : Bytes} {p : Fragment UInt8}

theorem inboundFragmentInfo_ipv4Fragment (hp : WholeIpv4 packet) (hoffset : p.offset < 65536)
    (hunit : p.offset % 8 = 0)
    (hcut : p.last = true → p.offset ≠ 0) :
    inboundFragmentInfo (ipv4Fragment packet (headerLen packet) p) = some (some
      ⟨(ipv4PacketKey packet).src, (ipv4PacketKey packet).dst,
        (ipv4PacketKey packet).identification, p.offset, !p.last,
        ipv4FragmentHeader packet (headerLen packet) p, p.data⟩) := by
  have hmin := hp.min
  have hle := hp.le
  have hheader := length_ipv4FragmentHeader hle p
  have hlen := length_ipv4Fragment hle p
  have hzero := getElem?_ipv4Fragment_zero hmin hle p
  obtain ⟨hpos, hmore⟩ := offset_ipv4Fragment hmin hle p hoffset hunit
  have hnone : ¬ ((!p.last) = false ∧ p.offset = 0) := fun ⟨hlast, hnil⟩ =>
    hcut ((Bool.not_eq_false' _).mp hlast) hnil
  have hbase : getRange (ipv4Fragment packet (headerLen packet) p) 0 (headerLen packet) =
      some (ipv4FragmentHeader packet (headerLen packet) p) := by
    rw [getRange, if_pos (by omega), ipv4Fragment, drop_zero, Nat.sub_zero, take_left' hheader]
  have hpayload : getFrom (ipv4Fragment packet (headerLen packet) p) (headerLen packet) =
      some p.data := by
    rw [getFrom, if_pos (by omega), ipv4Fragment, drop_left' hheader]
  rw [inboundFragmentInfo, if_pos ((version_congr hzero).trans hp.version), if_neg (by omega)]
  dsimp only
  rw [hpos, hmore, if_neg hnone, headerLen_congr hzero, hbase]
  rw [hpayload, slice_ipv4Fragment hmin hle p (by omega), slice_ipv4Fragment hmin hle p (by omega),
    slice_ipv4Fragment hmin hle p (by omega)]
  rfl

theorem restoreInboundHeader_ipv4 (hp : WholeIpv4 packet) (p : Fragment UInt8) :
    restoreInboundHeader (ipv4FragmentHeader packet (headerLen packet) p)
        (packet.length - headerLen packet) =
      some (some (withChecksum (packet.take (headerLen packet)))) := by
  have hmin := hp.min
  have hle := hp.le
  have hshort := hp.length_lt
  have hzero : (ipv4FragmentHeader packet (headerLen packet) p)[0]? = packet[0]? :=
    getElem?_ipv4FragmentHeader_zero hmin p
  have htotal : headerLen packet + (packet.length - headerLen packet) = packet.length := by omega
  rw [restoreInboundHeader, if_pos ((version_congr hzero).trans hp.version)]
  dsimp only
  rw [headerLen_congr hzero, htotal, if_neg (by omega),
    restoreIpv4Header_fragment hmin hle p hp.field hp.flags]
  rfl

theorem inboundFragmentInfo_ipv6Fragment (hp : WholeIpv6 packet)
    (identification : UInt32) (hoffset : p.offset < 65536) (hunit : p.offset % 8 = 0) :
    inboundFragmentInfo (ipv6Fragment packet identification p) = some (some
      ⟨(ipv6PacketKey packet identification).src, (ipv6PacketKey packet identification).dst,
        (ipv6PacketKey packet identification).identification, p.offset, !p.last,
        overwrite (ipv6BaseHeader packet p) 6 [packet.getD 6 0], p.data⟩) := by
  have hheader := hp.header
  have hlen := length_ipv6Fragment hheader identification p
  obtain ⟨hversion, hannounced⟩ := isIpv6Fragment_fragment hheader identification p hp.version
  obtain ⟨hpos, hmore⟩ := offset_ipv6Fragment hheader identification p hoffset hunit
  have hbit : ∀ n : ℕ, decide (n &&& 1 = 1) = decide (n &&& 1 ≠ 0) := fun n => by
    rw [Nat.and_one_is_mod, decide_eq_decide]
    omega
  rw [inboundFragmentInfo, hversion, if_neg (by decide), if_pos rfl,
    if_neg (by rw [hannounced]; simp; omega)]
  dsimp only
  rw [hbit, hpos, hmore, ipv6Fragment_take hheader, ipv6Fragment_drop hheader,
    getD_ipv6Fragment_nextHeader hheader, identification_ipv6Fragment hheader,
    slice_ipv6Fragment_base hheader identification p (by decide),
    slice_ipv6Fragment_base hheader identification p (by decide),
    slice_ipv6BaseHeader p (by decide), slice_ipv6BaseHeader p (by decide)]
  rfl

theorem restoreInboundHeader_ipv6 (hp : WholeIpv6 packet) (p : Fragment UInt8) :
    restoreInboundHeader (overwrite (ipv6BaseHeader packet p) 6 [packet.getD 6 0])
        (packet.length - 40) = some (some (packet.take 40)) := by
  have hshort := hp.length_lt
  have hversion : version (overwrite (ipv6BaseHeader packet p) 6 [packet.getD 6 0]) = some 6 := by
    refine (version_congr ?_).trans hp.version
    rw [getElem?_overwrite_of_not_mem (Or.inl (by decide)), getElem?_ipv6BaseHeader p (by decide)]
  rw [restoreInboundHeader, hversion, if_neg (by decide), if_pos rfl, if_neg (by omega),
    copyFromSlice_of_le, restore_ipv6BaseHeader hp.header p hp.field]
  · rfl
  · rw [length_overwrite, length_ipv6BaseHeader hp.header, length_be]
    decide

/-! ## Fragment and reassemble -/

/-- A well-formed packet that is no fragment. -/
def Whole (packet : Bytes) : Prop := WholeIpv4 packet ∨ WholeIpv6 packet

/-- The octets that headers take in each fragment of a packet. -/
def fragmentOverhead (packet : Bytes) : ℕ :=
  if version packet = some 4 then headerLen packet else 48

/-- The key of the fragments of a packet. -/
def packetKey (packet : Bytes) (identification : UInt32) : FragmentKey :=
  if version packet = some 4 then ipv4PacketKey packet else ipv6PacketKey packet identification

/-- What the reassemblers make of the fragments of a packet: the packet, with the header checksum
recomputed if it is an IPv4 packet that was cut. -/
def forwarded (packet : Bytes) (maxIpBytes : ℕ) : Bytes :=
  if packet.length ≤ maxIpBytes ∨ version packet ≠ some 4 then packet else recomputed packet

/-- Only the checksum field of an IPv4 packet can differ. -/
theorem getElem?_forwarded (packet : Bytes) (maxIpBytes : ℕ) {i : ℕ}
    (hi : version packet = some 4 → i ≠ 10 ∧ i ≠ 11) :
    (forwarded packet maxIpBytes)[i]? = packet[i]? := by
  rw [forwarded]
  split
  · rfl
  · rename_i hcut
    have hversion : version packet = some 4 := by
      by_contra hother
      exact hcut (Or.inr hother)
    obtain ⟨h10, h11⟩ := hi hversion
    have hlen : (be 2 (ipv4HeaderChecksum
        (overwrite (packet.take (headerLen packet)) 10 [0, 0]))).length = 2 := length_be 2 _
    have hheader : (withChecksum (packet.take (headerLen packet)))[i]? =
        (packet.take (headerLen packet))[i]? := by
      rw [withChecksum_eq, getElem?_overwrite_of_not_mem (by omega),
        getElem?_overwrite_of_not_mem (by simp only [length_cons, length_nil]; omega)]
    have hwhole := congrArg (fun packet : Bytes => packet[i]?)
      (take_append_drop (headerLen packet) packet)
    rw [recomputed, ← hwhole, getElem?_append, getElem?_append, length_withChecksum, hheader]

section Uncut

variable {packet : Bytes}

theorem outboundIpv4_forwardsOnce_whole (hp : WholeIpv4 packet) (key : FragmentKey) :
    outboundIpv4.ForwardsOnce key [packet] packet := by
  have hnone : ipv4FragmentInfo packet = none := by
    rw [ipv4FragmentInfo, hp.flags]
    split
    · rfl
    · exact if_pos (by decide)
  refine Reassembler.forwardsOnce_single (outboundIpv4_refines.frames key) fun now buffers => ?_
  change reassembleOutboundIpFragment now packet buffers = _
  rw [reassembleOutboundIpFragment, hnone]

theorem outboundIpv6_forwardsOnce_whole (hp : WholeIpv6 packet) (key : FragmentKey) :
    outboundIpv6.ForwardsOnce key [packet] packet := by
  have hnone : isIpv6Fragment packet = false :=
    decide_eq_false fun hfragment => hp.nextHeader hfragment.2.2
  refine Reassembler.forwardsOnce_single (outboundIpv6_refines.frames key) fun now buffers => ?_
  change reassembleOutboundIpv6Fragment now packet buffers = _
  rw [reassembleOutboundIpv6Fragment, if_pos hnone]

theorem inbound_forwardsOnce_whole (hp : Whole packet) (key : FragmentKey) :
    inbound.ForwardsOnce key [packet] packet := by
  have hnone : inboundFragmentInfo packet = some none := by
    rcases hp with hp | hp
    · rw [inboundFragmentInfo, if_pos hp.version, hp.flags]
      split
      · rfl
      · exact if_pos (by decide)
    · rw [inboundFragmentInfo, hp.version, if_neg (by decide), if_pos rfl,
        if_pos (Or.inr hp.nextHeader)]
  refine Reassembler.forwardsOnce_single (inbound_refines.frames key) fun now buffers => ?_
  change reassembleInboundIpFragment now packet buffers = _
  rw [reassembleInboundIpFragment, hnone]
  rfl

end Uncut

section Cut

variable {packet : Bytes} {maxIpBytes : ℕ}

theorem inbound_forwardsOnce_ipv4 (hp : WholeIpv4 packet)
    (hroom : headerLen packet + 8 ≤ maxIpBytes) (hlong : maxIpBytes < packet.length) :
    inbound.ForwardsOnce (ipv4PacketKey packet) (fragmentIpv4Packet packet maxIpBytes)
      (recomputed packet) := by
  obtain ⟨parts, hparts, hfragments⟩ := hp.fragments hroom hlong
  have hinfo : ∀ p ∈ parts, inboundFragmentInfo (ipv4Fragment packet (headerLen packet) p) =
      some (some ⟨(ipv4PacketKey packet).src, (ipv4PacketKey packet).dst,
        (ipv4PacketKey packet).identification, p.offset, !p.last,
        ipv4FragmentHeader packet (headerLen packet) p, p.data⟩) := fun p hmem =>
    inboundFragmentInfo_ipv4Fragment hp (hparts.offset_lt p hmem) (hparts.offset_mod p hmem)
      (hparts.offset_ne p hmem)
  have hrestore : ∀ p ∈ parts, restoreInboundHeader
      (ipv4FragmentHeader packet (headerLen packet) p) (join parts).length =
        some (some (withChecksum (packet.take (headerLen packet)))) := fun p _ => by
    rw [hparts.join_eq, length_drop]
    exact restoreInboundHeader_ipv4 hp p
  have hforwards := inbound_forwardsOnce hparts.tiles hinfo hrestore
  rw [hparts.join_eq, ← hfragments] at hforwards
  exact hforwards

theorem inbound_forwardsOnce_ipv6 (hp : WholeIpv6 packet) (identification : UInt32)
    (hroom : 56 ≤ maxIpBytes) (hlong : maxIpBytes < packet.length) :
    inbound.ForwardsOnce (ipv6PacketKey packet identification)
      (fragmentIpv6Packet packet maxIpBytes identification) packet := by
  obtain ⟨parts, hparts, hfragments⟩ := hp.fragments identification hroom hlong
  have hinfo : ∀ p ∈ parts, inboundFragmentInfo (ipv6Fragment packet identification p) =
      some (some ⟨(ipv6PacketKey packet identification).src,
        (ipv6PacketKey packet identification).dst,
        (ipv6PacketKey packet identification).identification, p.offset, !p.last,
        overwrite (ipv6BaseHeader packet p) 6 [packet.getD 6 0], p.data⟩) := fun p hmem =>
    inboundFragmentInfo_ipv6Fragment hp identification (hparts.offset_lt p hmem)
      (hparts.offset_mod p hmem)
  have hrestore : ∀ p ∈ parts, restoreInboundHeader
      (overwrite (ipv6BaseHeader packet p) 6 [packet.getD 6 0]) (join parts).length =
        some (some (packet.take 40)) := fun p _ => by
    rw [hparts.join_eq, length_drop]
    exact restoreInboundHeader_ipv6 hp p
  have hforwards := inbound_forwardsOnce hparts.tiles hinfo hrestore
  rw [hparts.join_eq, take_append_drop, ← hfragments] at hforwards
  exact hforwards

end Cut

/-- **Fragment and reassemble.** A well-formed packet that is no fragment itself is cut into
fragments that fit the maximum size, if that leaves room for eight octets besides the headers. Each
reassembler that takes the packet's IP version forwards the packet exactly once, when the last of
the fragments arrives, and keeps no buffer for it. -/
theorem fragments_reassemble {packet : Bytes} {maxIpBytes : ℕ} (identification : UInt32)
    (hp : Whole packet) (hroom : fragmentOverhead packet + 8 ≤ maxIpBytes) :
    (∀ fragment ∈ fragmentInnerPacket packet maxIpBytes identification,
      fragment.length ≤ maxIpBytes) ∧
    (version packet = some 4 → outboundIpv4.ForwardsOnce (packetKey packet identification)
      (fragmentInnerPacket packet maxIpBytes identification) (forwarded packet maxIpBytes)) ∧
    (version packet = some 6 → outboundIpv6.ForwardsOnce (packetKey packet identification)
      (fragmentInnerPacket packet maxIpBytes identification) (forwarded packet maxIpBytes)) ∧
    inbound.ForwardsOnce (packetKey packet identification)
      (fragmentInnerPacket packet maxIpBytes identification) (forwarded packet maxIpBytes) ∧
    ∀ i, (version packet = some 4 → i ≠ 10 ∧ i ≠ 11) →
      (forwarded packet maxIpBytes)[i]? = packet[i]? := by
  by_cases hshort : packet.length ≤ maxIpBytes
  · -- the packet stays whole and is no fragment
    rw [fragmentInnerPacket, if_pos hshort, forwarded, if_pos (Or.inl hshort)]
    refine ⟨fun fragment hmem => mem_singleton.mp hmem ▸ hshort, fun hversion => ?_,
      fun hversion => ?_, inbound_forwardsOnce_whole hp _, fun i _ => rfl⟩
    · rcases hp with hp | hp
      · exact outboundIpv4_forwardsOnce_whole hp _
      · exact absurd (hp.version.symm.trans hversion) (by decide)
    · rcases hp with hp | hp
      · exact absurd (hp.version.symm.trans hversion) (by decide)
      · exact outboundIpv6_forwardsOnce_whole hp _
  · have hlong : maxIpBytes < packet.length := Nat.lt_of_not_le hshort
    rcases hp with hp | hp
    · have hcut : fragmentInnerPacket packet maxIpBytes identification =
          fragmentIpv4Packet packet maxIpBytes := by
        rw [fragmentInnerPacket, if_neg hshort, if_pos hp.version]
      have hforwarded : forwarded packet maxIpBytes = recomputed packet :=
        if_neg (not_or.mpr ⟨hshort, not_not_intro hp.version⟩)
      rw [fragmentOverhead, if_pos hp.version] at hroom
      rw [hcut, packetKey, if_pos hp.version]
      refine ⟨?_, fun _ => ?_, fun hversion => ?_, ?_,
        fun i hi => getElem?_forwarded packet maxIpBytes hi⟩
      · obtain ⟨parts, hparts, hfragments⟩ := hp.fragments hroom hlong
        intro fragment hmem
        rw [hfragments] at hmem
        obtain ⟨p, hp', rfl⟩ := mem_map.mp hmem
        have hsize := hparts.length_le p hp'
        rw [length_ipv4Fragment hp.le]
        omega
      · rw [hforwarded]
        exact outboundIpv4_forwardsOnce hp hroom hlong
      · exact absurd (hp.version.symm.trans hversion) (by decide)
      · rw [hforwarded]
        exact inbound_forwardsOnce_ipv4 hp hroom hlong
    · have hother : ¬ version packet = some 4 := by rw [hp.version]; decide
      have hcut : fragmentInnerPacket packet maxIpBytes identification =
          fragmentIpv6Packet packet maxIpBytes identification := by
        rw [fragmentInnerPacket, if_neg hshort, if_neg hother, if_pos hp.version]
      have hforwarded : forwarded packet maxIpBytes = packet := if_pos (Or.inr hother)
      rw [fragmentOverhead, if_neg hother] at hroom
      rw [hcut, hforwarded, packetKey, if_neg hother]
      refine ⟨?_, fun hversion => absurd hversion hother, fun _ => ?_, ?_, fun i _ => rfl⟩
      · obtain ⟨parts, hparts, hfragments⟩ := hp.fragments identification hroom hlong
        intro fragment hmem
        rw [hfragments] at hmem
        obtain ⟨p, hp', rfl⟩ := mem_map.mp hmem
        have hsize := hparts.length_le p hp'
        rw [length_ipv6Fragment hp.header]
        omega
      · exact outboundIpv6_forwardsOnce hp identification hroom hlong
      · exact inbound_forwardsOnce_ipv6 hp identification hroom hlong

/-- An IPv4 packet with sixteen octets of payload. -/
def samplePacket : Bytes :=
  [0x45, 0, 0, 36, 0x12, 0x34, 0, 0, 64, 17, 0, 0, 10, 0, 0, 1, 10, 0, 0, 2,
    1, 2, 3, 4, 5, 6, 7, 8, 9, 10, 11, 12, 13, 14, 15, 16]

/-- With room for eight octets in a fragment it takes two. -/
theorem fragments_reassemble_sample : (fragmentInnerPacket samplePacket 28 0).length = 2 ∧
      outboundIpv4.ForwardsOnce (packetKey samplePacket 0)
        (fragmentInnerPacket samplePacket 28 0) (forwarded samplePacket 28) ∧
      inbound.ForwardsOnce (packetKey samplePacket 0)
        (fragmentInnerPacket samplePacket 28 0) (forwarded samplePacket 28) := by
  have hwhole : Whole samplePacket :=
    Or.inl ⟨by decide, by decide, by decide, by decide, by decide⟩
  obtain ⟨-, hout, -, hin, -⟩ := fragments_reassemble 0 hwhole (show
    fragmentOverhead samplePacket + 8 ≤ 28 by decide)
  exact ⟨by decide +kernel, hout (by decide), hin⟩

/-- The first fragment of a packet, well formed and with room to spare. -/
def sampleFragment : Bytes :=
  [0x45, 0, 0, 28, 0x12, 0x34, 0x20, 0, 64, 17, 0, 0, 10, 0, 0, 1, 10, 0, 0, 2, 1, 2, 3,
    4, 5, 6, 7, 8]

/-- A packet that is a fragment already is not forwarded: its more-fragments flag is kept when it is
not cut, and the reassembler waits for the rest. -/
theorem fragment_not_forwarded : version sampleFragment = some 4 ∧ headerLen sampleFragment = 20 ∧
      fromBe (slice sampleFragment 2 4) = sampleFragment.length ∧
      fromBe (slice sampleFragment 6 8) &&& 0xdfff = 0 ∧ fragmentOverhead sampleFragment + 8 ≤ 100 ∧
      ∀ packet, ¬ outboundIpv4.ForwardsOnce (packetKey sampleFragment 0)
        (fragmentInnerPacket sampleFragment 100 0) packet := by
  refine ⟨by decide, by decide, by decide, by decide, by decide, fun packet hforwards => ?_⟩
  have hquiet : ∀ pre a post, [Arrival.mk 0 sampleFragment true] = pre ++ a :: post →
      outboundIpv4.Quiet (packetKey sampleFragment 0) (run outboundIpv4.step ∅ pre) a := by
    intro pre a post heq
    obtain ⟨rfl, ha⟩ : pre = [] ∧ a = Arrival.mk 0 sampleFragment true := by
      cases pre with
      | nil => exact ⟨rfl, (cons.inj heq).1.symm⟩
      | cons b pre => simp at heq
    exact ⟨Or.inl (by decide), fun hother => absurd (ha ▸ hother) (by decide)⟩
  have hanswers := (hforwards ∅ [Arrival.mk 0 sampleFragment true] rfl (.refl _) hquiet).1
  have hbuffered : ownAnswers Arrival.own
      (trace outboundIpv4.step ∅ [Arrival.mk 0 sampleFragment true]) = [some .buffered] := by
    decide +kernel
  rw [hbuffered] at hanswers
  simp [fragmentInnerPacket, sampleFragment] at hanswers

end SimMaster.TunGateway
