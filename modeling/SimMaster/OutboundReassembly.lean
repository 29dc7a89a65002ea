import SimMaster.ReassemblyPolicies

/-!
# Outbound reassembly

The two reassemblers behind the TUN device, one for each IP version, forward a packet once all of
its fragments are there: its fragments are well-formed, and the policies restore its header.
-/

namespace SimMaster.TunGateway

open Rust Reassembly List Option

variable {packet : Bytes} {maxIpBytes : ℕ} {p : Fragment UInt8}

/-! ## IPv4 -/

/-- A fragment goes to the buffer of its packet. -/
theorem ipv4Received_fragment (hp : WholeIpv4 packet) (hoffset : p.offset < 65536)
    (hunit : p.offset % 8 = 0) (hdata : p.data ≠ [])
    (hfull : p.last = false → p.data.length % 8 = 0) (hstart : p.last = true → p.offset ≠ 0) :
    ipv4Received (ipv4Fragment packet (headerLen packet) p) =
      some (ipv4PacketKey packet, ⟨ipv4FragmentHeader packet (headerLen packet) p, p⟩) := by
  have hmin := hp.min
  have hle := hp.le
  have hheader := length_ipv4FragmentHeader hle p
  have hlen := length_ipv4Fragment hle p
  have hzero := getElem?_ipv4Fragment_zero hmin hle p
  obtain ⟨hpos, hmore⟩ := offset_ipv4Fragment hmin hle p hoffset hunit
  have hsome : ipv4FragmentInfo (ipv4Fragment packet (headerLen packet) p) =
      some ⟨fromBe ([0, 0] ++ slice packet 4 6), p.offset, !p.last⟩ := by
    have hversion := (version_congr hzero).trans hp.version
    have hcut : ¬ ((!p.last) = false ∧ p.offset = 0) := fun ⟨hlast, hnil⟩ =>
      hstart ((Bool.not_eq_false' _).mp hlast) hnil
    rw [ipv4FragmentInfo, if_neg (by rw [hversion, hlen]; simp; omega)]
    dsimp only
    rw [hpos, hmore, if_neg hcut, slice_ipv4Fragment hmin hle p (by omega)]
  have hvalid : ¬ (p.data = [] ∨ (!p.last) = true ∧ p.data.length % 8 ≠ 0) := by
    rintro (hnil | ⟨hlast, hodd⟩)
    · exact hdata hnil
    · exact hodd (hfull (Bool.not_eq_true' _ ▸ hlast))
  rw [ipv4Received, hsome, bind_some]
  dsimp only
  rw [headerLen_congr hzero, ipv4Key, slice_ipv4Fragment hmin hle p (by omega),
    slice_ipv4Fragment hmin hle p (by omega), ipv4Fragment, drop_left' hheader, take_left' hheader,
    if_neg (not_or.mpr ⟨not_not_intro ⟨hmin, by rw [← ipv4Fragment]; omega⟩, hvalid⟩), Bool.not_not]
  rfl

theorem restore_ipv4Policy (hp : WholeIpv4 packet) (p : Fragment UInt8) :
    ipv4Policy.restore (ipv4FragmentHeader packet (headerLen packet) p)
        (packet.length - headerLen packet) =
      some (some (withChecksum (packet.take (headerLen packet)))) := by
  have hle := hp.le
  have hshort := hp.length_lt
  have htotal : headerLen packet + (packet.length - headerLen packet) = packet.length := by omega
  dsimp only [ipv4Policy]
  rw [length_ipv4FragmentHeader hle p, htotal, if_neg (by omega),
    restoreIpv4Header_fragment hp.min hle p hp.field hp.flags]
  rfl

/-- The fragments of a long packet, for the reassembler of outbound IPv4 packets. -/
theorem outboundIpv4_forwardsOnce (hp : WholeIpv4 packet)
    (hroom : headerLen packet + 8 ≤ maxIpBytes) (hlong : maxIpBytes < packet.length) :
    outboundIpv4.ForwardsOnce (ipv4PacketKey packet) (fragmentIpv4Packet packet maxIpBytes)
      (recomputed packet) := by
  obtain ⟨parts, hparts, hfragments⟩ := hp.fragments hroom hlong
  have hrestore := restore_ipv4Policy hp
  rw [← length_drop, ← hparts.join_eq] at hrestore
  have hforwards := outboundIpv4_refines.forwardsOnce hparts.tiles
    (fun p hmem => ipv4Received_fragment hp (hparts.offset_lt p hmem) (hparts.offset_mod p hmem)
      (hparts.tiles.data_ne_nil hmem) (hparts.length_mod p hmem) (hparts.offset_ne p hmem))
    fun p _ _ => hrestore p
  rwa [hparts.join_eq, ← hfragments] at hforwards

/-! ## IPv6 -/

/-- A fragment goes to the buffer of its packet. -/
theorem ipv6Received_fragment (hp : WholeIpv6 packet) (identification : UInt32)
    (hoffset : p.offset < 65536) (hunit : p.offset % 8 = 0) (hsize : 8 + p.data.length < 65536) :
    ipv6Received (ipv6Fragment packet identification p) =
      some (ipv6PacketKey packet identification,
        ⟨(ipv6BaseHeader packet p, packet.getD 6 0), p⟩) := by
  have hheader := hp.header
  have hlen := length_ipv6Fragment hheader identification p
  obtain ⟨hversion, hannounced⟩ := isIpv6Fragment_fragment hheader identification p hp.version
  obtain ⟨hpos, hmore⟩ := offset_ipv6Fragment hheader identification p hoffset hunit
  have hfragment : isIpv6Fragment (ipv6Fragment packet identification p) = true :=
    decide_eq_true ⟨hversion, by omega, hannounced⟩
  have hend : fromBe (slice (ipv6Fragment packet identification p) 4 6) = 8 + p.data.length := by
    rw [slice_ipv6Fragment_base hheader identification p (by decide),
      slice_ipv6BaseHeader_length hheader, fromBe_be hsize]
  have hdata : slice (ipv6Fragment packet identification p) 48 (40 + (8 + p.data.length)) =
      p.data := by
    rw [slice, ipv6Fragment_drop hheader, take_of_length_le (by omega)]
  have hkey : ipv6Key (ipv6Fragment packet identification p) =
      ipv6PacketKey packet identification := by
    rw [ipv6Key, slice_ipv6Fragment_base hheader identification p (by decide),
      slice_ipv6Fragment_base hheader identification p (by decide),
      slice_ipv6BaseHeader p (by decide), slice_ipv6BaseHeader p (by decide),
      identification_ipv6Fragment hheader]
    rfl
  rw [ipv6Received]
  dsimp only
  rw [hfragment, hend, if_neg (by simp; omega), hpos, hmore, hdata, hkey, ipv6Fragment_take hheader,
    getD_ipv6Fragment_nextHeader hheader, Bool.not_not]

theorem restore_ipv6Policy (hp : WholeIpv6 packet) (p : Fragment UInt8) :
    ipv6Policy.restore (ipv6BaseHeader packet p, packet.getD 6 0) (packet.length - 40) =
      some (some (packet.take 40)) := by
  have hheader := length_ipv6BaseHeader hp.header p
  have hshort := hp.length_lt
  dsimp only [ipv6Policy]
  rw [if_neg (by omega), copyFromSlice_of_le (by rw [hheader, length_singleton]; decide)]
  dsimp only [bind_eq_bind, bind_some]
  rw [copyFromSlice_of_le (by rw [length_overwrite, hheader, length_be]; decide),
    restore_ipv6BaseHeader hp.header p hp.field]
  rfl

/-- The fragments of a long packet, for the reassembler of outbound IPv6 packets. -/
theorem outboundIpv6_forwardsOnce (hp : WholeIpv6 packet)
    (identification : UInt32) (hroom : 56 ≤ maxIpBytes) (hlong : maxIpBytes < packet.length) :
    outboundIpv6.ForwardsOnce (ipv6PacketKey packet identification)
      (fragmentIpv6Packet packet maxIpBytes identification) packet := by
  obtain ⟨parts, hparts, hfragments⟩ := hp.fragments identification hroom hlong
  have hshort := hp.length_lt
  have hrestore := restore_ipv6Policy hp
  rw [← length_drop, ← hparts.join_eq] at hrestore
  have hsize : ∀ p ∈ parts, 8 + p.data.length < 65536 := fun p hmem => by
    have hle := hparts.length_le p hmem
    omega
  have hforwards := outboundIpv6_refines.forwardsOnce hparts.tiles
    (fun p hmem => ipv6Received_fragment hp identification (hparts.offset_lt p hmem)
      (hparts.offset_mod p hmem) (hsize p hmem)) fun p _ _ => hrestore p
  rwa [hparts.join_eq, take_append_drop, ← hfragments] at hforwards

end SimMaster.TunGateway
