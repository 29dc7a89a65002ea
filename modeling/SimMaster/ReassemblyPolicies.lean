import SimMaster.GatheringRuns

/-!
# The three policies

What each reassembler makes of a fragment and how it decides about a set, and that it follows the
policy: `outboundIpv4_refines`, `outboundIpv6_refines`, `inbound_refines`.
-/

namespace SimMaster.TunGateway

open Rust Reassembly List Option

/-! ## Restored headers -/

variable {i : ℕ} {data : Bytes}

theorem copyFromSlice_eq_some {bytes d : Bytes} (h : copyFromSlice data i bytes = some d) :
    i + bytes.length ≤ data.length ∧ d = overwrite data i bytes := by
  rw [copyFromSlice] at h
  split at h
  case isTrue hle => exact ⟨hle, (some.inj h).symm⟩
  case isFalse => cases h

variable {header restored : Bytes}

theorem restoreIpv4Header_eq_some {total : ℕ}
    (h : restoreIpv4Header header header.length total = some restored) : 12 ≤ header.length ∧
      restored = withChecksum (overwrite (overwrite header 2 (be 2 total)) 6 [0, 0]) := by
  have hmin : 12 ≤ header.length := by
    obtain ⟨h2, hh2, h⟩ := bind_eq_some_iff.mp h
    obtain ⟨h6, hh6, h⟩ := bind_eq_some_iff.mp h
    obtain ⟨h10, hh10, h⟩ := bind_eq_some_iff.mp h
    obtain ⟨h11, hh11, -⟩ := bind_eq_some_iff.mp h
    obtain ⟨-, rfl⟩ := copyFromSlice_eq_some hh2
    obtain ⟨-, rfl⟩ := copyFromSlice_eq_some hh6
    obtain ⟨-, rfl⟩ := copyFromSlice_eq_some hh10
    simpa using (copyFromSlice_eq_some hh11).1
  rw [restoreIpv4Header_eq hmin] at h
  exact ⟨hmin, (some.inj h).symm⟩

/-- A restored IPv4 header says how long the packet is. -/
theorem lengthField_ipv4 (hversion : version header = some 4)
    (hshort : header.length + data.length ≤ 65535)
    (h : restoreIpv4Header header header.length (header.length + data.length) = some restored) :
    lengthField (restored ++ data) = some (restored ++ data).length := by
  obtain ⟨hmin, rfl⟩ := restoreIpv4Header_eq_some h
  have hlen : (withChecksum (overwrite (overwrite header 2 (be 2 (header.length + data.length))) 6
      [0, 0])).length = header.length := by simp
  have hfirst : (withChecksum (overwrite (overwrite header 2 (be 2 (header.length + data.length))) 6
      [0, 0]) ++ data)[0]? = header[0]? := by
    rw [getElem?_append_left (by omega), withChecksum_eq,
      getElem?_overwrite_of_not_mem (Or.inl (by decide)),
      getElem?_overwrite_of_not_mem (Or.inl (by decide)),
      getElem?_overwrite_of_not_mem (Or.inl (by decide)),
      getElem?_overwrite_of_not_mem (Or.inl (by decide))]
  have hfield : slice (withChecksum (overwrite (overwrite header 2
      (be 2 (header.length + data.length))) 6 [0, 0]) ++ data) 2 4 =
        be 2 (header.length + data.length) := by
    rw [slice_append_left (by omega), slice_withChecksum (by decide),
      slice_overwrite_of_disjoint (by simp)]
    exact slice_overwrite (by rw [length_be]; omega)
  rw [lengthField, if_pos ((version_congr hfirst).trans hversion), hfield,
    fromBe_be (by omega), length_append, hlen]

/-- A restored IPv6 header says how long the payload is. -/
theorem lengthField_ipv6 (hversion : version header = some 6)
    (hlen : header.length = 40) (hshort : data.length ≤ 65535) :
    lengthField (overwrite header 4 (be 2 data.length) ++ data) =
      some (overwrite header 4 (be 2 data.length) ++ data).length := by
  have hfirst : (overwrite header 4 (be 2 data.length) ++ data)[0]? = header[0]? := by
    rw [getElem?_append_left (by simp [hlen]), getElem?_overwrite_of_not_mem (Or.inl (by decide))]
  have hfield : slice (overwrite header 4 (be 2 data.length) ++ data) 4 6 = be 2 data.length := by
    rw [slice_append_left (by simp [hlen])]
    exact slice_overwrite (by rw [length_be, hlen]; decide)
  have hversion' := (version_congr hfirst).trans hversion
  rw [lengthField, hversion', if_neg (by decide), if_pos rfl, hfield, fromBe_be (by omega),
    length_append, length_overwrite, hlen]

/-! ## IPv4, outbound -/

def ipv4Policy : Policy Bytes where
  walk := contiguousEnd
  replaces := false
  unevenOutcome := .dropped
  keepsUneven := false
  keepsRefused := false
  restore header total :=
    if 65535 < header.length + total then some none
    else (restoreIpv4Header header header.length (header.length + total)).map some

/-- A well-formed IPv4 fragment: its octets after the header, at least one, and a multiple of eight
unless it is the last. -/
def ipv4Received (packet : Bytes) : Option (FragmentKey × Received Bytes) :=
  (ipv4FragmentInfo packet).bind fun fragment =>
    let ihl := headerLen packet
    let payload := packet.drop ihl
    if ¬(20 ≤ ihl ∧ ihl ≤ packet.length) ∨ payload = [] ∨
        (fragment.moreFragments = true ∧ payload.length % 8 ≠ 0) then none
    else some (ipv4Key packet fragment,
      ⟨packet.take ihl, ⟨fragment.offsetBytes, payload, !fragment.moreFragments⟩⟩)

def Ipv4FragmentBuffer.view (buffer : Ipv4FragmentBuffer) : Gathered Bytes :=
  ⟨buffer.header, buffer.pieces, buffer.expectedLen⟩

theorem contiguous_sound {η : Type} {policy : Policy η} (hwalk : policy.walk = contiguousEnd)
    (hreplaces : policy.replaces = false)
    (hout : ∀ packet, policy.unevenOutcome ≠ .forward packet) :
    policy.Sound where
  follows pieces n _ _ h := follows_of_contiguousEnd (hwalk ▸ h)
  covers h := by rw [hreplaces] at h; cases h
  walks parts got _ _ := by rw [hwalk]
  unforwarded := hout

variable {packet : Bytes} {key : FragmentKey} {f : Received Bytes}

/-- What a well-formed IPv4 fragment is. -/
theorem ipv4Received_eq_some (h : ipv4Received packet = some (key, f)) :
    ∃ fragment, ipv4FragmentInfo packet = some fragment ∧ key = ipv4Key packet fragment ∧
      f = ⟨packet.take (headerLen packet),
        ⟨fragment.offsetBytes, packet.drop (headerLen packet), !fragment.moreFragments⟩⟩ ∧
      20 ≤ headerLen packet ∧ headerLen packet ≤ packet.length ∧
      packet.drop (headerLen packet) ≠ [] ∧
      ¬(fragment.moreFragments = true ∧ (packet.drop (headerLen packet)).length % 8 ≠ 0) := by
  obtain ⟨fragment, hinfo, h⟩ := bind_eq_some_iff.mp h
  dsimp only at h
  split at h
  case isTrue => cases h
  case isFalse hvalid =>
    rw [not_or, not_or, not_not] at hvalid
    cases h
    exact ⟨fragment, hinfo, rfl, rfl, hvalid.1.1, hvalid.1.2, hvalid.2.1, hvalid.2.2⟩

theorem ipv4FragmentInfo_eq_some {fragment : Ipv4FragmentInfo}
    (h : ipv4FragmentInfo packet = some fragment) :
    version packet = some 4 ∧ (fragment.moreFragments = false → fragment.offsetBytes ≠ 0) := by
  rw [ipv4FragmentInfo] at h
  split at h
  case isTrue => cases h
  case isFalse hvalid =>
  dsimp only at h
  split at h
  case isTrue => cases h
  case isFalse hcut =>
    cases h
    exact ⟨not_not.mp (not_or.mp hvalid).1, fun hmore hzero => hcut ⟨hmore, hzero⟩⟩

theorem outboundIpv4_refines :
    outboundIpv4.Refines ipv4Policy ipv4Received .new Ipv4FragmentBuffer.view
      fun b f => b.receive ⟨0, f.part.offset, !f.part.last⟩ f.header f.part.data where
  sound := contiguous_sound rfl rfl nofun
  accepted now packet buffers key f hreceived := by
    obtain ⟨fragment, hinfo, rfl, rfl, hmin, hle, hdata, hfull⟩ := ipv4Received_eq_some hreceived
    change reassembleOutboundIpFragment now packet buffers = _
    rw [reassembleOutboundIpFragment, hinfo]
    dsimp only
    rw [if_neg (not_not_intro ⟨hmin, hle⟩), if_neg (not_or.mpr ⟨hdata, hfull⟩), Bool.not_not,
      map_eq_bind]
    rfl
  refused now packet buffers outcome buffers' hreceived hreceive := by
    change reassembleOutboundIpFragment now packet buffers = _ at hreceive
    change (outcome = .dropped ∨ (ipv4FragmentInfo packet).map (ipv4Key packet) = none ∧ _) ∧ _
    rw [reassembleOutboundIpFragment] at hreceive
    cases hinfo : ipv4FragmentInfo packet with
    | none =>
      rw [hinfo] at hreceive
      cases hreceive
      exact ⟨Or.inr ⟨rfl, rfl⟩, Or.inl rfl⟩
    | some fragment =>
      rw [hinfo] at hreceive
      dsimp only at hreceive
      split at hreceive
      case isTrue =>
        cases hreceive
        exact ⟨Or.inl rfl, Or.inl rfl⟩
      case isFalse hihl =>
      split at hreceive
      case isTrue =>
        cases hreceive
        exact ⟨Or.inl rfl, Or.inr rfl⟩
      case isFalse hvalid =>
        rw [ipv4Received, hinfo, bind_some] at hreceived
        rw [if_neg (not_or.mpr ⟨hihl, hvalid⟩)] at hreceived
        cases hreceived
  keyOf packet key f hreceived := by
    obtain ⟨fragment, hinfo, rfl, -⟩ := ipv4Received_eq_some hreceived
    change (ipv4FragmentInfo packet).map (ipv4Key packet) = _
    rw [hinfo]
    rfl
  view_new _ := rfl
  view_recv b f := by
    change Option.map _ (if overlaps f.part.offset f.part.stop b.pieces = true then _ else _) =
      if overlaps f.part.offset f.part.stop b.pieces = true then _ else _
    split
    case isTrue => rfl
    case isFalse =>
      have hadd : (b.add ⟨0, f.part.offset, !f.part.last⟩ f.header f.part.data).view =
          b.view.add ipv4Policy f := by
        rw [Ipv4FragmentBuffer.add, Ipv4FragmentBuffer.view, Gathered.add]
        cases f.part.last <;> rfl
      rw [← hadd]
      generalize b.add ⟨0, f.part.offset, !f.part.last⟩ f.header f.part.data = b'
      obtain ⟨header, pieces, expectedLen, createdAt⟩ := b'
      rw [Ipv4FragmentBuffer.assemble, Gathered.assemble, Ipv4FragmentBuffer.view]
      cases expectedLen with
      | none => rfl
      | some total =>
      cases header with
      | none => rfl
      | some header =>
      dsimp only [ipv4Policy]
      cases contiguousEnd 0 (sortByOffset pieces) with
      | none => rfl
      | some cursor =>
      dsimp only
      by_cases heven : cursor = total
      · by_cases hlong : 65535 < header.length + total
        · rw [if_pos (Or.inr hlong), if_neg (not_not_intro heven), if_pos hlong]
          rfl
        · rw [if_neg (not_or.mpr ⟨not_not_intro heven, hlong⟩), if_neg (not_not_intro heven),
            if_neg hlong]
          cases restoreIpv4Header header header.length (header.length + total) <;> rfl
      · rw [if_pos (Or.inl heven), if_pos heven]
        rfl
  createdAt_recv b f outcome b' hrecv := by
    rw [Ipv4FragmentBuffer.receive] at hrecv
    split at hrecv
    case isTrue => cases hrecv
    case isFalse =>
    rw [Ipv4FragmentBuffer.assemble.eq_def] at hrecv
    split at hrecv
    case h_2 =>
      cases hrecv
      rfl
    case h_1 =>
    dsimp only at hrecv
    split at hrecv
    case h_1 =>
      cases hrecv
      rfl
    case h_2 =>
    split at hrecv
    case isTrue => cases hrecv
    case isFalse =>
      obtain ⟨header, -, hrecv⟩ := bind_eq_some_iff.mp hrecv
      cases hrecv
  fair packet key f hreceived := by
    obtain ⟨fragment, hinfo, rfl, rfl, -⟩ := ipv4Received_eq_some hreceived
    intro hlast hzero
    exact absurd hzero ((ipv4FragmentInfo_eq_some hinfo).2 (by simpa using hlast))
  length packet key f total header data hreceived hrestore hlen := by
    obtain ⟨fragment, hinfo, rfl, rfl, hmin, hle, -⟩ := ipv4Received_eq_some hreceived
    subst hlen
    have hfirst : (packet.take (headerLen packet))[0]? = packet[0]? := by
      rw [getElem?_take_of_lt (by omega)]
    change (if 65535 < _ then _ else _) = _ at hrestore
    split at hrestore
    case isTrue => cases hrestore
    case isFalse hshort =>
      obtain ⟨restored, hrestored, heq⟩ := map_eq_some_iff.mp hrestore
      obtain rfl := some.inj heq
      exact lengthField_ipv4 ((version_congr hfirst).trans (ipv4FragmentInfo_eq_some hinfo).1)
        (not_lt.mp hshort) hrestored

/-! ## IPv6, outbound -/

def ipv6Policy : Policy (Bytes × UInt8) where
  walk := contiguousEnd
  replaces := false
  unevenOutcome := .dropped
  keepsUneven := true
  keepsRefused := true
  restore header total :=
    if 65535 < total then some none
    else do
      let restored ← copyFromSlice header.1 6 [header.2]
      let restored ← copyFromSlice restored 4 (be 2 total)
      some (some restored)

/-- A well-formed IPv6 fragment: what its payload length covers behind the Fragment Header. -/
def ipv6Received (packet : Bytes) : Option (FragmentKey × Received (Bytes × UInt8)) :=
  let packetEnd := 40 + fromBe (slice packet 4 6)
  if isIpv6Fragment packet = false ∨ packet.length < packetEnd ∨ packetEnd < 48 then none
  else
    let offsetM := fromBe (slice packet 42 44)
    some (ipv6Key packet, ⟨(packet.take 40, packet.getD 40 0),
      ⟨(offsetM >>> 3) * 8, slice packet 48 packetEnd, !decide (offsetM &&& 1 ≠ 0)⟩⟩)

def Ipv6FragmentBuffer.view (buffer : Ipv6FragmentBuffer) : Gathered (Bytes × UInt8) :=
  ⟨buffer.baseHeader.bind fun base => buffer.nextHeader.map fun next => (base, next),
    buffer.pieces, buffer.expectedLen⟩

/-- What a well-formed IPv6 fragment is. -/
theorem ipv6Received_eq_some {f : Received (Bytes × UInt8)}
    (h : ipv6Received packet = some (key, f)) : isIpv6Fragment packet = true ∧
      ¬(packet.length < 40 + fromBe (slice packet 4 6) ∨ 40 + fromBe (slice packet 4 6) < 48) ∧
      key = ipv6Key packet ∧ f = ⟨(packet.take 40, packet.getD 40 0),
        ⟨(fromBe (slice packet 42 44) >>> 3) * 8, slice packet 48 (40 + fromBe (slice packet 4 6)),
          !decide (fromBe (slice packet 42 44) &&& 1 ≠ 0)⟩⟩ := by
  rw [ipv6Received] at h
  split at h
  case isTrue => cases h
  case isFalse hvalid =>
    rw [not_or, Bool.not_eq_false] at hvalid
    cases h
    exact ⟨hvalid.1, hvalid.2, rfl, rfl⟩

theorem isIpv6Fragment_eq_true (h : isIpv6Fragment packet = true) :
    version packet = some 6 ∧ 48 ≤ packet.length ∧ packet.getD 6 0 = 44 :=
  of_decide_eq_true h

theorem outboundIpv6_refines :
    outboundIpv6.Refines ipv6Policy ipv6Received .new Ipv6FragmentBuffer.view
      fun b f => b.receive f.part.offset (!f.part.last) f.header.1 f.header.2 f.part.data where
  sound := contiguous_sound rfl rfl nofun
  accepted now packet buffers key f hreceived := by
    obtain ⟨hfragment, hvalid, rfl, rfl⟩ := ipv6Received_eq_some hreceived
    change reassembleOutboundIpv6Fragment now packet buffers = _
    rw [reassembleOutboundIpv6Fragment, hfragment, if_neg (by decide)]
    rw [if_neg hvalid, Bool.not_not, map_eq_bind]
    rfl
  refused now packet buffers outcome buffers' hreceived hreceive := by
    change reassembleOutboundIpv6Fragment now packet buffers = _ at hreceive
    change (outcome = .dropped ∨
      (if isIpv6Fragment packet = true then some (ipv6Key packet) else none) = none ∧ _) ∧ _
    rw [reassembleOutboundIpv6Fragment] at hreceive
    cases hfragment : isIpv6Fragment packet with
    | false =>
      rw [hfragment, if_pos rfl] at hreceive
      cases hreceive
      exact ⟨Or.inr ⟨if_neg (by decide), rfl⟩, Or.inl rfl⟩
    | true =>
      rw [hfragment, if_neg (by decide)] at hreceive
      dsimp only at hreceive
      split at hreceive
      case isTrue =>
        cases hreceive
        exact ⟨Or.inl rfl, Or.inl rfl⟩
      case isFalse hvalid =>
        rw [ipv6Received] at hreceived
        rw [hfragment, if_neg (by simpa using hvalid)] at hreceived
        cases hreceived
  keyOf packet key f hreceived := by
    obtain ⟨hfragment, -, rfl, -⟩ := ipv6Received_eq_some hreceived
    change (if isIpv6Fragment packet = true then some (ipv6Key packet) else none) = _
    rw [if_pos hfragment]
  view_new _ := rfl
  view_recv b f := by
    change Option.map _ (if overlaps f.part.offset f.part.stop b.pieces = true then _ else _) =
      if overlaps f.part.offset f.part.stop b.pieces = true then _ else _
    split
    case isTrue => rfl
    case isFalse =>
      have hadd : (b.add f.part.offset (!f.part.last) f.header.1 f.header.2 f.part.data).view =
          b.view.add ipv6Policy f := by
        obtain ⟨header, offset, data, last⟩ := f
        rw [Ipv6FragmentBuffer.add, Ipv6FragmentBuffer.view, Gathered.add]
        by_cases hzero : offset = 0
        · subst hzero
          cases last <;> rfl
        · simp only [hzero, if_false]
          cases last <;> rfl
      rw [← hadd]
      generalize b.add f.part.offset (!f.part.last) f.header.1 f.header.2 f.part.data = b'
      obtain ⟨baseHeader, nextHeader, pieces, expectedLen, createdAt⟩ := b'
      rw [Ipv6FragmentBuffer.assemble, Gathered.assemble, Ipv6FragmentBuffer.view]
      cases expectedLen with
      | none => rfl
      | some total =>
      cases baseHeader with
      | none => rfl
      | some baseHeader =>
      cases nextHeader with
      | none => rfl
      | some nextHeader =>
      dsimp only [ipv6Policy, bind_some, map_some]
      cases contiguousEnd 0 (sortByOffset pieces) with
      | none => rfl
      | some cursor =>
      dsimp only
      by_cases heven : cursor = total
      · by_cases hlong : 65535 < total
        · rw [if_pos (Or.inr hlong), if_neg (not_not_intro heven), if_pos hlong]
          rfl
        · rw [if_neg (not_or.mpr ⟨not_not_intro heven, hlong⟩), if_neg (not_not_intro heven),
            if_neg hlong]
          cases copyFromSlice baseHeader 6 [nextHeader] with
          | none => rfl
          | some restored =>
            dsimp only [bind_eq_bind, bind_some]
            cases copyFromSlice restored 4 (be 2 total) <;> rfl
      · rw [if_pos (Or.inl heven), if_pos heven]
        rfl
  createdAt_recv b f outcome b' hrecv := by
    rw [Ipv6FragmentBuffer.receive] at hrecv
    split at hrecv
    case isTrue => cases hrecv
    case isFalse =>
    rw [Ipv6FragmentBuffer.assemble.eq_def] at hrecv
    split at hrecv
    case h_2 =>
      cases hrecv
      rfl
    case h_1 =>
    dsimp only at hrecv
    split at hrecv
    case h_1 =>
      cases hrecv
      rfl
    case h_2 =>
    split at hrecv
    case isTrue =>
      cases hrecv
      rfl
    case isFalse =>
      obtain ⟨header, -, hrecv⟩ := bind_eq_some_iff.mp hrecv
      obtain ⟨header', -, hrecv⟩ := bind_eq_some_iff.mp hrecv
      cases hrecv
  fair packet key f _ := by
    intro _ _ hrefused header restored hrestored
    change (if 65535 < f.part.stop then _ else _) = _ at hrefused
    change (if 65535 < f.part.stop then _ else _) = _ at hrestored
    split at hrefused
    case isTrue hlong =>
      rw [if_pos hlong] at hrestored
      cases hrestored
    case isFalse =>
      obtain ⟨h6, -, hrefused⟩ := bind_eq_some_iff.mp hrefused
      obtain ⟨h4, -, hrefused⟩ := bind_eq_some_iff.mp hrefused
      cases hrefused
  length packet key f total header data hreceived hrestore hlen := by
    obtain ⟨hfragment, -, rfl, rfl⟩ := ipv6Received_eq_some hreceived
    obtain ⟨hversion, hmin, -⟩ := isIpv6Fragment_eq_true hfragment
    subst hlen
    change (if 65535 < data.length then _ else _) = _ at hrestore
    split at hrestore
    case isTrue => cases hrestore
    case isFalse hshort =>
      obtain ⟨h6, hh6, hrestore⟩ := bind_eq_some_iff.mp hrestore
      obtain ⟨h4, hh4, hrestore⟩ := bind_eq_some_iff.mp hrestore
      obtain ⟨-, rfl⟩ := copyFromSlice_eq_some hh6
      obtain ⟨-, rfl⟩ := copyFromSlice_eq_some hh4
      obtain rfl := some.inj (some.inj hrestore)
      have hfirst : (overwrite (packet.take 40) 6 [packet.getD 40 0])[0]? = packet[0]? := by
        rw [getElem?_overwrite_of_not_mem (Or.inl (by decide)), getElem?_take_of_lt (by decide)]
      refine lengthField_ipv6 ((version_congr hfirst).trans hversion) ?_ (not_lt.mp hshort)
      rw [length_overwrite, length_take]
      omega

/-! ## Inbound -/

def inboundPolicy : Policy Bytes where
  walk := coveredEnd
  replaces := true
  unevenOutcome := .buffered
  keepsUneven := true
  keepsRefused := true
  restore := restoreInboundHeader

/-- A fragment from the tunnel: its octets after the header, or after the Fragment Header. -/
def inboundReceived (packet : Bytes) : Option (FragmentKey × Received Bytes) :=
  (inboundFragmentInfo packet).join.map fun info =>
    (inboundKey info,
      ⟨info.baseHeader, ⟨info.offsetBytes, info.payload, !info.moreFragments⟩⟩)

def InboundFragmentBuffer.view (buffer : InboundFragmentBuffer) : Gathered Bytes :=
  ⟨buffer.baseHeader, buffer.pieces, buffer.expectedLen⟩

theorem inbound_sound : inboundPolicy.Sound where
  follows _ _ hsorted hapart h :=
    follows_of_coveredEnd hsorted hapart (fun _ _ => Or.inr (Nat.zero_le _)) h
  covers _ := rfl
  walks _ _ htiles hgot := coveredEnd_sortByOffset htiles hgot
  unforwarded := nofun

theorem inboundReceived_eq_some (h : inboundReceived packet = some (key, f)) :
    ∃ info, inboundFragmentInfo packet = some (some info) ∧ key = inboundKey info ∧
      f = ⟨info.baseHeader, ⟨info.offsetBytes, info.payload, !info.moreFragments⟩⟩ := by
  obtain ⟨info, hinfo, h⟩ := map_eq_some_iff.mp h
  cases h
  exact ⟨info, join_eq_some_iff.mp hinfo, rfl, rfl⟩

/-- What is known of the header of a fragment: that of an IPv4 packet is as long as it says, and the
fragment no whole packet; that of an IPv6 packet has forty octets. -/
theorem inboundFragmentInfo_header {info : InboundFragmentInfo}
    (h : inboundFragmentInfo packet = some (some info)) :
    (version info.baseHeader = some 4 → headerLen info.baseHeader = info.baseHeader.length) ∧
      (info.moreFragments = false → info.offsetBytes = 0 → version info.baseHeader = some 6) ∧
      (version info.baseHeader = some 6 → info.baseHeader.length = 40) := by
  rw [inboundFragmentInfo] at h
  split at h
  case isTrue hversion =>
    split at h
    case isTrue => cases h
    case isFalse hmin =>
    dsimp only at h
    split at h
    case isTrue => cases h
    case isFalse hcut =>
    obtain ⟨base, hbase, h⟩ := bind_eq_some_iff.mp h
    obtain ⟨payload, -, h⟩ := bind_eq_some_iff.mp h
    cases h
    dsimp only
    rw [getRange] at hbase
    split at hbase
    case isFalse => cases hbase
    case isTrue hle =>
    obtain rfl := some.inj hbase
    rw [drop_zero, Nat.sub_zero]
    rcases Nat.eq_zero_or_pos (headerLen packet) with hnil | hpos
    · -- a header that says it has no octets has no version
      rw [hnil, take_zero]
      exact ⟨fun h4 => absurd h4 (by decide), fun hmore hzero => absurd ⟨hmore, hzero⟩ hcut,
        fun h6 => absurd h6 (by decide)⟩
    · have hfirst : (packet.take (headerLen packet))[0]? = packet[0]? :=
        getElem?_take_of_lt hpos
      refine ⟨fun _ => ?_, fun hmore hzero => absurd ⟨hmore, hzero⟩ hcut, fun h6 => ?_⟩
      · rw [headerLen_congr hfirst, length_take, min_eq_left hle.2]
      · rw [version_congr hfirst, hversion] at h6
        exact absurd h6 (by decide)
  case isFalse =>
  split at h
  case isFalse => cases h
  case isTrue hversion =>
  split at h
  case isTrue => cases h
  case isFalse hvalid =>
    cases h
    have hfirst : (overwrite (packet.take 40) 6 [packet.getD 40 0])[0]? = packet[0]? := by
      rw [getElem?_overwrite_of_not_mem (Or.inl (by decide)), getElem?_take_of_lt (by decide)]
    have hsix := (version_congr hfirst).trans hversion
    refine ⟨fun h4 => absurd (hsix.symm.trans h4) (by decide), fun _ _ => hsix, fun _ => ?_⟩
    rw [length_overwrite, length_take]
    omega

theorem inbound_refines :
    inbound.Refines inboundPolicy inboundReceived .new InboundFragmentBuffer.view
      fun b f => b.receive ⟨.v4 0 0 0 0, .v4 0 0 0 0, 0, f.part.offset, !f.part.last, f.header,
        f.part.data⟩ where
  sound := inbound_sound
  accepted now packet buffers key f hreceived := by
    obtain ⟨info, hinfo, rfl, rfl⟩ := inboundReceived_eq_some hreceived
    change reassembleInboundIpFragment now packet buffers = _
    rw [reassembleInboundIpFragment, hinfo, Bool.not_not, map_eq_bind]
    rfl
  refused now packet buffers outcome buffers' hreceived hreceive := by
    change (outcome = .dropped ∨ (inboundFragmentInfo packet).join.map inboundKey = none ∧ _) ∧ _
    obtain ⟨info, hinfo, hreceive⟩ := bind_eq_some_iff.mp hreceive
    cases info with
    | none =>
      cases hreceive
      rw [hinfo]
      exact ⟨Or.inr ⟨rfl, rfl⟩, Or.inl rfl⟩
    | some info =>
      rw [inboundReceived, hinfo] at hreceived
      cases hreceived
  keyOf packet key f hreceived := by
    obtain ⟨info, hinfo, rfl, -⟩ := inboundReceived_eq_some hreceived
    change (inboundFragmentInfo packet).join.map inboundKey = _
    rw [hinfo]
    rfl
  view_new _ := rfl
  view_recv b f := by
    change Option.map _ (if overlaps f.part.offset f.part.stop b.pieces = true then _ else _) =
      if overlaps f.part.offset f.part.stop b.pieces = true then _ else _
    split
    case isTrue => rfl
    case isFalse =>
      have hadd : (b.add ⟨.v4 0 0 0 0, .v4 0 0 0 0, 0, f.part.offset, !f.part.last, f.header,
          f.part.data⟩).view = b.view.add inboundPolicy f := by
        rw [InboundFragmentBuffer.add, InboundFragmentBuffer.view, Gathered.add]
        dsimp only [inboundPolicy]
        simp only [Bool.true_and, decide_eq_true_eq]
        cases f.part.last <;> rfl
      rw [← hadd]
      generalize b.add ⟨.v4 0 0 0 0, .v4 0 0 0 0, 0, f.part.offset, !f.part.last, f.header,
        f.part.data⟩ = b'
      obtain ⟨header, pieces, expectedLen, createdAt⟩ := b'
      rw [InboundFragmentBuffer.assemble, Gathered.assemble, InboundFragmentBuffer.view]
      cases expectedLen with
      | none => rfl
      | some total =>
      cases header with
      | none => rfl
      | some header =>
      dsimp only [inboundPolicy]
      cases coveredEnd 0 (sortByOffset pieces) with
      | none => rfl
      | some cursor =>
      dsimp only
      by_cases heven : cursor = total
      · rw [if_neg (by simp [heven]), if_neg (not_not_intro heven)]
        cases restoreInboundHeader header total with
        | none => rfl
        | some restored => cases restored <;> rfl
      · rw [if_pos (by simpa using heven), if_pos heven]
        rfl
  createdAt_recv b f outcome b' hrecv := by
    rw [InboundFragmentBuffer.receive] at hrecv
    split at hrecv
    case isTrue => cases hrecv
    case isFalse =>
    rw [InboundFragmentBuffer.assemble.eq_def] at hrecv
    split at hrecv
    case h_2 =>
      cases hrecv
      rfl
    case h_1 =>
    dsimp only at hrecv
    split at hrecv
    case isTrue =>
      cases hrecv
      rfl
    case isFalse =>
      obtain ⟨header, -, hrecv⟩ := bind_eq_some_iff.mp hrecv
      cases header with
      | none =>
        cases hrecv
        rfl
      | some header => cases hrecv
  fair packet key f hreceived := by
    obtain ⟨info, hinfo, rfl, rfl⟩ := inboundReceived_eq_some hreceived
    intro hlast hzero hrefused header restored hrestored
    -- only an IPv6 fragment can be a whole packet
    have hversion := (inboundFragmentInfo_header hinfo).2.1 (by simpa using hlast) hzero
    change restoreInboundHeader info.baseHeader (info.offsetBytes + info.payload.length) =
      _ at hrefused
    change restoreInboundHeader header (info.offsetBytes + info.payload.length) = _ at hrestored
    rw [restoreInboundHeader, hversion, if_neg (by decide), if_pos rfl] at hrefused
    split at hrefused
    case isFalse =>
      obtain ⟨h4, -, heq⟩ := map_eq_some_iff.mp hrefused
      cases heq
    case isTrue hlong =>
      rw [restoreInboundHeader] at hrestored
      rw [if_pos hlong, if_pos (Nat.lt_add_left _ hlong)] at hrestored
      split at hrestored
      case isTrue => cases hrestored
      case isFalse => split at hrestored <;> cases hrestored
  length packet key f total header data hreceived hrestore hlen := by
    obtain ⟨info, hinfo, rfl, rfl⟩ := inboundReceived_eq_some hreceived
    obtain ⟨hfour, -, hsix⟩ := inboundFragmentInfo_header hinfo
    subst hlen
    change restoreInboundHeader info.baseHeader _ = _ at hrestore
    rw [restoreInboundHeader] at hrestore
    dsimp only at hrestore
    split at hrestore
    case isTrue hversion =>
      rw [hfour hversion] at hrestore
      split at hrestore
      case isTrue => cases hrestore
      case isFalse hshort =>
        obtain ⟨restored, hrestored, heq⟩ := map_eq_some_iff.mp hrestore
        obtain rfl := some.inj heq
        exact lengthField_ipv4 hversion (not_lt.mp hshort) hrestored
    case isFalse =>
    split at hrestore
    case isFalse => cases hrestore
    case isTrue hversion =>
    split at hrestore
    case isTrue => cases hrestore
    case isFalse hshort =>
      obtain ⟨restored, hrestored, heq⟩ := map_eq_some_iff.mp hrestore
      obtain rfl := some.inj heq
      obtain ⟨-, rfl⟩ := copyFromSlice_eq_some hrestored
      exact lengthField_ipv6 hversion (hsix hversion) (not_lt.mp hshort)

end SimMaster.TunGateway
