import SimMaster.HeaderChecksums
import SimMaster.ImsEspOutbound

/-!
# The checksums of the packets the gateway writes

A header checksum that the gateway writes verifies, also that of a packet it protects. The UDP
checksum of such a packet has its octets exchanged on its way to the wire: it is turned big-endian
as a number and then written as big-endian octets. It verifies, and is not zero, only if the sum it
complements has two equal octets and is not `0xffff` (`imsChecksums_verify_iff`).
-/

namespace SimMaster.TunGateway

open Rust Reassembly Machine Method List Except

/-! ## What verifies -/

/-- What an IP packet carries. -/
def ipPayload (packet : Bytes) : Bytes :=
  packet.drop (if version packet = some 4 then headerLen packet else 40)

/-- The pseudo-header of a UDP datagram: the addresses of its packet, the protocol and its
length. -/
def pseudoHeader (packet : Bytes) (udpLen : ℕ) : Bytes :=
  if version packet = some 4 then
    slice packet 12 16 ++ slice packet 16 20 ++ [0, 17] ++ be 2 udpLen
  else slice packet 8 24 ++ slice packet 24 40 ++ be 4 udpLen ++ [0, 0, 0, 17]

/-- A packet carries a UDP datagram with a checksum that is transmitted and verifies. -/
structure UdpVerifies (packet : Bytes) : Prop where
  sum : onesComplementSum
    (pseudoHeader packet (ipPayload packet).length ++ ipPayload packet) = 0xffff
  transmitted : slice (ipPayload packet) 6 8 ≠ [0, 0]

/-- The sum that the UDP checksum of a packet complements: over the pseudo-header and the datagram
of the flow, with zeros for the checksum. -/
def datagramSum (c : Ciphers) (random : Option Iv) (packet : Bytes) (flow : ImsEspRuntimeFlow)
    (nextHeader : UInt8) : Except TunGatewayError ℕ := do
  let parsed ← ParsedIpPacket.parse packet
  let (esp, _) ← (protectInnerPacketForEspWithMode c random flow.outboundSaIdentifier
    flow.nextOutboundSequence (parsed.payload packet) nextHeader flow.secrets
    flow.icvIncludeIv).mapError fun _ => "ims_esp_protect_failed"
  return onesComplementSum (pseudoHeader packet (8 + esp.length) ++ clearedDatagram flow esp)

/-! ## Addresses -/

theorem be_toNat_ofNat16 {bytes : Bytes} (h : bytes.length = 2) :
    be 2 (UInt16.ofNat (fromBe bytes)).toNat = bytes := by
  have hlt := fromBe_lt bytes
  rw [h] at hlt
  have hvalue : (UInt16.ofNat (fromBe bytes)).toNat = fromBe bytes := UInt16.toNat_ofNat_of_lt' hlt
  have hbe := be_fromBe bytes
  rw [h] at hbe
  rw [hvalue, hbe]

variable {octets : Bytes}

theorem ipOctets_ipv4Addr (h : octets.length = 4) : ipOctets (ipv4Addr octets) = octets := by
  obtain ⟨a, b, c, d, rfl⟩ : ∃ a b c d, octets = [a, b, c, d] := length_eq_four.mp h
  rfl

/-- Pairs of octets, put together again. -/
theorem flatten_pairs {n : ℕ} (h : octets.length = 2 * n) :
    (ofFn fun i : Fin n => slice octets (2 * i) (2 * i + 2)).flatten = octets := by
  induction n generalizing octets with
  | zero =>
    rw [ofFn_zero, flatten_nil, length_eq_zero_iff.mp h]
  | succ n ih =>
    have hdrop : (octets.drop 2).length = 2 * n := by
      rw [length_drop]
      omega
    have hshift : ∀ i : Fin n, slice octets (2 * (i.succ : ℕ)) (2 * (i.succ : ℕ) + 2) =
        slice (octets.drop 2) (2 * i) (2 * i + 2) := fun i => by
      rw [slice, slice, drop_drop, Fin.val_succ]
      congr 1
      · omega
      · congr 1
        omega
    rw [ofFn_succ, flatten_cons]
    simp only [hshift]
    rw [ih hdrop]
    exact take_append_drop 2 octets

theorem ipOctets_ipv6Addr (h : octets.length = 16) : ipOctets (ipv6Addr octets) = octets := by
  have hgroup : ∀ i : Fin 8, be 2 (UInt16.ofNat
      (fromBe (slice octets (2 * (i : ℕ)) (2 * (i : ℕ) + 2)))).toNat =
      slice octets (2 * i) (2 * i + 2) := fun i =>
    be_toNat_ofNat16 (by rw [length_slice (by omega)]; omega)
  rw [ipv6Addr, ipOctets, Vector.toList_ofFn, flatMap_def, map_ofFn]
  simp only [Function.comp_def, hgroup]
  exact flatten_pairs h

/-! ## Reading a packet -/

/-- What `ParsedIpPacket.parse` says of a packet. -/
inductive Parsed (packet : Bytes) (parsed : ParsedIpPacket) : Prop where
  | v4 (version : version packet = some 4) (min : 20 ≤ headerLen packet)
      (fits : headerLen packet ≤ packet.length) (kind : parsed.version = 4)
      (header : parsed.headerLen = headerLen packet)
      (src : parsed.src = ipv4Addr (slice packet 12 16))
      (dst : parsed.dst = ipv4Addr (slice packet 16 20))
  | v6 (version : version packet = some 6) (fits : 40 ≤ packet.length) (kind : parsed.version = 6)
      (src : parsed.src = ipv6Addr (slice packet 8 24))
      (dst : parsed.dst = ipv6Addr (slice packet 24 40))

variable {parsed : ParsedIpPacket} {packet : Bytes}

theorem parsed_of_parse (h : ParsedIpPacket.parse packet = .ok parsed) : Parsed packet parsed := by
  rw [ParsedIpPacket.parse] at h
  split at h
  · next hversion =>
    rw [ParsedIpPacket.parseV4] at h
    by_cases hlen : packet.length < 20
    · rw [if_pos hlen] at h
      exact nomatch h
    rw [if_neg hlen] at h
    by_cases hihl : headerLen packet < 20 ∨ packet.length < headerLen packet
    · dsimp only at h
      rw [if_pos hihl] at h
      exact nomatch h
    dsimp only at h
    rw [if_neg hihl] at h
    split at h
    · exact nomatch h
    · obtain rfl := ok.inj h
      exact .v4 hversion (by omega) (by omega) rfl rfl rfl rfl
  · split at h
    · next hversion =>
      rw [ParsedIpPacket.parseV6] at h
      by_cases hlen : packet.length < 40
      · rw [if_pos hlen] at h
        exact nomatch h
      rw [if_neg hlen] at h
      dsimp only at h
      split at h
      · exact nomatch h
      · obtain rfl := ok.inj h
        exact .v6 hversion (by omega) rfl rfl rfl
    · exact nomatch h

/-! ## Writing a packet -/

/-- A packet with the header rewritten: its first octet and its addresses are as they were. -/
structure Rewritten (packet header : Bytes) : Prop where
  first : header[0]? = packet[0]?
  /-- the header is as long as it says, or as an IPv6 header is -/
  length : header.length = if version packet = some 4 then headerLen packet else 40
  v4 : version packet = some 4 → 20 ≤ header.length ∧ slice header 12 16 = slice packet 12 16 ∧
    slice header 16 20 = slice packet 16 20
  v6 : version packet ≠ some 4 → slice header 8 24 = slice packet 8 24 ∧
    slice header 24 40 = slice packet 24 40
  checksum : version packet = some 4 → onesComplementSum header = 0xffff

section

variable {packet header : Bytes} (h : Rewritten packet header) (payload : Bytes)

include h

theorem Rewritten.getElem?_zero : (header ++ payload)[0]? = packet[0]? := by
  have hpos : 0 < header.length := by
    by_cases hversion : version packet = some 4
    · have hmin := (h.v4 hversion).1
      omega
    · rw [h.length, if_neg hversion]
      decide
  rw [getElem?_append_left hpos, h.first]

theorem Rewritten.ipPayload_append : ipPayload (header ++ payload) = payload := by
  rw [ipPayload, version_congr (h.getElem?_zero payload), headerLen_congr (h.getElem?_zero payload),
    ← h.length, drop_left]

theorem Rewritten.pseudoHeader_append (udpLen : ℕ) :
    pseudoHeader (header ++ payload) udpLen = pseudoHeader packet udpLen := by
  rw [pseudoHeader, pseudoHeader, version_congr (h.getElem?_zero payload)]
  by_cases hversion : version packet = some 4
  · obtain ⟨hmin, hsrc, hdst⟩ := h.v4 hversion
    rw [if_pos hversion, if_pos hversion, slice_append_left (by omega),
      slice_append_left (by omega), hsrc, hdst]
  · obtain ⟨hsrc, hdst⟩ := h.v6 hversion
    have hlen : header.length = 40 := by rw [h.length, if_neg hversion]
    rw [if_neg hversion, if_neg hversion, slice_append_left (by omega),
      slice_append_left (by omega), hsrc, hdst]

theorem Rewritten.headerVerifies : HeaderVerifies (header ++ payload) := by
  intro hversion
  rw [version_congr (h.getElem?_zero payload)] at hversion
  have hlen : header.length = headerLen packet := by rw [h.length, if_pos hversion]
  rw [headerLen_congr (h.getElem?_zero payload), ← hlen, take_left]
  exact h.checksum hversion

end

variable {nextHeader : UInt8} {out payload : Bytes}

theorem rewritten_of_rebuildV4 (hversion : version packet = some 4) (hmin : 20 ≤ headerLen packet)
    (hfits : headerLen packet ≤ packet.length) (hheader : parsed.headerLen = headerLen packet)
    (hout : parsed.rebuildV4 packet nextHeader payload = .ok out) :
    ∃ header, Rewritten packet header ∧ out = header ++ payload := by
  rw [ParsedIpPacket.rebuildV4] at hout
  split at hout
  · exact nomatch hout
  let written := overwrite (overwrite (packet.take parsed.headerLen) 2
    (be 2 (parsed.headerLen + payload.length))) 9 [nextHeader]
  have hlen : written.length = headerLen packet := by
    rw [length_overwrite, length_overwrite, hheader, length_take_of_le hfits]
  have hkept : ∀ {i j}, 12 ≤ i → j ≤ 20 → slice (withChecksum written) i j = slice packet i j := by
    intro i j hi hj
    have hfit : 2 + (be 2 (parsed.headerLen + payload.length)).length ≤ i := by
      rw [length_be]
      omega
    have hfit' : 9 + [nextHeader].length ≤ i := by
      rw [length_singleton]
      omega
    rw [slice_withChecksum (Or.inr hi), slice_overwrite_of_disjoint (Or.inr hfit'),
      slice_overwrite_of_disjoint (Or.inr hfit), slice_take (by omega)]
  have hfirst : (withChecksum written)[0]? = packet[0]? := by
    rw [withChecksum_eq, getElem?_overwrite_of_not_mem (by omega),
      getElem?_overwrite_of_not_mem (by omega), getElem?_overwrite_of_not_mem (by omega),
      getElem?_overwrite_of_not_mem (by omega), getElem?_take_of_lt (by omega)]
  refine ⟨withChecksum written, ⟨hfirst, ?_, fun _ => ⟨?_, hkept (by omega) (by omega),
    hkept (by omega) (by omega)⟩, fun hno => absurd hversion hno, fun _ => ?_⟩,
    (ok.inj hout).symm⟩
  · rw [length_withChecksum, hlen, if_pos hversion]
  · rw [length_withChecksum, hlen]
    exact hmin
  · exact onesComplementSum_withChecksum (by omega) (by omega)

theorem rewritten_of_rebuildV6 (hversion : version packet = some 6) (hfits : 40 ≤ packet.length)
    (hout : ParsedIpPacket.rebuildV6 packet nextHeader payload = .ok out) :
    ∃ header, Rewritten packet header ∧ out = header ++ payload := by
  have hother : version packet ≠ some 4 := by
    rw [hversion]
    decide
  rw [ParsedIpPacket.rebuildV6] at hout
  split at hout
  · exact nomatch hout
  have hkept : ∀ {i j}, 8 ≤ i → j ≤ 40 →
      slice (overwrite (overwrite (packet.take 40) 4 (be 2 payload.length)) 6 [nextHeader]) i j =
        slice packet i j := by
    intro i j hi hj
    have hfit : 4 + (be 2 payload.length).length ≤ i := by
      rw [length_be]
      omega
    have hfit' : 6 + [nextHeader].length ≤ i := by
      rw [length_singleton]
      omega
    rw [slice_overwrite_of_disjoint (Or.inr hfit'), slice_overwrite_of_disjoint (Or.inr hfit),
      slice_take hj]
  refine ⟨_, ⟨?_, ?_, fun hyes => absurd hyes hother, fun _ => ⟨hkept (by omega) (by omega),
    hkept (by omega) (by omega)⟩, fun hyes => absurd hyes hother⟩, (ok.inj hout).symm⟩
  · rw [getElem?_overwrite_of_not_mem (by omega), getElem?_overwrite_of_not_mem (by omega),
      getElem?_take_of_lt (by omega)]
  · rw [length_overwrite, length_overwrite, length_take_of_le hfits, if_neg hother]

/-- The header that is written around a payload. -/
theorem rewritten_of_rebuild (hparse : Parsed packet parsed)
    (hout : parsed.rebuildWithPayload packet nextHeader payload = .ok out) :
    ∃ header, Rewritten packet header ∧ out = header ++ payload := by
  rw [ParsedIpPacket.rebuildWithPayload] at hout
  cases hparse with
  | v4 hversion hmin hfits hkind hheader =>
    rw [if_pos hkind] at hout
    exact rewritten_of_rebuildV4 hversion hmin hfits hheader hout
  | v6 hversion hfits hkind =>
    rw [hkind, if_neg (by decide), if_pos rfl] at hout
    exact rewritten_of_rebuildV6 hversion hfits hout

/-! ## The UDP checksum -/

variable {sum : ℕ}

theorem accumulate_eq {data : Bytes} (h : sum + wordsSum data < 2 ^ 32) :
    accumulate sum data = sum + wordsSum data :=
  foldl_wrapping h

theorem foldl_accumulate {parts : List Bytes} (h : sum + (parts.map wordsSum).sum < 2 ^ 32) :
    parts.foldl accumulate sum = sum + (parts.map wordsSum).sum := by
  induction parts generalizing sum with
  | nil => rfl
  | cons part parts ih =>
    rw [map_cons, sum_cons, ← Nat.add_assoc] at h
    rw [foldl_cons, accumulate_eq (by omega), ih h, map_cons, sum_cons, Nat.add_assoc]

/-- The pseudo-header has whole words. -/
theorem two_dvd_length_pseudoHeader
    (h : Parsed packet parsed) (udpLen : ℕ) : 2 ∣ (pseudoHeader packet udpLen).length := by
  cases h with
  | v4 hversion hmin hfits =>
    rw [pseudoHeader, if_pos hversion]
    simp only [length_append, length_be, length_cons, length_nil]
    rw [length_slice (by omega), length_slice (by omega)]
    decide
  | v6 hversion hfits =>
    rw [pseudoHeader, hversion, if_neg (by decide)]
    simp only [length_append, length_be, length_cons, length_nil]
    rw [length_slice (by omega), length_slice (by omega)]
    decide

/-- The words of the pseudo-header are those that `udpChecksum` sums up. -/
theorem sum_pseudoHeaderParts (h : Parsed packet parsed)
    (udpLen : ℕ) : ((pseudoHeaderParts parsed.src parsed.dst udpLen).map wordsSum).sum =
      wordsSum (pseudoHeader packet udpLen) := by
  have hzeros : wordsSum [0, 0, 0, 0, 0, 0, 0, 17] = wordsSum [0, 0, 0, 17] := rfl
  cases h with
  | v4 hversion hmin hfits hkind hheader hsrc hdst =>
    have hsrc4 : (slice packet 12 16).length = 4 := length_slice (by omega)
    have hdst4 : (slice packet 16 20).length = 4 := length_slice (by omega)
    have hparts : pseudoHeaderParts parsed.src parsed.dst udpLen =
        [slice packet 12 16, slice packet 16 20, [0, 17], be 2 udpLen] := by
      rw [← ipOctets_ipv4Addr hsrc4, ← ipOctets_ipv4Addr hdst4, hsrc, hdst]
      rfl
    rw [hparts, pseudoHeader, if_pos hversion]
    simp only [append_assoc]
    rw [wordsSum_append (by rw [hsrc4]; decide), wordsSum_append (by rw [hdst4]; decide),
      wordsSum_append (by decide)]
    simp only [map_cons, map_nil, sum_cons, sum_nil, Nat.add_zero]
  | v6 hversion hfits hkind hsrc hdst =>
    have hsrc16 : (slice packet 8 24).length = 16 := length_slice (by omega)
    have hdst16 : (slice packet 24 40).length = 16 := length_slice (by omega)
    have hparts : pseudoHeaderParts parsed.src parsed.dst udpLen =
        [slice packet 8 24, slice packet 24 40, be 4 udpLen, [0, 0, 0, 0, 0, 0, 0, 17]] := by
      rw [← ipOctets_ipv6Addr hsrc16, ← ipOctets_ipv6Addr hdst16, hsrc, hdst]
      rfl
    rw [hparts, pseudoHeader, hversion, if_neg (by decide)]
    simp only [append_assoc]
    rw [wordsSum_append (by rw [hsrc16]; decide), wordsSum_append (by rw [hdst16]; decide),
      wordsSum_append (by rw [length_be]; decide)]
    simp only [map_cons, map_nil, sum_cons, sum_nil, Nat.add_zero, hzeros]

/-- **The checksum as it is written.** -/
theorem udpChecksum_eq (h : Parsed packet parsed)
    {datagram : Bytes} (hlen : datagram.length ≤ 65535) :
    udpChecksum parsed.src parsed.dst datagram = swapOctets (65535 -
      onesComplementSum (pseudoHeader packet datagram.length ++ datagram)) := by
  have hwords := wordsSum_le datagram
  have hpseudo := wordsSum_le (pseudoHeader packet datagram.length)
  have hshort : (pseudoHeader packet datagram.length).length ≤ 40 := by
    rw [pseudoHeader]
    split <;> simp only [length_append, length_be, length_cons, length_nil, slice,
      length_take] <;> omega
  have hsum := sum_pseudoHeaderParts h datagram.length
  rw [udpChecksum, toBe, foldl_accumulate (by omega), Nat.zero_add, hsum,
    accumulate_eq (by omega), onesComplementSum, wordsSum_append (two_dvd_length_pseudoHeader h _)]

theorem swapOctets_eq_zero_iff {v : ℕ} : swapOctets v = 0 ↔ v = 0 := by
  rw [swapOctets]
  omega

theorem length_clearedDatagram (flow : ImsEspRuntimeFlow) (esp : Bytes) :
    (clearedDatagram flow esp).length = 8 + esp.length := by
  rw [clearedDatagram]
  simp only [length_append, length_be, length_cons, length_nil]

/-- The datagram is six octets, the checksum and the ESP frame. -/
theorem clearedDatagram_split (flow : ImsEspRuntimeFlow) (esp : Bytes) :
    ∃ front, front.length = 6 ∧ clearedDatagram flow esp = front ++ ([0, 0] ++ esp) ∧
      ∀ checksum, overwrite (clearedDatagram flow esp) 6 (be 2 checksum) =
        front ++ (be 2 checksum ++ esp) := by
  refine ⟨be 2 flow.localPort.toNat ++ be 2 flow.remotePort.toNat ++ be 2 (8 + esp.length),
    by simp only [length_append, length_be], append_assoc _ _ _, fun checksum => ?_⟩
  have hlen := length_clearedDatagram flow esp
  rw [overwrite_eq_append (by rw [length_be]; omega), length_be]
  rfl

variable {flow : ImsEspRuntimeFlow}

/-- A datagram in a packet whose header was rewritten around it. -/
theorem udpVerifies_iff (hparse : Parsed packet parsed) {header : Bytes}
    (hheader : Rewritten packet header) {esp : Bytes} (hfits : 8 + esp.length ≤ 65535)
    (hsum : sum = onesComplementSum (pseudoHeader packet (8 + esp.length) ++
      clearedDatagram flow esp)) :
    UdpVerifies (header ++ overwrite (clearedDatagram flow esp) 6
        (be 2 (udpChecksum parsed.src parsed.dst (clearedDatagram flow esp)))) ↔
      sum / 256 = sum % 256 ∧ sum ≠ 0xffff := by
  have hlen := length_clearedDatagram flow esp
  have hchecksum := udpChecksum_eq hparse (hlen ▸ hfits)
  rw [hlen, ← hsum] at hchecksum
  have hle : sum ≤ 65535 := hsum ▸ foldCarries_le _
  obtain ⟨front, hfront, hcleared, hwritten⟩ := clearedDatagram_split flow esp
  have heven : 2 ∣ (pseudoHeader packet (8 + esp.length) ++ front).length := by
    have hpseudo := two_dvd_length_pseudoHeader hparse (8 + esp.length)
    rw [length_append, hfront]
    omega
  rw [hcleared, ← append_assoc] at hsum
  have hswapped := onesComplementSum_swapped_iff heven esp hsum
  have hlength : (front ++ (be 2 (swapOctets (65535 - sum)) ++ esp)).length = 8 + esp.length := by
    rw [length_append, length_append, hfront, length_be]
    omega
  have hfield : slice (front ++ (be 2 (swapOctets (65535 - sum)) ++ esp)) 6 8 =
      be 2 (swapOctets (65535 - sum)) := by
    have hright := slice_append_right front (be 2 (swapOctets (65535 - sum)) ++ esp) 0 2
    rw [hfront] at hright
    rw [hright, slice_append_left (by rw [length_be]), slice, drop_zero]
    exact take_of_length_le (by rw [length_be])
  have htransmitted : be 2 (swapOctets (65535 - sum)) ≠ [0, 0] ↔ sum ≠ 0xffff := by
    have hvalue : fromBe (be 2 (swapOctets (65535 - sum))) = swapOctets (65535 - sum) :=
      fromBe_be (by rw [swapOctets]; omega)
    refine not_congr ⟨fun hzero => ?_, fun hmax => ?_⟩
    · rw [hzero] at hvalue
      have hswap := swapOctets_eq_zero_iff.mp hvalue.symm
      omega
    · rw [hmax]
      rfl
  rw [hchecksum, hwritten]
  constructor
  · rintro ⟨hverifies, hsent⟩
    rw [hheader.ipPayload_append, hheader.pseudoHeader_append, hlength, ← append_assoc] at hverifies
    rw [hheader.ipPayload_append, hfield] at hsent
    exact ⟨hswapped.mp hverifies, htransmitted.mp hsent⟩
  · rintro ⟨hequal, hmax⟩
    refine ⟨?_, ?_⟩
    · rw [hheader.ipPayload_append, hheader.pseudoHeader_append, hlength, ← append_assoc]
      exact hswapped.mpr hequal
    · rw [hheader.ipPayload_append, hfield]
      exact htransmitted.mpr hmax

/-! ## A protected packet -/

variable {ε : Type}

theorem call_set_bind {σ β : Type} (s s' : σ) (f : PUnit → Method σ ε β) :
    call ((set s' : Method σ ε PUnit) >>= f) s = call (f PUnit.unit) s' := rfl

theorem mapError_eq_ok {ε' α : Type} {x : Except ε α} {f : ε → ε'} {a : α} :
    x.mapError f = .ok a ↔ x = .ok a := by
  cases x with
  | error e => exact iff_of_false nofun nofun
  | ok b =>
    exact ⟨fun h => congrArg ok (ok.inj h),
      fun h => congrArg ok (ok.inj h)⟩

/-- What was sent of a packet of a flow: its headers around the datagram of an ESP frame. -/
theorem sent_of_protect {c : Ciphers} {random : Option Iv}
    {policy : ImsEspRuntimePolicy} {matched : ImsOutboundFlowMatch}
    {state : Option ImsEspRuntimePolicy}
    (hmatch : imsOutboundFlowIndex packet policy = some matched)
    (hflow : policy.flows[matched.flowIndex]? = some flow) (hudp : flow.udpEncapsulate = true)
    (hout : call (protectImsEspOutboundIfNeeded c random packet) (some policy) = (.ok out, state)) :
    ∃ parsed header esp summary, Parsed packet parsed ∧ ParsedIpPacket.parse packet = .ok parsed ∧
      protectInnerPacketForEspWithMode c random flow.outboundSaIdentifier flow.nextOutboundSequence
        (parsed.payload packet) matched.nextHeader flow.secrets flow.icvIncludeIv =
          .ok (esp, summary) ∧ 8 + esp.length ≤ 65535 ∧ Rewritten packet header ∧
      out = header ++ overwrite (clearedDatagram flow esp) 6
        (be 2 (udpChecksum parsed.src parsed.dst (clearedDatagram flow esp))) := by
  have hcall : call (protectFlowPacket c random packet policy matched flow) (some policy) =
      (.ok out, state) := by
    rw [protectImsEspOutboundIfNeeded, call_get_bind] at hout
    dsimp only at hout
    rw [hmatch] at hout
    dsimp only at hout
    rw [hflow] at hout
    exact hout
  obtain ⟨⟨sequence, allocated⟩, hallocate, hcall⟩ := call_lift_bind_eq_ok hcall
  obtain rfl : flow.nextOutboundSequence = sequence := by
    rw [ImsEspRuntimeFlow.allocateOutboundSequence] at hallocate
    split at hallocate
    · exact nomatch hallocate
    · exact (Prod.mk.inj (ok.inj hallocate)).1
  rw [call_set_bind] at hcall
  obtain ⟨parsed, hparse, hcall⟩ := call_lift_bind_eq_ok hcall
  obtain ⟨⟨esp, summary⟩, hesp, hcall⟩ := call_lift_bind_eq_ok hcall
  have hwrapped : wrapEspFrame flow parsed packet esp = .ok out := congrArg Prod.fst hcall
  rw [wrapEspFrame, if_pos hudp] at hwrapped
  split at hwrapped
  · exact nomatch hwrapped
  · next hfits =>
    have hparsed := parsed_of_parse hparse
    obtain ⟨header, hheader, hwritten⟩ := rewritten_of_rebuild hparsed hwrapped
    exact ⟨parsed, header, esp, summary, hparsed, hparse, mapError_eq_ok.mp hesp, not_lt.mp hfits,
      hheader, hwritten⟩

/-- A protected packet verifies just when the sum it complements has two equal octets and is not
`0xffff`. -/
theorem protected_verifies_iff {c : Ciphers} {random : Option Iv} {packet : Bytes}
    {policy : ImsEspRuntimePolicy} {matched : ImsOutboundFlowMatch} {flow : ImsEspRuntimeFlow}
    {out : Bytes} {state : Option ImsEspRuntimePolicy}
    (hmatch : imsOutboundFlowIndex packet policy = some matched)
    (hflow : policy.flows[matched.flowIndex]? = some flow) (hudp : flow.udpEncapsulate = true)
    (hout : call (protectImsEspOutboundIfNeeded c random packet) (some policy) = (.ok out, state)) :
    (UdpVerifies out ↔ ∃ sum, datagramSum c random packet flow matched.nextHeader = .ok sum ∧
      sum / 256 = sum % 256 ∧ sum ≠ 0xffff) ∧ HeaderVerifies out := by
  obtain ⟨parsed, header, esp, summary, hparsed, hparse, hesp, hfits, hheader, rfl⟩ :=
    sent_of_protect hmatch hflow hudp hout
  have hsum : datagramSum c random packet flow matched.nextHeader = .ok (onesComplementSum
      (pseudoHeader packet (8 + esp.length) ++ clearedDatagram flow esp)) := by
    rw [datagramSum, hparse, ok_bind, hesp]
    rfl
  refine ⟨(udpVerifies_iff hparsed hheader hfits rfl).trans ⟨fun h => ⟨_, hsum, h⟩, ?_⟩,
    hheader.headerVerifies _⟩
  rintro ⟨sum, hother, h⟩
  obtain rfl := ok.inj (hsum.symm.trans hother)
  exact h

/-- **Checksums.** The UDP checksum of a protected packet verifies and is transmitted if and only if
the sum it complements has two equal octets and is not `0xffff`; the header checksum always
verifies, and so do those of fragments and of reassembled packets, over every run. -/
theorem imsChecksums_verify_iff {c : Ciphers} {random : Option Iv} {packet : Bytes}
    {policy : ImsEspRuntimePolicy} {matched : ImsOutboundFlowMatch} {flow : ImsEspRuntimeFlow}
    {out : Bytes} {state : Option ImsEspRuntimePolicy}
    (hmatch : imsOutboundFlowIndex packet policy = some matched)
    (hflow : policy.flows[matched.flowIndex]? = some flow) (hudp : flow.udpEncapsulate = true)
    (hout : call (protectImsEspOutboundIfNeeded c random packet) (some policy) = (.ok out, state)) :
    (UdpVerifies out ↔ ∃ sum, datagramSum c random packet flow matched.nextHeader = .ok sum ∧
      sum / 256 = sum % 256 ∧ sum ≠ 0xffff) ∧ HeaderVerifies out ∧
    (∀ whole maxIpBytes identification,
      ∀ part ∈ fragmentInnerPacket whole maxIpBytes identification,
        part = whole ∨ HeaderVerifies part) ∧
    (∀ arrivals, ∀ answer ∈ trace outboundIpv4.step ∅ arrivals, ∀ whole,
      answer.2 = some (.forward whole) → whole = answer.1.packet ∨ HeaderVerifies whole) ∧
    (∀ arrivals, ∀ answer ∈ trace inbound.step ∅ arrivals, ∀ whole,
      answer.2 = some (.forward whole) → whole = answer.1.packet ∨ HeaderVerifies whole) := by
  obtain ⟨hverifies, hheader⟩ := protected_verifies_iff hmatch hflow hudp hout
  exact ⟨hverifies, hheader, fun _ _ _ _ => fragmentInnerPacket_verifies, outboundIpv4_verifies,
    inbound_verifies⟩

/-! ## A packet that verifies, and one that is discarded -/

/-- A UDP flow between two hosts under the null cipher. -/
def imsFlow : ImsEspRuntimeFlow where
  localPort := 6000
  remotePort := 6001
  outboundSaIdentifier := 0x1234
  secrets := ⟨[], replicate 20 0x22, [], [], ⟨"null", "hmac_sha1_96", 0, 20, 20, 40⟩⟩
  icvIncludeIv := true
  udpEncapsulate := true
  nextOutboundSequence := 1
  outboundLogged := false

def imsPolicy : ImsEspRuntimePolicy := ⟨.v4 10 0 0 1, .v4 10 0 0 2, [imsFlow]⟩

/-- A datagram of the flow with the text `Gf`. -/
def textPacket : Bytes :=
  be 30 0x4500001e00010000401166cc0a0000010a00000217701771000a00004766

/-- A datagram of the flow with nothing in it. -/
def emptyPacket : Bytes :=
  be 28 0x4500001c00010000401166ce0a0000010a0000021770177100080000

/-- The tags of their frames. -/
def imsDigests : List (Bytes × Bytes × Bytes) :=
  [(replicate 20 0x22, be 24 0x000012340000000117701771000a00004766010203040411,
    be 20 0x8019fe2ecf577e7da194f498e02f4da2e72ceb5d),
   (replicate 20 0x22, be 24 0x000012340000000117701771000800000102030405060611,
    be 20 0x4df6569dd7a83aa0c971b83c7232057672b230d2)]

/-- What the gateway does with a packet of the flow. -/
def protectSample (packet : Bytes) : Except TunGatewayError Bytes × Option ImsEspRuntimePolicy :=
  call (protectImsEspOutboundIfNeeded (.ofVectors [] imsDigests) none packet) (some imsPolicy)

theorem protectSample_ok {packet : Bytes} (h : (protectSample packet).1.isOk = true) :
    ∃ out state, protectSample packet = (.ok out, state) := by
  cases hcall : protectSample packet with
  | mk result state =>
    rw [hcall] at h
    cases result with
    | ok out => exact ⟨out, state, rfl⟩
    | error e => cases h

/-- The sum over a datagram of the flow, from what is in the packet and from its frame. -/
theorem datagramSum_sample {packet payload esp : Bytes} {words : ℕ}
    (hpayload : ((ParsedIpPacket.parse packet).map fun parsed => parsed.payload packet) =
      .ok payload)
    (hesp : (protectInnerPacketForEspWithMode (.ofVectors [] imsDigests) none 0x1234 1 payload 17
      imsFlow.secrets true).map Prod.fst = .ok esp)
    (hwords : wordsSum (pseudoHeader packet (8 + esp.length) ++ clearedDatagram imsFlow esp) =
      words + 1) :
    datagramSum (.ofVectors [] imsDigests) none packet imsFlow 17 = .ok (words % 65535 + 1) := by
  cases hparse : ParsedIpPacket.parse packet with
  | error e =>
    rw [hparse] at hpayload
    cases hpayload
  | ok parsed =>
    rw [hparse] at hpayload
    obtain rfl := ok.inj hpayload
    cases hframe : protectInnerPacketForEspWithMode (.ofVectors [] imsDigests) none 0x1234 1
        (parsed.payload packet) 17 imsFlow.secrets true with
    | error e =>
      rw [hframe] at hesp
      cases hesp
    | ok frame =>
      rw [hframe] at hesp
      obtain rfl := ok.inj hesp
      have hsum : onesComplementSum (pseudoHeader packet (8 + frame.1.length) ++
          clearedDatagram imsFlow frame.1) = words % 65535 + 1 := by
        rw [onesComplementSum, hwords, foldCarries_eq, if_neg (Nat.succ_ne_zero words)]
        rfl
      rw [datagramSum, hparse, ok_bind]
      change ((protectInnerPacketForEspWithMode _ none 0x1234 1 _ 17 imsFlow.secrets true).mapError
        _ >>= _) = _
      rw [hframe, ← hsum]
      rfl

/-- The sum over the datagram with the text is `0x3636`. -/
theorem imsChecksums_textPacket : ∃ out state,
    protectSample textPacket = (.ok out, state) ∧ UdpVerifies out ∧ HeaderVerifies out := by
  obtain ⟨out, state, hout⟩ := @protectSample_ok textPacket (by decide +kernel)
  have hmatch : imsOutboundFlowIndex textPacket imsPolicy = some ⟨0, 17⟩ := by decide +kernel
  obtain ⟨hudp, hheader, -⟩ := imsChecksums_verify_iff hmatch rfl rfl hout
  have hsum := @datagramSum_sample textPacket (be 10 0x17701771000a00004766)
    (be 36 0x000012340000000117701771000a000047660102030404118019fe2ecf577e7da194f498) 0x53630
    (by decide +kernel) (by decide +kernel) (by decide +kernel)
  exact ⟨out, state, hout, hudp.mpr ⟨_, hsum, by decide⟩, hheader⟩

/-- The sum over the empty datagram is `0xcc13`, and so its checksum, `0x33ec`, is written as
`ec33`. -/
theorem emptyPacket_not_verifies : ∃ out state,
    protectSample emptyPacket = (.ok out, state) ∧
    imsOutboundFlowIndex emptyPacket imsPolicy = some ⟨0, 17⟩ ∧ imsFlow.udpEncapsulate = true ∧
    ¬UdpVerifies out := by
  obtain ⟨out, state, hout⟩ := @protectSample_ok emptyPacket (by decide +kernel)
  have hmatch : imsOutboundFlowIndex emptyPacket imsPolicy = some ⟨0, 17⟩ := by decide +kernel
  refine ⟨out, state, hout, hmatch, rfl, fun hverifies => ?_⟩
  have hsum := @datagramSum_sample emptyPacket (be 8 0x1770177100080000)
    (be 36 0x0000123400000001177017710008000001020304050606114df6569dd7a83aa0c971b83c) 0x3cc0f
    (by decide +kernel) (by decide +kernel) (by decide +kernel)
  obtain ⟨sum, hsum', hequal, -⟩ :=
    (protected_verifies_iff hmatch rfl rfl hout).1.mp hverifies
  obtain rfl := ok.inj (hsum.symm.trans hsum')
  exact absurd hequal (by decide)

end SimMaster.TunGateway
