import SimMaster.InboundRange
import SimMaster.InternetChecksum

/-!
# Header checksums of fragments and reassembled packets

Wherever the gateway changes an IPv4 header it computes the checksum anew, and the checksum
verifies: that of a fragment (`fragmentInnerPacket_verifies`), and that of a packet put together
from fragments, on the way out (`outboundIpv4_verifies`) and on the way in (`inbound_verifies`). A
reassembler needs for this that the headers it keeps are as long as they say.
-/

namespace SimMaster.TunGateway

open Rust Reassembly Machine List Option

/-- The checksum of an IPv4 header verifies. -/
def HeaderVerifies (packet : Bytes) : Prop :=
  version packet = some 4 → onesComplementSum (packet.take (headerLen packet)) = 0xffff

/-- An octet says the length of a header, in units of four. -/
theorem headerLen_le (packet : Bytes) : headerLen packet ≤ 60 := by
  have hand : (packet.getD 0 0 &&& 0x0f).toNat ≤ 15 := by
    exact Nat.and_le_right
  rw [headerLen]
  omega

variable {header : Bytes}

/-- A header that is as long as it says, with something behind it. -/
theorem headerVerifies_append (hpos : 0 < header.length) (hlen : headerLen header = header.length)
    (h : onesComplementSum header = 0xffff) (data : Bytes) : HeaderVerifies (header ++ data) := by
  intro _
  have hfirst : (header ++ data)[0]? = header[0]? := getElem?_append_left hpos
  rw [headerLen_congr hfirst, hlen, take_left]
  exact h

variable {restored : Bytes}

/-- A header that was restored verifies. -/
theorem headerVerifies_of_restore (hmin : 12 ≤ header.length)
    (hlen : headerLen header = header.length) {totalLen : ℕ}
    (h : restoreIpv4Header header header.length totalLen = some restored) (data : Bytes) :
    HeaderVerifies (restored ++ data) := by
  have hmax := headerLen_le header
  rw [restoreIpv4Header_eq hmin] at h
  obtain rfl := some.inj h
  have hfirst : (withChecksum (overwrite (overwrite header 2 (be 2 totalLen)) 6 [0, 0]))[0]? =
      header[0]? := by
    rw [withChecksum_eq, getElem?_overwrite_of_not_mem (by omega),
      getElem?_overwrite_of_not_mem (by omega), getElem?_overwrite_of_not_mem (by omega),
      getElem?_overwrite_of_not_mem (by omega)]
  refine headerVerifies_append ?_ ?_ (onesComplementSum_withChecksum ?_ ?_) data
  · simp only [length_withChecksum, length_overwrite]
    omega
  · rw [headerLen_congr hfirst, hlen, length_withChecksum, length_overwrite, length_overwrite]
  · simp only [length_overwrite]
    exact hmin
  · simp only [length_overwrite]
    omega

/-! ## Fragments -/

variable {packet : Bytes}

/-- **Fragmentation.** The checksum of a fragment verifies; a packet that is not cut is not
changed. -/
theorem fragmentInnerPacket_verifies {part : Bytes} {maxIpBytes : ℕ} {identification : UInt32}
    (h : part ∈ fragmentInnerPacket packet maxIpBytes identification) :
    part = packet ∨ HeaderVerifies part := by
  rw [fragmentInnerPacket] at h
  split at h
  · exact Or.inl (mem_singleton.mp h)
  split at h
  · rw [fragmentIpv4Packet] at h
    by_cases hheader : headerLen packet < 20 ∨ packet.length < headerLen packet
    · rw [if_pos hheader] at h
      exact Or.inl (mem_singleton.mp h)
    · rw [if_neg hheader] at h
      dsimp only at h
      split at h
      · exact Or.inl (mem_singleton.mp h)
      · obtain ⟨fragment, -, rfl⟩ := mem_map.mp h
        have hmin : 20 ≤ headerLen packet := by omega
        have hfits : headerLen packet ≤ packet.length := by omega
        have hlen := length_ipv4FragmentHeader hfits fragment
        have hmax := headerLen_le packet
        have hfirst : (ipv4FragmentHeader packet (headerLen packet) fragment)[0]? = packet[0]? :=
          getElem?_ipv4FragmentHeader_zero hmin fragment
        refine Or.inr (headerVerifies_append (by omega) ?_ ?_ fragment.data)
        · rw [headerLen_congr hfirst, hlen]
        · rw [ipv4FragmentHeader_eq] at hlen ⊢
          rw [length_withChecksum] at hlen
          exact onesComplementSum_withChecksum (by omega) (by omega)
  · next hother =>
    split at h
    · rw [fragmentIpv6Packet] at h
      by_cases hheader : packet.length < 40
      · rw [if_pos hheader] at h
        exact Or.inl (mem_singleton.mp h)
      · rw [if_neg hheader] at h
        dsimp only at h
        split at h
        · exact Or.inl (mem_singleton.mp h)
        · obtain ⟨fragment, -, rfl⟩ := mem_map.mp h
          refine Or.inr fun hversion => absurd ?_ hother
          rw [← hversion]
          refine (version_congr ?_).symm
          rw [getElem?_ipv6Fragment_base (not_lt.mp hheader) identification fragment (by decide),
            getElem?_ipv6BaseHeader fragment (by decide)]
    · exact Or.inl (mem_singleton.mp h)

/-! ## Reassembly on the way out -/

/-- A header as it is kept on the way out. -/
structure Headed (header : Bytes) : Prop where
  min : 20 ≤ header.length
  length : headerLen header = header.length

/-- All headers are kept so. -/
def HeadedAll (buffers : HashMap FragmentKey Ipv4FragmentBuffer) : Prop :=
  ∀ key buffer header, buffers.lookup key = some buffer → buffer.header = some header →
    Headed header

variable {buffers : HashMap FragmentKey Ipv4FragmentBuffer}

theorem HeadedAll.expire (h : HeadedAll buffers) (now : Instant) :
    HeadedAll (expire Ipv4FragmentBuffer.createdAt now buffers) := by
  intro key buffer header hbuffer hheader
  rw [TunGateway.expire] at hbuffer
  split at hbuffer
  · rw [HashMap.lookup_retain, filter_eq_some_iff] at hbuffer
    exact h key buffer header hbuffer.1 hheader
  · exact h key buffer header hbuffer hheader

variable {outcome : FragmentReassemblyOutcome}

/-- What a buffer with such headers does with a fragment with such a header. -/
theorem receive_headed {buffer : Ipv4FragmentBuffer} {fragment : Ipv4FragmentInfo} {payload : Bytes}
    (hbuffer : ∀ kept, buffer.header = some kept → Headed kept) (hheader : Headed header)
    {kept : Option Ipv4FragmentBuffer}
    (h : buffer.receive fragment header payload = some (outcome, kept)) :
    (∀ packet, outcome = .forward packet → HeaderVerifies packet) ∧
      ∀ kept' stored, kept = some kept' → kept'.header = some stored → Headed stored := by
  have hadd : ∀ stored, (buffer.add fragment header payload).header = some stored →
      Headed stored := by
    intro stored hstored
    rw [Ipv4FragmentBuffer.add] at hstored
    split at hstored
    · exact some.inj hstored ▸ hheader
    · exact hbuffer stored hstored
  have hkept : ∀ {answer : FragmentReassemblyOutcome} {rest : Option Ipv4FragmentBuffer},
      some (answer, rest) = some (outcome, kept) → (∀ packet, answer ≠ .forward packet) →
      (∀ kept', rest = some kept' → kept' = buffer.add fragment header payload) →
      (∀ packet, outcome = .forward packet → HeaderVerifies packet) ∧
        ∀ kept' stored, kept = some kept' → kept'.header = some stored → Headed stored := by
    rintro answer rest heq hanswer hrest
    obtain ⟨rfl, rfl⟩ := Prod.mk.inj (some.inj heq)
    refine ⟨fun packet hforward => absurd hforward (hanswer packet), ?_⟩
    rintro kept' stored hsome hstored
    rw [hrest kept' hsome] at hstored
    exact hadd stored hstored
  rw [Ipv4FragmentBuffer.receive] at h
  split at h
  · exact hkept h nofun nofun
  · rw [Ipv4FragmentBuffer.assemble] at h
    split at h
    · next expectedLen stored hexpected hstored =>
      dsimp only at h
      split at h
      · exact hkept h nofun fun _ hsome => (some.inj hsome).symm
      · split at h
        · exact hkept h nofun nofun
        · obtain ⟨restored, hrestore, h⟩ := bind_eq_some_iff.mp h
          obtain ⟨rfl, rfl⟩ := Prod.mk.inj (some.inj h)
          have hheaded := hadd stored hstored
          have hmin := hheaded.min
          refine ⟨fun packet hforward => ?_, nofun⟩
          obtain rfl := FragmentReassemblyOutcome.forward.inj hforward
          exact headerVerifies_of_restore (by omega) hheaded.length hrestore _
    · exact hkept h nofun fun _ hsome => (some.inj hsome).symm

variable {now : Instant}

/-- What the reassembler does with one packet. -/
theorem reassembleOutbound_headed
    {buffers' : HashMap FragmentKey Ipv4FragmentBuffer} (hbuffers : HeadedAll buffers)
    (h : reassembleOutboundIpFragment now packet buffers = some (outcome, buffers')) :
    (∀ forwarded, outcome = .forward forwarded →
      forwarded = packet ∨ HeaderVerifies forwarded) ∧ HeadedAll buffers' := by
  rw [reassembleOutboundIpFragment] at h
  split at h
  · obtain ⟨rfl, rfl⟩ := Prod.mk.inj (some.inj h)
    exact ⟨fun forwarded hforward =>
      Or.inl (FragmentReassemblyOutcome.forward.inj hforward).symm, hbuffers⟩
  · next fragment hfragment =>
    dsimp only at h
    by_cases hihl : ¬(20 ≤ headerLen packet ∧ headerLen packet ≤ packet.length)
    · rw [if_pos hihl] at h
      obtain ⟨rfl, rfl⟩ := Prod.mk.inj (some.inj h)
      exact ⟨nofun, hbuffers⟩
    rw [if_neg hihl] at h
    obtain ⟨hmin, hfits⟩ := not_not.mp hihl
    split at h
    · obtain ⟨rfl, rfl⟩ := Prod.mk.inj (some.inj h)
      exact ⟨nofun, hbuffers.expire now⟩
    · obtain ⟨⟨answer, kept⟩, hreceive, h⟩ := bind_eq_some_iff.mp h
      obtain ⟨rfl, rfl⟩ := Prod.mk.inj (some.inj h)
      have hlen : (packet.take (headerLen packet)).length = headerLen packet :=
        length_take_of_le hfits
      have hfirst : (packet.take (headerLen packet))[0]? = packet[0]? :=
        getElem?_take_of_lt (by omega)
      have hheaded : Headed (packet.take (headerLen packet)) :=
        ⟨by omega, (headerLen_congr hfirst).trans hlen.symm⟩
      have hold : ∀ header, (((TunGateway.expire Ipv4FragmentBuffer.createdAt now buffers).lookup
          (ipv4Key packet fragment)).getD (.new now)).header = some header → Headed header := by
        intro header hheader
        cases hlookup : (TunGateway.expire Ipv4FragmentBuffer.createdAt now buffers).lookup
            (ipv4Key packet fragment) with
        | none =>
          rw [hlookup] at hheader
          exact nomatch hheader
        | some buffer =>
          rw [hlookup] at hheader
          exact hbuffers.expire now _ buffer header hlookup hheader
      obtain ⟨hverifies, hkept⟩ := receive_headed hold hheaded hreceive
      refine ⟨fun forwarded hforward => Or.inr (hverifies forwarded hforward), ?_⟩
      intro key buffer header hbuffer hheader
      by_cases hkey : key = ipv4Key packet fragment
      · subst hkey
        rw [HashMap.lookup_set_self] at hbuffer
        exact hkept buffer header hbuffer hheader
      · rw [HashMap.lookup_set_of_ne _ hkey] at hbuffer
        exact hbuffers.expire now key buffer header hbuffer hheader

theorem HeadedAll.step (h : HeadedAll buffers) (a : Arrival) :
    (∀ forwarded, (outboundIpv4.step buffers a).1 = some (.forward forwarded) →
      forwarded = a.packet ∨ HeaderVerifies forwarded) ∧
      HeadedAll (outboundIpv4.step buffers a).2 := by
  rw [Reassembler.step]
  cases hreceive : outboundIpv4.receive a.now a.packet buffers with
  | none => exact ⟨fun _ hforward => (by cases hforward), h⟩
  | some answer =>
    obtain ⟨hverifies, hkept⟩ := reassembleOutbound_headed h hreceive
    exact ⟨fun forwarded hforward => hverifies forwarded (some.inj hforward), hkept⟩

variable (arrivals : List Arrival)

theorem headedAll_run : HeadedAll (run outboundIpv4.step ∅ arrivals) :=
  run_invariant outboundIpv4.step (fun _ _ _ hbuffer => nomatch hbuffer)
    (fun _ a h => (h.step a).2) arrivals

/-- **Reassembly on the way out.** Over a whole run, a packet is forwarded as it arrived or with a
checksum that verifies. -/
theorem outboundIpv4_verifies : ∀ answer ∈ trace outboundIpv4.step ∅ arrivals, ∀ packet,
      answer.2 = some (.forward packet) → packet = answer.1.packet ∨ HeaderVerifies packet := by
  intro answer hanswer packet hforward
  obtain ⟨front, heq⟩ := mem_trace _ hanswer
  exact ((headedAll_run front).step answer.1).1 packet (heq ▸ hforward)

/-! ## Reassembly on the way in -/

/-- A header that was kept for a packet verifies once it is restored, if it is one of IPv4. -/
theorem headerVerifies_of_restoreInbound {key : FragmentKey}
    (hstored : Stored key header) {expected : ℕ}
    (h : restoreInboundHeader header expected = some (some restored)) (data : Bytes) :
    HeaderVerifies (restored ++ data) := by
  rw [restoreInboundHeader] at h
  rcases hstored with ⟨-, rfl | ⟨hversion, hlen⟩⟩ | ⟨-, hversion, hlen⟩
  · cases h
  · rw [if_pos hversion, hlen] at h
    dsimp only at h
    split at h
    · cases h
    · obtain ⟨restored', hrestore, hsome⟩ := map_eq_some_iff.mp h
      obtain rfl := some.inj hsome
      by_cases hmin : 12 ≤ header.length
      · exact headerVerifies_of_restore hmin hlen hrestore data
      · rw [restoreIpv4Header_eq_none (not_le.mp hmin)] at hrestore
        cases hrestore
  · rw [hversion, if_neg (by decide), if_pos rfl] at h
    split at h
    · cases h
    · obtain ⟨restored', hrestore, hsome⟩ := map_eq_some_iff.mp h
      obtain rfl := some.inj hsome
      have hfits : 4 + (be 2 expected).length ≤ header.length := by
        rw [length_be, hlen]
        decide
      rw [copyFromSlice_of_le hfits] at hrestore
      obtain rfl := some.inj hrestore
      have hfirst : (overwrite header 4 (be 2 expected) ++ data)[0]? = header[0]? := by
        rw [getElem?_append_left (by rw [length_overwrite]; omega),
          getElem?_overwrite_of_not_mem (by omega)]
      intro hother
      rw [version_congr hfirst, hversion] at hother
      cases hother

variable {info : InboundFragmentInfo}

/-- What a buffer forwards once a fragment is put in. -/
theorem forwarded_of_receive {buffer : InboundFragmentBuffer} {kept : Option InboundFragmentBuffer}
    (h : buffer.receive info = some (.forward packet, kept)) :
    ∃ header expected restored data, (buffer.add info).baseHeader = some header ∧
      restoreInboundHeader header expected = some (some restored) ∧ packet = restored ++ data := by
  rw [InboundFragmentBuffer.receive] at h
  split at h
  · cases h
  · rw [InboundFragmentBuffer.assemble] at h
    split at h
    · next expected header hexpected hheader =>
      dsimp only at h
      split at h
      · cases h
      · obtain ⟨answer, hrestore, h⟩ := bind_eq_some_iff.mp h
        cases answer with
        | none => cases h
        | some restored =>
          have hpacket := FragmentReassemblyOutcome.forward.inj (Prod.mk.inj (some.inj h)).1
          exact ⟨header, expected, restored, _, hheader, hrestore, hpacket.symm⟩
    · cases h

variable {forwarded : Bytes} {buffers : HashMap FragmentKey InboundFragmentBuffer}

/-- A fragment whose header is kept has its packet forwarded with a checksum that verifies. -/
theorem reassembleInbound_verifies
    (h : StoredAll buffers) (hinfo : inboundFragmentInfo packet = some (some info))
    (hstored : Stored (inboundKey info) info.baseHeader)
    {buffers' : HashMap FragmentKey InboundFragmentBuffer}
    (hforward : reassembleInboundIpFragment now packet buffers = some (.forward forwarded,
      buffers')) :
    HeaderVerifies forwarded := by
  rw [reassembleInbound_fragment buffers hinfo] at hforward
  obtain ⟨⟨outcome, kept⟩, hreceive, hanswer⟩ := map_eq_some_iff.mp hforward
  obtain ⟨rfl, rfl⟩ := Prod.mk.inj hanswer
  obtain ⟨header, expected, restored, data, hheader, hrestore, rfl⟩ := forwarded_of_receive hreceive
  exact headerVerifies_of_restoreInbound (h.add now hstored hheader) hrestore data

theorem StoredAll.verifies (h : StoredAll buffers) (a : Arrival)
    (hforward : (inbound.step buffers a).1 = some (.forward forwarded)) :
    forwarded = a.packet ∨ HeaderVerifies forwarded := by
  cases hanswer : reassembleInboundIpFragment a.now a.packet buffers with
  | none =>
    rw [step_of_none hanswer] at hforward
    cases hforward
  | some answer =>
    rw [step_of_some hanswer] at hforward
    have hforwarded : answer = (.forward forwarded, answer.2) :=
      Prod.ext (some.inj hforward) rfl
    rw [hforwarded] at hanswer
    have hfragment : ∀ {info}, inboundFragmentInfo a.packet = some (some info) →
        Stored (inboundKey info) info.baseHeader → HeaderVerifies forwarded :=
      fun hinfo hstored => reassembleInbound_verifies h hinfo hstored hanswer
    by_cases hipv4 : IsIpv4Fragment a.packet
    · by_cases hfits : headerLen a.packet ≤ a.packet.length
      · exact Or.inr (hfragment ((inboundFragmentInfo_ipv4 hipv4).trans (if_pos hfits))
          (stored_ipv4Inbound hipv4 hfits))
      · rw [reassembleInboundIpFragment, (inboundFragmentInfo_ipv4 hipv4).trans (if_neg hfits)]
          at hanswer
        cases hanswer
    · rcases inboundFragmentInfo_other hipv4 with hinfo | ⟨info, hinfo, hstored, -⟩
      · rw [reassembleInbound_whole buffers hinfo] at hanswer
        exact Or.inl (FragmentReassemblyOutcome.forward.inj
          (Prod.mk.inj (some.inj hanswer)).1).symm
      · exact Or.inr (hfragment hinfo hstored)

/-- **Reassembly on the way in.** Over a whole run, a packet is forwarded as it arrived or with a
checksum that verifies. -/
theorem inbound_verifies : ∀ answer ∈ trace inbound.step ∅ arrivals, ∀ packet,
      answer.2 = some (.forward packet) → packet = answer.1.packet ∨ HeaderVerifies packet := by
  intro answer hanswer packet hforward
  obtain ⟨front, heq⟩ := mem_trace _ hanswer
  exact (storedAll_run front).verifies answer.1 (heq ▸ hforward)

end SimMaster.TunGateway
