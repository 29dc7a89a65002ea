import SimMaster.InboundReassembly

/-!
# Integrity of reassembly

The three reassemblers follow their policies (`outboundIpv4_refines`, `outboundIpv6_refines`,
`inbound_refines`), so what is known of every policy holds for each of them after any run: what is
forwarded was put together from fragments of one key that came while the buffer was there
(`Reassembler.Integrity`). The IPv4 reassembler refuses fragments without octets, and so its packets
end with a fragment that has the more-fragments flag clear; the other two can have fragments without
octets behind it, which add nothing. A malformed fragment is dropped before its buffer is looked at,
and the buffer stays.
-/

namespace SimMaster.TunGateway

open Rust Reassembly Machine List

variable {B η : Type}

/-- What each of the three guarantees, whatever packets arrive. -/
structure Reassembler.Integrity (r : Reassembler B) (policy : Policy η)
    (received : Bytes → Option (FragmentKey × Received η)) (view : B → Gathered η) : Prop where
  /-- A forwarded packet is put together from fragments of one key since the buffer was created, it
  is as long as it says, and the buffer is gone. -/
  forwarded : ∀ (arrivals : List Arrival) (a : Arrival) (packet : Bytes) (key : FragmentKey),
    (r.step (run r.step ∅ arrivals) a).1 = some (.forward packet) → r.keyOf a.packet = some key →
      (∃ pieces start stop header total,
        Assembly policy (fragmentsOf received key (r.gathered key arrivals a)) packet
          pieces start stop
          header total ∧
        ∀ front rest, pieces = front ++ stop :: rest → ∀ f ∈ rest, f.part.data = []) ∧
      lengthField packet = some packet.length ∧
      (r.step (run r.step ∅ arrivals) a).2.lookup key = none
  /-- A fragment that overlaps is dropped, and so is the buffer. -/
  overlapping : ∀ (buffers : HashMap FragmentKey B) (a : Arrival) (key :
    FragmentKey) (f : Received η)
      (b : B), received a.packet = some (key, f) →
    (expire r.createdAt a.now buffers).lookup key = some b →
    overlaps f.part.offset f.part.stop (view b).pieces = true →
      (r.step buffers a).1 = some .dropped ∧ (r.step buffers a).2.lookup key = none
  /-- Without a buffer of the key, a complete set of fragments is forwarded once. -/
  complete : ∀ (parts : List (Fragment UInt8)) (emit : Fragment UInt8 → Bytes)
      (header : Fragment UInt8 → η) (key : FragmentKey) (restored : Bytes), Tiles 0 parts →
    (∀ p ∈ parts, received (emit p) = some (key, ⟨header p, p⟩)) →
    (∀ p ∈ parts, p.offset = 0 →
      policy.restore (header p) (join parts).length = some (some restored)) →
      r.ForwardsOnce key (parts.map emit) (restored ++ join parts)

variable {policy : Policy η}

theorem Reassembler.Refines.integrity {r : Reassembler B}
    {received : Bytes → Option (FragmentKey × Received η)} {new : Instant → B}
    {view : B → Gathered η}
    {recv : B → Received η → Option (FragmentReassemblyOutcome × Option B)}
    (h : r.Refines policy received new view recv) : r.Integrity policy received view where
  forwarded arrivals a packet key hanswer hkey := by
    obtain ⟨⟨pieces, start, stop, header, total, hassembly⟩, hlength, hgone⟩ :=
      h.forward hanswer hkey
    exact ⟨⟨pieces, start, stop, header, total, hassembly, fun _ _ hpieces _ hf =>
      hassembly.data_eq_nil hpieces hf⟩, hlength, hgone⟩
  overlapping _ _ _ _ _ hreceived hfound hoverlaps :=
    h.dropped_of_overlaps hreceived hfound hoverlaps
  complete _ _ _ _ _ htiles hemit hrestore := h.forwardsOnce htiles hemit hrestore

/-- An IPv4 fragment that is taken has octets. -/
theorem data_ne_nil_of_ipv4Received {key : FragmentKey} {arrivals : List Arrival}
    {f : Received Bytes}
    (hf : f ∈ fragmentsOf ipv4Received key arrivals) : f.part.data ≠ [] := by
  obtain ⟨a, -, ha⟩ := exists_of_mem_fragmentsOf hf
  obtain ⟨fragment, -, -, rfl, -, -, hdata, -⟩ := ipv4Received_eq_some ha
  exact hdata

theorem Assembly.getLast?_eq {received pieces : List (Received η)}
    {packet header : Bytes} {start stop : Received η} {total : ℕ}
    (h : Assembly policy received packet pieces start stop header total)
    (hdata : ∀ f ∈ received, f.part.data ≠ []) : pieces.getLast? = some stop := by
  obtain ⟨front, rest, hpieces⟩ := append_of_mem h.stopMem
  have hrest : rest = [] := by
    refine eq_nil_iff_forall_not_mem.mpr fun f hf => ?_
    have hmem : f ∈ pieces := by simp [hpieces, hf]
    exact hdata f (h.received.subset hmem) (h.data_eq_nil hpieces hf)
  rw [hpieces, hrest, getLast?_append_cons, getLast?_singleton]

/-- **Integrity of reassembly.** It holds of all three. An outbound IPv4 packet moreover ends with
the fragment that has the more-fragments flag clear, and there a fragment that is dropped, unless it
is malformed, leaves no buffer. -/
theorem reassembly_integrity :
    outboundIpv4.Integrity ipv4Policy ipv4Received Ipv4FragmentBuffer.view ∧
    outboundIpv6.Integrity ipv6Policy ipv6Received Ipv6FragmentBuffer.view ∧
    inbound.Integrity inboundPolicy inboundReceived InboundFragmentBuffer.view ∧
    (∀ (arrivals : List Arrival) (a : Arrival) (packet : Bytes) (key : FragmentKey),
      (outboundIpv4.step (run outboundIpv4.step ∅ arrivals) a).1 = some (.forward packet) →
      outboundIpv4.keyOf a.packet = some key → ∃ pieces start stop header total,
          Assembly ipv4Policy (fragmentsOf ipv4Received key (outboundIpv4.gathered key arrivals a))
            packet pieces start stop header total ∧ pieces.getLast? = some stop) ∧
    ∀ (buffers : HashMap FragmentKey Ipv4FragmentBuffer) (a : Arrival) (key : FragmentKey)
      (f : Received Bytes), ipv4Received a.packet = some (key, f) →
      (outboundIpv4.step buffers a).1 = some .dropped →
        (outboundIpv4.step buffers a).2.lookup key = none := by
  refine ⟨outboundIpv4_refines.integrity, outboundIpv6_refines.integrity, inbound_refines.integrity,
    ?_, ?_⟩
  · intro arrivals a packet key hanswer hkey
    obtain ⟨⟨pieces, start, stop, header, total, hassembly⟩, -⟩ :=
      outboundIpv4_refines.forward hanswer hkey
    exact ⟨pieces, start, stop, header, total, hassembly,
      hassembly.getLast?_eq fun f hf => data_ne_nil_of_ipv4Received hf⟩
  · intro buffers a key f hreceived hdropped
    exact outboundIpv4_refines.lookup_of_dropped rfl rfl hreceived hdropped

/-! ## Fragments that are not like that -/

/-- The second fragment of a packet, without any octets. -/
def emptyFragment : Bytes :=
  [0x45, 0, 0, 20, 0x12, 0x34, 0x20, 1, 64, 17, 0, 0, 10, 0, 0, 1, 10, 0, 0, 2]

def ipv6Header : Bytes :=
  [0x20, 1, 0x0d, 0xb8, 0, 0, 0, 0, 0, 0, 0, 0, 0, 0, 0, 1,
    0x20, 1, 0x0d, 0xb8, 0, 0, 0, 0, 0, 0, 0, 0, 0, 0, 0, 2]

/-- A fragment from `2001:db8::1` to `2001:db8::2` of a UDP packet with the identification 7. -/
def ipv6Sample (offsetM : UInt8) (data : Bytes) : Bytes :=
  [0x60, 0, 0, 0, 0, 8 + data.length.toUInt8, 44, 64] ++ ipv6Header ++
    [17, 0, 0, offsetM, 0, 0, 0, 7] ++ data

/-- What the IPv6 reassembler holds after the fragments at 16 and 0. -/
def ipv6SampleBuffer : Ipv6FragmentBuffer :=
  ⟨some ((ipv6Sample 1 [1, 2, 3, 4, 5, 6, 7, 8]).take 40), some 17,
    [(16, []), (0, [1, 2, 3, 4, 5, 6, 7, 8])], none, 0⟩

theorem ipv6SampleBuffer_receive :
    (ipv6SampleBuffer.receive 8 false ((ipv6Sample 8 [9, 10, 11, 12, 13, 14, 15, 16]).take 40) 17
        [9, 10, 11, 12, 13, 14, 15, 16]).map Prod.fst =
      some (.forward ([0x60, 0, 0, 0, 0, 16, 17, 64] ++ ipv6Header ++
        [1, 2, 3, 4, 5, 6, 7, 8, 9, 10, 11, 12, 13, 14, 15, 16])) := by
  have hsort : sortByOffset [(16, []), (0, [1, 2, 3, 4, 5, 6, 7, 8]),
      (8, [9, 10, 11, 12, 13, 14, 15, 16])] = [(0, [1, 2, 3, 4, 5, 6, 7, 8]),
      (8, [9, 10, 11, 12, 13, 14, 15, 16]), (16, ([] : Bytes))] := by
    simp [sortByOffset, mergeSort, List.MergeSort.Internal.splitInTwo]
  rw [Ipv6FragmentBuffer.receive, if_neg (by decide)]
  change Option.map Prod.fst
    (Ipv6FragmentBuffer.assemble ⟨_, _, [(16, []), (0, _), (8, _)], _, _⟩) = _
  rw [Ipv6FragmentBuffer.assemble]
  dsimp only [ipv6SampleBuffer]
  rw [hsort]
  decide +kernel

set_option maxRecDepth 10000 in
/-- A malformed IPv4 fragment is dropped, and what its key holds stays. And of three IPv6 fragments,
the packet that the last completes has a piece at its end, without octets, that came with the
more-fragments flag set. -/
theorem reassembly_integrity_gaps :
    ((outboundIpv4.step (run outboundIpv4.step ∅ [⟨0, sampleFragment, true⟩])
        ⟨1, emptyFragment, true⟩).1 = some .dropped ∧
      outboundIpv4.keyOf emptyFragment = outboundIpv4.keyOf sampleFragment ∧
      ((outboundIpv4.keyOf emptyFragment).bind (outboundIpv4.step
        (run outboundIpv4.step ∅ [⟨0, sampleFragment, true⟩]) ⟨1, emptyFragment, true⟩).2.lookup
          ).isSome = true) ∧
    (outboundIpv6.step (run outboundIpv6.step ∅ [⟨0, ipv6Sample 17 [], true⟩,
        ⟨1, ipv6Sample 1 [1, 2, 3, 4, 5, 6, 7, 8], true⟩])
        ⟨2, ipv6Sample 8 [9, 10, 11, 12, 13, 14, 15, 16], true⟩).1 =
      some (.forward ([0x60, 0, 0, 0, 0, 16, 17, 64] ++ ipv6Header ++
        [1, 2, 3, 4, 5, 6, 7, 8, 9, 10, 11, 12, 13, 14, 15, 16])) ∧
    (ipv6Received (ipv6Sample 17 [])).map (fun received => (received.2.part.piece,
      received.2.part.last)) = some ((16, []), false) := by
  refine ⟨by decide +kernel, ?_, by decide +kernel⟩
  have hreceived : ipv6Received (ipv6Sample 8 [9, 10, 11, 12, 13, 14, 15, 16]) =
      some (ipv6Key (ipv6Sample 8 [9, 10, 11, 12, 13, 14, 15, 16]),
        ⟨((ipv6Sample 8 [9, 10, 11, 12, 13, 14, 15, 16]).take 40, 17),
          ⟨8, [9, 10, 11, 12, 13, 14, 15, 16], true⟩⟩) := rfl
  have hfound : (expire outboundIpv6.createdAt 2 (run outboundIpv6.step ∅
      [⟨0, ipv6Sample 17 [], true⟩, ⟨1, ipv6Sample 1 [1, 2, 3, 4, 5, 6, 7, 8], true⟩])).lookup
        (ipv6Key (ipv6Sample 8 [9, 10, 11, 12, 13, 14, 15, 16])) = some ipv6SampleBuffer := rfl
  rw [Reassembler.step, outboundIpv6_refines.accepted _ _ _ _ _ hreceived, hfound, Option.getD_some]
  obtain ⟨⟨outcome, left⟩, hanswer, rfl⟩ := Option.map_eq_some_iff.mp ipv6SampleBuffer_receive
  dsimp only
  rw [Bool.not_true, hanswer]
  rfl

end SimMaster.TunGateway
