import SimMaster.IpReassembly

/-!
# Where the inbound reassembler indexes out of range

The reassembler takes the length of an IPv4 header from the header itself, cuts the packet there,
and writes to fixed places of what it has cut off when the packet is complete. Neither is checked. A
step answers unless one of the two goes wrong (`step_answers_iff`); what the second needs of the
headers that are kept is an invariant of the buffers (`Stored`), and so a whole run answers just
when each of its steps is in range (`inbound_answers_iff`).
-/

namespace SimMaster.TunGateway

open Rust Reassembly Machine List Option

/-! ## IPv4 fragments -/

/-- The packet is read as an IPv4 fragment: the header says so. -/
def IsIpv4Fragment (packet : Bytes) : Prop :=
  version packet = some 4 ∧ 20 ≤ packet.length ∧
    (fromBe (slice packet 6 8) &&& 0x2000 ≠ 0 ∨ fromBe (slice packet 6 8) &&& 0x1fff ≠ 0)

instance (packet : Bytes) : Decidable (IsIpv4Fragment packet) :=
  inferInstanceAs (Decidable (_ ∧ _ ∧ _))

/-- What an IPv4 fragment says of itself, cut where its header claims to end. -/
def ipv4Inbound (packet : Bytes) : InboundFragmentInfo where
  src := ipv4Addr (slice packet 12 16)
  dst := ipv4Addr (slice packet 16 20)
  identification := fromBe ([0, 0] ++ slice packet 4 6)
  offsetBytes := (fromBe (slice packet 6 8) &&& 0x1fff) * 8
  moreFragments := decide (fromBe (slice packet 6 8) &&& 0x2000 ≠ 0)
  baseHeader := packet.take (headerLen packet)
  payload := packet.drop (headerLen packet)

/-- The buffer a fragment goes to. -/
def bufferFor (buffers : HashMap FragmentKey InboundFragmentBuffer) (now : Instant)
    (info : InboundFragmentInfo) : InboundFragmentBuffer :=
  ((expire InboundFragmentBuffer.createdAt now buffers).lookup (inboundKey info)).getD (.new now)

/-- The fragment completes its packet, which begins with the header given and has a payload of the
length given. -/
structure Completes (buffer : InboundFragmentBuffer) (info : InboundFragmentInfo) (header : Bytes)
    (expected : ℕ) : Prop where
  apart : overlaps info.offsetBytes (info.offsetBytes + info.payload.length) buffer.pieces = false
  begun : (buffer.add info).baseHeader = some header
  ended : (buffer.add info).expectedLen = some expected
  covered : coveredEnd 0 (sortByOffset (buffer.add info).pieces) = some expected

/-- A packet that does no harm: the header of an IPv4 fragment ends within it, and if it completes a
packet of a length that can be written, the header of that packet is empty or has room for a
checksum. -/
structure InRange (buffers : HashMap FragmentKey InboundFragmentBuffer) (a : Arrival) : Prop where
  header : IsIpv4Fragment a.packet → headerLen a.packet ≤ a.packet.length
  restored : IsIpv4Fragment a.packet → ∀ header expected,
    Completes (bufferFor buffers a.now (ipv4Inbound a.packet)) (ipv4Inbound a.packet)
      header expected →
    headerLen header + expected ≤ 65535 → header = [] ∨ 12 ≤ header.length

/-- A header as it is kept for a packet: that of an IPv4 packet says how long it is, unless it is
empty. -/
def Stored (key : FragmentKey) (header : Bytes) : Prop :=
  (∃ a b c d, key.src = .v4 a b c d) ∧
      (header = [] ∨ version header = some 4 ∧ headerLen header = header.length) ∨
    (∃ groups, key.src = .v6 groups) ∧ version header = some 6 ∧ header.length = 40

/-! ## What a packet says of itself -/

variable {packet : Bytes}

theorem inboundFragmentInfo_ipv4 (h : IsIpv4Fragment packet) : inboundFragmentInfo packet =
      if headerLen packet ≤ packet.length then some (some (ipv4Inbound packet)) else none := by
  obtain ⟨hversion, hlen, hfragment⟩ := h
  have hmore : ¬(decide (fromBe (slice packet 6 8) &&& 0x2000 ≠ 0) = false ∧
      (fromBe (slice packet 6 8) &&& 0x1fff) * 8 = 0) := by
    rw [decide_eq_false_iff_not]
    omega
  rw [inboundFragmentInfo, if_pos hversion, if_neg (by omega)]
  dsimp only
  rw [if_neg hmore]
  split
  · next hfits =>
    have hbase : getRange packet 0 (headerLen packet) = some (packet.take (headerLen packet)) := by
      rw [getRange, if_pos ⟨Nat.zero_le _, hfits⟩, drop_zero, Nat.sub_zero]
    have hpayload : getFrom packet (headerLen packet) = some (packet.drop (headerLen packet)) :=
      if_pos hfits
    rw [hbase, hpayload]
    rfl
  · next hlong =>
    have hbase : getRange packet 0 (headerLen packet) = none := if_neg fun h => hlong h.2
    rw [hbase]
    rfl

/-- The header of an IPv4 fragment, cut where it claims to end. -/
theorem stored_ipv4Inbound (h : IsIpv4Fragment packet) (hfits : headerLen packet ≤ packet.length) :
    Stored (inboundKey (ipv4Inbound packet)) (ipv4Inbound packet).baseHeader := by
  refine Or.inl ⟨⟨_, _, _, _, rfl⟩, ?_⟩
  change packet.take (headerLen packet) = [] ∨ _
  rcases Nat.eq_zero_or_pos (headerLen packet) with hzero | hpos
  · left
    rw [hzero, take_zero]
  · right
    have hfirst : (packet.take (headerLen packet))[0]? = packet[0]? := getElem?_take_of_lt hpos
    refine ⟨(version_congr hfirst).trans h.1, (headerLen_congr hfirst).trans ?_⟩
    exact (length_take_of_le hfits).symm

/-- Any other packet is read in range. -/
theorem inboundFragmentInfo_other (h : ¬IsIpv4Fragment packet) :
    inboundFragmentInfo packet = some none ∨ ∃ info, inboundFragmentInfo packet = some (some info) ∧
        Stored (inboundKey info) info.baseHeader ∧ ∃ groups, info.src = .v6 groups := by
  rw [inboundFragmentInfo]
  split
  · next hversion =>
    left
    split
    · rfl
    · next hlen =>
      have hnone : decide (fromBe (slice packet 6 8) &&& 0x2000 ≠ 0) = false ∧
          (fromBe (slice packet 6 8) &&& 0x1fff) * 8 = 0 := by
        rw [decide_eq_false_iff_not]
        have hnot : ¬(fromBe (slice packet 6 8) &&& 0x2000 ≠ 0 ∨
            fromBe (slice packet 6 8) &&& 0x1fff ≠ 0) := fun hor => h ⟨hversion, by omega, hor⟩
        omega
      rw [if_pos hnone]
  · split
    · next hversion =>
      split
      · exact Or.inl rfl
      · next hlen =>
        refine Or.inr ⟨_, rfl, Or.inr ⟨⟨_, rfl⟩, ?_, ?_⟩, _, rfl⟩
        · refine Eq.trans (version_congr ?_) hversion
          rw [getElem?_overwrite_of_not_mem (by omega), getElem?_take_of_lt (by omega)]
        · dsimp only
          rw [length_overwrite, length_take]
          omega
    · exact Or.inl rfl

/-! ## Restoring a header -/

variable {header : Bytes}

/-- A header without room for a checksum is written outside of it. -/
theorem restoreIpv4Header_eq_none (h : header.length < 12) (len totalLen : ℕ) :
    restoreIpv4Header header len totalLen = none := by
  have hcopy : ∀ {data : Bytes} {i : ℕ} {bytes result : Bytes},
      copyFromSlice data i bytes = some result → result.length = data.length := by
    intro data i bytes result hresult
    rw [copyFromSlice] at hresult
    split at hresult
    · rw [← some.inj hresult, length_overwrite]
    · exact nomatch hresult
  rw [eq_none_iff_forall_ne_some]
  intro restored hrestored
  obtain ⟨h2, hat2, hrestored⟩ := bind_eq_some_iff.mp hrestored
  obtain ⟨h6, hat6, hrestored⟩ := bind_eq_some_iff.mp hrestored
  obtain ⟨h10, hat10, hrestored⟩ := bind_eq_some_iff.mp hrestored
  obtain ⟨h11, hat11, -⟩ := bind_eq_some_iff.mp hrestored
  have hlen : h10.length = header.length :=
    (hcopy hat10).trans ((hcopy hat6).trans (hcopy hat2))
  have hshort : ¬11 + [(0 : UInt8)].length ≤ h10.length := by
    rw [hlen, length_singleton]
    omega
  rw [copyFromSlice, if_neg hshort] at hat11
  exact nomatch hat11

/-- Restoring a header that was kept fails for a short IPv4 header only. -/
theorem restoreInboundHeader_eq_none_iff {key : FragmentKey} {expected : ℕ}
    (h : Stored key header) : restoreInboundHeader header expected = none ↔
      (∃ a b c d, key.src = .v4 a b c d) ∧ headerLen header + expected ≤ 65535 ∧
        ¬(header = [] ∨ 12 ≤ header.length) := by
  rcases h with ⟨hsrc, rfl | ⟨hversion, hlen⟩⟩ | ⟨⟨groups, hsrc⟩, hversion, hlen⟩
  · refine iff_of_false (by rw [restoreInboundHeader]; exact nofun) fun hnone => ?_
    exact hnone.2.2 (Or.inl rfl)
  · have hne : header ≠ [] := by
      rintro rfl
      exact nomatch hversion
    rw [restoreInboundHeader, if_pos hversion, hlen]
    rw [or_iff_right hne]
    by_cases htotal : 65535 < header.length + expected
    · rw [if_pos htotal]
      exact iff_of_false nofun fun hnone => absurd hnone.2.1 (not_le.mpr htotal)
    · rw [if_neg htotal, map_eq_none_iff]
      by_cases hroom : 12 ≤ header.length
      · rw [restoreIpv4Header_eq hroom]
        exact iff_of_false nofun fun hnone => hnone.2.2 hroom
      · exact iff_of_true (restoreIpv4Header_eq_none (not_le.mp hroom) _ _)
          ⟨hsrc, not_lt.mp htotal, hroom⟩
  · have hv4 : ¬version header = some 4 := by
      rw [hversion]
      decide
    have hfits : 4 + (be 2 expected).length ≤ header.length := by
      rw [length_be, hlen]
      decide
    refine iff_of_false ?_ fun hnone => ?_
    · rw [restoreInboundHeader, if_neg hv4, if_pos hversion, copyFromSlice_of_le hfits]
      split
      · exact nofun
      · exact nofun
    · obtain ⟨⟨a, b, c, d, hv4src⟩, -⟩ := hnone
      exact nomatch hsrc.symm.trans hv4src

/-! ## One step -/

variable {buffer : InboundFragmentBuffer}

theorem assemble_eq_none_iff :
    buffer.assemble = none ↔ ∃ header expected, buffer.baseHeader = some header ∧
      buffer.expectedLen = some expected ∧
      coveredEnd 0 (sortByOffset buffer.pieces) = some expected ∧
      restoreInboundHeader header expected = none := by
  rw [InboundFragmentBuffer.assemble]
  cases hexpected : buffer.expectedLen with
  | none => exact iff_of_false nofun fun ⟨_, _, _, hsome, _⟩ => nomatch hsome
  | some expected =>
    cases hheader : buffer.baseHeader with
    | none => exact iff_of_false nofun fun ⟨_, _, hsome, _⟩ => nomatch hsome
    | some header =>
      dsimp only
      by_cases hcovered : coveredEnd 0 (sortByOffset buffer.pieces) = some expected
      · rw [if_neg (not_not_intro hcovered)]
        cases hrestore : restoreInboundHeader header expected with
        | none => exact iff_of_true rfl ⟨header, expected, rfl, rfl, hcovered, hrestore⟩
        | some restored =>
          refine iff_of_false ?_ ?_
          · cases restored <;> exact nofun
          · rintro ⟨header', expected', hheader', hexpected', -, hnone⟩
            obtain rfl := some.inj hheader'
            obtain rfl := some.inj hexpected'
            exact nomatch hrestore.symm.trans hnone
      · rw [if_pos hcovered]
        refine iff_of_false nofun ?_
        rintro ⟨header', expected', -, hexpected', hcovered', -⟩
        obtain rfl := some.inj hexpected'
        exact hcovered hcovered'

variable {info : InboundFragmentInfo}

/-- A buffer fails to take a fragment just when it restores a header that cannot be restored. -/
theorem receive_eq_none_iff :
    buffer.receive info = none ↔ ∃ header expected, Completes buffer info header expected ∧
      restoreInboundHeader header expected = none := by
  rw [InboundFragmentBuffer.receive]
  cases hoverlaps : overlaps info.offsetBytes (info.offsetBytes + info.payload.length)
      buffer.pieces with
  | true =>
    refine iff_of_false nofun ?_
    rintro ⟨header, expected, hcompletes, -⟩
    exact nomatch hoverlaps.symm.trans hcompletes.apart
  | false =>
    rw [if_neg (by decide), assemble_eq_none_iff]
    constructor
    · rintro ⟨header, expected, hheader, hexpected, hcovered, hnone⟩
      exact ⟨header, expected, ⟨hoverlaps, hheader, hexpected, hcovered⟩, hnone⟩
    · rintro ⟨header, expected, ⟨-, hheader, hexpected, hcovered⟩, hnone⟩
      exact ⟨header, expected, hheader, hexpected, hcovered, hnone⟩

/-- The header of a buffer with a fragment put in. -/
theorem baseHeader_of_add (h : (buffer.add info).baseHeader = some header) :
    buffer.baseHeader = some header ∨ header = info.baseHeader := by
  rw [InboundFragmentBuffer.add] at h
  split at h
  · exact Or.inr (some.inj h).symm
  · exact Or.inl h

variable {outcome : FragmentReassemblyOutcome}

/-- What a buffer keeps is itself with the fragment put in. -/
theorem kept_of_receive {kept : InboundFragmentBuffer}
    (h : buffer.receive info = some (outcome, some kept)) :
    kept = buffer.add info := by
  rw [InboundFragmentBuffer.receive] at h
  split at h
  · exact nomatch (Prod.mk.inj (some.inj h)).2
  · rw [InboundFragmentBuffer.assemble] at h
    split at h
    · dsimp only at h
      split at h
      · exact (some.inj (Prod.mk.inj (some.inj h)).2).symm
      · obtain ⟨restored, -, h⟩ := bind_eq_some_iff.mp h
        cases restored with
        | none => exact (some.inj (Prod.mk.inj (some.inj h)).2).symm
        | some restored => exact nomatch (Prod.mk.inj (some.inj h)).2
    · exact (some.inj (Prod.mk.inj (some.inj h)).2).symm

/-- All headers are stored under the keys of their packets. -/
def StoredAll (buffers : HashMap FragmentKey InboundFragmentBuffer) : Prop :=
  ∀ key buffer header, buffers.lookup key = some buffer → buffer.baseHeader = some header →
    Stored key header

variable {buffers : HashMap FragmentKey InboundFragmentBuffer}

theorem StoredAll.expire (h : StoredAll buffers) (now : Instant) :
    StoredAll (expire InboundFragmentBuffer.createdAt now buffers) := by
  intro key buffer header hbuffer hheader
  rw [TunGateway.expire] at hbuffer
  split at hbuffer
  · rw [HashMap.lookup_retain, filter_eq_some_iff] at hbuffer
    exact h key buffer header hbuffer.1 hheader
  · exact h key buffer header hbuffer hheader

/-- The header of the buffer a fragment goes to, with the fragment put in. -/
theorem StoredAll.add (h : StoredAll buffers)
    (now : Instant) (hinfo : Stored (inboundKey info) info.baseHeader)
    (hheader : ((bufferFor buffers now info).add info).baseHeader = some header) :
    Stored (inboundKey info) header := by
  rcases baseHeader_of_add hheader with hbuffer | rfl
  · rw [bufferFor] at hbuffer
    cases hlookup : (TunGateway.expire InboundFragmentBuffer.createdAt now buffers).lookup
        (inboundKey info) with
    | none =>
      rw [hlookup] at hbuffer
      exact nomatch hbuffer
    | some buffer =>
      rw [hlookup] at hbuffer
      exact h.expire now _ buffer header hlookup hbuffer
  · exact hinfo

variable {now : Instant}

/-- The buffers after a fragment was taken. -/
theorem StoredAll.set (h : StoredAll buffers) (hinfo : Stored (inboundKey info) info.baseHeader)
    {kept : Option InboundFragmentBuffer}
    (hreceive : (bufferFor buffers now info).receive info = some (outcome, kept)) :
    StoredAll ((TunGateway.expire InboundFragmentBuffer.createdAt now buffers).set (inboundKey info)
      kept) := by
  intro key buffer header hbuffer hheader
  by_cases hkey : key = inboundKey info
  · subst hkey
    rw [HashMap.lookup_set_self] at hbuffer
    subst hbuffer
    obtain rfl := kept_of_receive hreceive
    exact h.add now hinfo hheader
  · rw [HashMap.lookup_set_of_ne _ hkey] at hbuffer
    exact h.expire now key buffer header hbuffer hheader

/-- What the reassembler does with a fragment. -/
theorem reassembleInbound_fragment (buffers : HashMap FragmentKey InboundFragmentBuffer)
    (hinfo : inboundFragmentInfo packet = some (some info)) :
    reassembleInboundIpFragment now packet buffers =
      ((bufferFor buffers now info).receive info).map fun answer =>
        (answer.1, (TunGateway.expire InboundFragmentBuffer.createdAt now buffers).set
          (inboundKey info) answer.2) := by
  rw [reassembleInboundIpFragment, hinfo]
  dsimp only [bind_eq_bind, bind_some]
  rw [← bufferFor]
  cases (bufferFor buffers now info).receive info with
  | none => rfl
  | some answer => rfl

/-- What the reassembler does with a packet that is none. -/
theorem reassembleInbound_whole (buffers : HashMap FragmentKey InboundFragmentBuffer)
    (hinfo : inboundFragmentInfo packet = some none) :
    reassembleInboundIpFragment now packet buffers = some (.forward packet, buffers) := by
  rw [reassembleInboundIpFragment, hinfo]
  rfl

variable {a : Arrival}

theorem step_of_some {buffers' : HashMap FragmentKey InboundFragmentBuffer}
    (h : reassembleInboundIpFragment a.now a.packet buffers = some (outcome, buffers')) :
    inbound.step buffers a = (some outcome, buffers') := by
  have hreceive : inbound.receive a.now a.packet buffers = some (outcome, buffers') := h
  rw [Reassembler.step, hreceive]

theorem step_of_none (h : reassembleInboundIpFragment a.now a.packet buffers = none) :
    inbound.step buffers a = (none, buffers) := by
  have hreceive : inbound.receive a.now a.packet buffers = none := h
  rw [Reassembler.step, hreceive]

theorem step_eq_none_iff (buffers : HashMap FragmentKey InboundFragmentBuffer) (a : Arrival) :
    (inbound.step buffers a).1 = none ↔
      reassembleInboundIpFragment a.now a.packet buffers = none := by
  cases h : reassembleInboundIpFragment a.now a.packet buffers with
  | none => exact iff_of_true (by rw [step_of_none h]) rfl
  | some answer =>
    refine iff_of_false ?_ nofun
    rw [step_of_some h]
    exact nofun

/-- A fragment is not taken just when it has a short IPv4 header restored. -/
theorem reassembleInbound_eq_none_iff (h : StoredAll buffers)
    (hinfo : inboundFragmentInfo packet = some (some info))
    (hstored : Stored (inboundKey info) info.baseHeader) :
    reassembleInboundIpFragment now packet buffers = none ↔
      ∃ header expected, Completes (bufferFor buffers now info) info header expected ∧
        (∃ a b c d, info.src = .v4 a b c d) ∧ headerLen header + expected ≤ 65535 ∧
        ¬(header = [] ∨ 12 ≤ header.length) := by
  rw [reassembleInbound_fragment buffers hinfo, map_eq_none_iff, receive_eq_none_iff]
  constructor
  · rintro ⟨header, expected, hcompletes, hnone⟩
    exact ⟨header, expected, hcompletes, (restoreInboundHeader_eq_none_iff
      (h.add now hstored hcompletes.begun)).mp hnone⟩
  · rintro ⟨header, expected, hcompletes, hshort⟩
    exact ⟨header, expected, hcompletes, (restoreInboundHeader_eq_none_iff
      (h.add now hstored hcompletes.begun)).mpr hshort⟩

/-- **One packet.** Where all headers are stored under their keys, the reassembler answers a packet
just when it is in range. -/
theorem step_answers_iff (h : StoredAll buffers) (a : Arrival) :
    (inbound.step buffers a).1 ≠ none ↔ InRange buffers a := by
  rw [Ne, step_eq_none_iff]
  by_cases hfragment : IsIpv4Fragment a.packet
  · by_cases hfits : headerLen a.packet ≤ a.packet.length
    · have hinfo := (inboundFragmentInfo_ipv4 hfragment).trans (if_pos hfits)
      rw [reassembleInbound_eq_none_iff h hinfo (stored_ipv4Inbound hfragment hfits)]
      constructor
      · refine fun hnone => ⟨fun _ => hfits, fun _ header expected hcompletes htotal => ?_⟩
        by_contra hshort
        exact hnone ⟨header, expected, hcompletes, ⟨_, _, _, _, rfl⟩, htotal, hshort⟩
      · rintro hrange ⟨header, expected, hcompletes, -, htotal, hshort⟩
        exact hshort (hrange.restored hfragment header expected hcompletes htotal)
    · have hinfo := (inboundFragmentInfo_ipv4 hfragment).trans (if_neg hfits)
      have hnone : reassembleInboundIpFragment a.now a.packet buffers = none := by
        rw [reassembleInboundIpFragment, hinfo]
        rfl
      exact iff_of_false (not_not_intro hnone) fun hrange => hfits (hrange.header hfragment)
  · refine iff_of_true ?_ ⟨fun hyes => absurd hyes hfragment, fun hyes => absurd hyes hfragment⟩
    rcases inboundFragmentInfo_other hfragment with hinfo | ⟨info, hinfo, hstored, groups, hsrc⟩
    · rw [reassembleInbound_whole buffers hinfo]
      exact nofun
    · rw [reassembleInbound_eq_none_iff h hinfo hstored]
      rintro ⟨header, expected, -, ⟨x, y, z, w, hv4⟩, -⟩
      exact nomatch hsrc.symm.trans hv4

/-- The headers stay stored under their keys, whatever arrives. -/
theorem StoredAll.step (h : StoredAll buffers)
    (a : Arrival) : StoredAll (inbound.step buffers a).2 := by
  have hkeeps : ∀ {info}, inboundFragmentInfo a.packet = some (some info) →
      Stored (inboundKey info) info.baseHeader → StoredAll (inbound.step buffers a).2 := by
    intro info hinfo hstored
    have hanswer : reassembleInboundIpFragment a.now a.packet buffers = _ :=
      reassembleInbound_fragment buffers hinfo
    cases hreceive : (bufferFor buffers a.now info).receive info with
    | none =>
      rw [hreceive] at hanswer
      rw [step_of_none hanswer]
      exact h
    | some answer =>
      rw [hreceive] at hanswer
      rw [step_of_some hanswer]
      exact h.set hstored hreceive
  by_cases hfragment : IsIpv4Fragment a.packet
  · by_cases hfits : headerLen a.packet ≤ a.packet.length
    · exact hkeeps ((inboundFragmentInfo_ipv4 hfragment).trans (if_pos hfits))
        (stored_ipv4Inbound hfragment hfits)
    · have hnone : reassembleInboundIpFragment a.now a.packet buffers = none := by
        rw [reassembleInboundIpFragment, (inboundFragmentInfo_ipv4 hfragment).trans (if_neg hfits)]
        rfl
      rw [step_of_none hnone]
      exact h
  · rcases inboundFragmentInfo_other hfragment with hinfo | ⟨info, hinfo, hstored, -⟩
    · rw [step_of_some (reassembleInbound_whole buffers hinfo)]
      exact h
    · exact hkeeps hinfo hstored

/-! ## Runs -/

/-- The headers stay stored under their keys over a run. -/
theorem storedAll_run (arrivals : List Arrival) : StoredAll (run inbound.step ∅ arrivals) :=
  run_invariant inbound.step (fun _ _ _ hbuffer => nomatch hbuffer)
    (fun _ a h => h.step a) arrivals

/-- **The inbound reassembler.** From no buffers on, it answers every packet that arrives if and
only if every packet is in range when it arrives. -/
theorem inbound_answers_iff (arrivals : List Arrival) :
    (∀ answer ∈ trace inbound.step ∅ arrivals, answer.2 ≠ none) ↔
      Along inbound.step InRange ∅ arrivals := by
  induction arrivals using reverseRecOn with
  | nil => exact iff_of_true (fun _ h => nomatch h) trivial
  | append_singleton arrivals a ih =>
    rw [trace_concat, along_concat, ← ih, ← step_answers_iff (storedAll_run arrivals) a]
    constructor
    · intro h
      exact ⟨fun answer hanswer => h answer (mem_append_left _ hanswer),
        h _ (mem_append_right _ (mem_singleton_self _))⟩
    · rintro ⟨hfront, hlast⟩ answer hanswer
      rcases mem_append.mp hanswer with hanswer | hanswer
      · exact hfront answer hanswer
      · rwa [mem_singleton.mp hanswer]

/-- A fragment of twenty octets that claims a header of sixty, from an address to another. -/
def longHeaderFragment : Arrival :=
  ⟨0, [0x4f, 0, 0, 20, 0, 1, 0x20, 0, 64, 17, 0, 0, 10, 0, 0, 1, 10, 0, 0, 2], true⟩

/-- The first fragment of a packet, whose header claims four octets. -/
def shortHeaderFragment : Arrival :=
  ⟨0, [0x41, 0, 0, 20, 0, 1, 0x20, 0, 64, 17, 0, 0, 10, 0, 0, 1, 10, 0, 0, 2], true⟩

/-- The last fragment of that packet, in order. -/
def lastFragment : Arrival :=
  ⟨1, [0x45, 0, 0, 21, 0, 1, 0, 2, 64, 17, 0, 0, 10, 0, 0, 1, 10, 0, 0, 2, 7], true⟩

theorem lastFragment_completes :
    Completes (bufferFor (inbound.step ∅ shortHeaderFragment).2 1 (ipv4Inbound lastFragment.packet))
      (ipv4Inbound lastFragment.packet) [0x41, 0, 0, 20] 17 where
  apart := by decide +kernel
  begun := by decide +kernel
  ended := by decide +kernel
  covered := by
    have hpieces : ((bufferFor (inbound.step ∅ shortHeaderFragment).2 1
        (ipv4Inbound lastFragment.packet)).add (ipv4Inbound lastFragment.packet)).pieces =
        [(0, shortHeaderFragment.packet.drop 4), (16, [7])] := by
      decide +kernel
    have hsort : sortByOffset [(0, shortHeaderFragment.packet.drop 4), (16, [7])] =
        [(0, shortHeaderFragment.packet.drop 4), (16, [7])] := by
      simp [sortByOffset, mergeSort, List.MergeSort.Internal.splitInTwo]
    rw [hpieces, hsort]
    decide

/-- One packet is cut outside of it, and two packets make a header too short to be restored. -/
theorem inbound_out_of_range : (inbound.step ∅ longHeaderFragment).1 = none ∧
      (inbound.step ∅ shortHeaderFragment).1 = some .buffered ∧
      (inbound.step (inbound.step ∅ shortHeaderFragment).2 lastFragment).1 = none := by
  refine ⟨by decide +kernel, by decide +kernel, ?_⟩
  have hstored : StoredAll (inbound.step ∅ shortHeaderFragment).2 :=
    storedAll_run [shortHeaderFragment]
  have hfragment : IsIpv4Fragment lastFragment.packet := by decide +kernel
  have hfits : headerLen lastFragment.packet ≤ lastFragment.packet.length := by decide +kernel
  refine (step_eq_none_iff _ _).mpr ((reassembleInbound_eq_none_iff hstored
    ((inboundFragmentInfo_ipv4 hfragment).trans (if_pos hfits))
    (stored_ipv4Inbound hfragment hfits)).mpr ?_)
  exact ⟨_, _, lastFragment_completes, ⟨_, _, _, _, rfl⟩, by decide, by decide⟩

end SimMaster.TunGateway
