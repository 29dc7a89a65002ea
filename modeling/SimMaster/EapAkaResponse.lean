import SimMaster.EapAkaPeer

/-!
# What the peer answers to a challenge

A request and its response are both a header and a row of attributes, each a type, a length in words
and a value. `parseAttributes_iff` says that reading the row undoes writing it, so that what the
response consists of can be stated by reading it back: `challengeResponse_authenticated`. The codes
of the two packets are stated alike, by `Authenticated`, at the place where the row has them.
-/

namespace SimMaster

namespace EapAka

open Rust Method List Except

/-! ## Rows of attributes -/

/-- The octets of an attribute: the type, the length in words, the value. -/
def attributeEncoding (attr : UInt8 × Bytes) : Bytes :=
  attr.1 :: UInt8.ofNat ((2 + attr.2.length) / 4) :: attr.2

/-- The attribute fills whole words, and no more than the octet of the length can count. -/
structure WholeWords (attr : UInt8 × Bytes) : Prop where
  words : 4 ∣ 2 + attr.2.length
  fits : 2 + attr.2.length ≤ 4 * 255

@[simp] theorem length_attributeEncoding (attr : UInt8 × Bytes) :
    (attributeEncoding attr).length = 2 + attr.2.length := by
  simp only [attributeEncoding, length_cons]
  omega

variable {attr : UInt8 × Bytes}

/-- One attribute is read off the front of the row. -/
theorem parseAttributes_cons (h : WholeWords attr) (rest : Bytes) :
    parseAttributes (attributeEncoding attr ++ rest) =
      (do return attr :: (← parseAttributes rest)) := by
  obtain ⟨attributeType, value⟩ := attr
  obtain ⟨⟨words, hwords⟩, hfits⟩ := h
  obtain ⟨x, y, value, rfl⟩ : ∃ x y tail, value = x :: y :: tail := by
    rcases value with _ | ⟨x, _ | ⟨y, tail⟩⟩
    · simp only [length_nil] at hwords
      omega
    · simp only [length_cons, length_nil] at hwords
      omega
    · exact ⟨x, y, tail, rfl⟩
  simp only [length_cons] at hwords hfits
  have hunits : UInt8.ofNat ((2 + (x :: y :: value).length) / 4) = UInt8.ofNat words := by
    simp only [length_cons]
    rw [show 2 + (value.length + 1 + 1) = 4 * words by omega, Nat.mul_div_cancel_left _ (by omega)]
  have htoNat : (UInt8.ofNat words).toNat = words :=
    UInt8.toNat_ofNat_of_lt' (by rw [UInt8.size]; omega)
  have hzero : UInt8.ofNat words ≠ 0 := by
    intro h
    have := congrArg UInt8.toNat h
    simp only [UInt8.toNat_zero] at this
    omega
  have hlen : words * 4 - 4 = value.length := by omega
  rw [attributeEncoding, hunits]
  simp only [cons_append]
  rw [parseAttributes, if_neg hzero, htoNat, hlen]
  rw [if_neg (by simp only [length_append]; omega), drop_left, take_left]

variable {attributes : List (UInt8 × Bytes)}

/-- **Reading a row undoes writing it**, and only a row is read. -/
theorem parseAttributes_iff {input : Bytes} : parseAttributes input = .ok attributes ↔
      input = attributes.flatMap attributeEncoding ∧ ∀ attr ∈ attributes, WholeWords attr := by
  constructor
  · intro h
    induction input using parseAttributes.induct generalizing attributes with
    | case1 =>
      rw [parseAttributes] at h
      obtain rfl := ok.inj h
      exact ⟨rfl, by simp⟩
    | case2 attributeType x y rest =>
      rw [parseAttributes, if_pos rfl] at h
      exact nomatch h
    | case3 attributeType units x y rest len hzero =>
      rename_i hlen
      rw [parseAttributes, if_neg hzero, if_pos hlen] at h
      exact nomatch h
    | case4 attributeType units x y rest len hzero hlen =>
      rename_i ih
      rw [parseAttributes, if_neg hzero, if_neg hlen] at h
      obtain ⟨tail, htail, h⟩ := bind_eq_ok.mp h
      obtain rfl := ok.inj h
      obtain ⟨hrest, hwhole⟩ : rest.drop (units.toNat * 4 - 4) = tail.flatMap attributeEncoding ∧
          ∀ attr ∈ tail, WholeWords attr := ih htail
      have hpos : 0 < units.toNat := by
        rcases Nat.eq_zero_or_pos units.toNat with hz | hp
        · exact absurd (UInt8.toNat_inj.mp hz) hzero
        · exact hp
      have hlt := units.toNat_lt
      have hvalue : 2 + (x :: y :: rest.take (units.toNat * 4 - 4)).length = 4 * units.toNat := by
        simp only [length_cons, length_take]
        omega
      have hfits : 4 * units.toNat ≤ 4 * 255 := by omega
      refine ⟨?_, forall_mem_cons.mpr ⟨⟨⟨_, hvalue⟩, hvalue.trans_le hfits⟩, hwhole⟩⟩
      rw [flatMap_cons, attributeEncoding, ← hrest, hvalue, Nat.mul_div_cancel_left _ (by omega),
        UInt8.ofNat_toNat]
      simp only [cons_append, take_append_drop]
    | case5 input hnil hcons =>
      rw [parseAttributes.eq_3 input hnil hcons] at h
      exact nomatch h
  · rintro ⟨rfl, hwhole⟩
    induction attributes with
    | nil => rw [flatMap_nil, parseAttributes]
    | cons attr attributes ih =>
      obtain ⟨hattr, hwhole⟩ := forall_mem_cons.mp hwhole
      rw [flatMap_cons, parseAttributes_cons hattr, ih hwhole]
      rfl

/-! ## Where the code is -/

/-- The offset of the code of an attribute that stands behind the given ones. -/
def macFieldOffset (before : List (UInt8 × Bytes)) : ℕ :=
  headerLen + (before.flatMap attributeEncoding).length + 4

/-- The row has a code behind the attributes `before`, and none after it. -/
structure LastMac (attributes before : List (UInt8 × Bytes)) (mac : Bytes) : Prop where
  split : ∃ reserved after, attributes = before ++ (atMac, reserved ++ mac) :: after ∧
    reserved.length = 2 ∧ ∀ attr ∈ after, attr.1 ≠ atMac
  length_mac : mac.length = macLen

/-- The last code of the packet is the keyed code of the packet with zeros in its place. -/
def Authenticated (c : Ciphers) (kAut packet : Bytes) (attributes : List (UInt8 × Bytes)) : Prop :=
  ∃ before mac, LastMac attributes before mac ∧
    slice packet (macFieldOffset before) (macFieldOffset before + macLen) = mac ∧
    mac = calculateMac c kAut (setMac packet (macFieldOffset before) (replicate macLen 0))

variable {packet mac : Bytes} {before : List (UInt8 × Bytes)}

/-- The field of the code is where the row of the packet has it. -/
theorem LastMac.slice (h : LastMac attributes before mac) (hlen : headerLen ≤ packet.length)
    (hrow : packet.drop headerLen = attributes.flatMap attributeEncoding) :
    slice packet (macFieldOffset before) (macFieldOffset before + macLen) = mac := by
  obtain ⟨⟨reserved, after, rfl, hreserved, -⟩, hmac⟩ := h
  have hpacket : packet = (packet.take headerLen ++ before.flatMap attributeEncoding ++
      atMac :: UInt8.ofNat ((2 + (reserved ++ mac).length) / 4) :: reserved) ++
      (mac ++ after.flatMap attributeEncoding) := by
    refine (take_append_drop headerLen packet).symm.trans ?_
    rw [hrow]
    simp [attributeEncoding]
  have hoffset : (packet.take headerLen ++ before.flatMap attributeEncoding ++
      atMac :: UInt8.ofNat ((2 + (reserved ++ mac).length) / 4) :: reserved).length =
      macFieldOffset before := by
    simp only [length_append, length_take, length_cons, hreserved, macFieldOffset]
    omega
  rw [Rust.slice, hpacket, drop_left' hoffset, Nat.add_sub_cancel_left, take_left' hmac]

/-! ## The scan of a challenge -/

/-- What the loop over the attributes has found of them. -/
structure Scanned (attributes : List (UInt8 × Bytes)) (scan : ChallengeScan) : Prop where
  offset : scan.attributeOffset = headerLen + (attributes.flatMap attributeEncoding).length
  requested : scan.resultIndication = attributes.any (·.1 = atResultInd)
  code : ∀ offset, scan.macOffset = some offset →
    ∃ before mac, LastMac attributes before mac ∧ offset = macFieldOffset before

/-- An attribute that carries no code leaves the last one where it is. -/
theorem LastMac.concat (h : LastMac attributes before mac) (hattr : attr.1 ≠ atMac) :
    LastMac (attributes ++ [attr]) before mac := by
  obtain ⟨⟨reserved, after, rfl, hreserved, hafter⟩, hmac⟩ := h
  refine ⟨⟨reserved, after ++ [attr], ?_, hreserved, ?_⟩, hmac⟩
  · rw [append_assoc, cons_append]
  · intro a ha
    rcases mem_append.mp ha with ha | ha
    · exact hafter a ha
    · rwa [mem_singleton.mp ha]

variable {scan next : ChallengeScan}

/-- One attribute that carries no code. -/
theorem Scanned.concat (h : Scanned attributes scan) (hattr : attr.1 ≠ atMac)
    (hoffset : next.attributeOffset = scan.attributeOffset + 2 + attr.2.length)
    (hcode : next.macOffset = scan.macOffset)
    (hrequested :
      next.resultIndication = (scan.resultIndication || decide (attr.1 = atResultInd))) :
    Scanned (attributes ++ [attr]) next where
  offset := by
    rw [hoffset, h.offset, flatMap_append, flatMap_singleton, length_append,
      length_attributeEncoding]
    omega
  requested := by
    rw [hrequested, h.requested, any_append, any_cons, any_nil, Bool.or_false]
  code offset hmac := by
    obtain ⟨before, mac, hlast, rfl⟩ := h.code offset (hcode ▸ hmac)
    exact ⟨before, mac, hlast.concat hattr, rfl⟩

/-- One step of the loop. -/
theorem Scanned.step (h : Scanned attributes scan)
    (hstep : scanChallengeAttribute scan attr = .ok next) :
    Scanned (attributes ++ [attr]) next := by
  obtain ⟨attributeType, value⟩ := attr
  rw [scanChallengeAttribute] at hstep
  split_ifs at hstep with hrand hautn hmac hlen
  · -- a challenge, which is no code and no request for an indication
    obtain ⟨rand, -, hstep⟩ := bind_eq_ok.mp hstep
    obtain rfl := ok.inj hstep
    subst hrand
    exact h.concat (show atRand ≠ atMac by decide) rfl rfl (Bool.or_false _).symm
  · obtain ⟨autn, -, hstep⟩ := bind_eq_ok.mp hstep
    obtain rfl := ok.inj hstep
    subst hautn
    exact h.concat (show atAutn ≠ atMac by decide) rfl rfl (Bool.or_false _).symm
  · exact nomatch hstep
  · -- the code, which is the last one from here on
    obtain rfl := ok.inj hstep
    subst hmac
    have hvalue : value.length = 2 + macLen := not_not.mp hlen
    refine ⟨?_, ?_, fun offset hoffset => ?_⟩
    · dsimp only
      rw [h.offset, flatMap_append, flatMap_singleton, length_append, length_attributeEncoding]
      dsimp only
      omega
    · dsimp only
      rw [h.requested, any_append, any_cons, any_nil]
      exact (Bool.or_false _).symm
    · obtain rfl := Option.some.inj hoffset
      refine ⟨attributes, value.drop 2, ⟨⟨value.take 2, [], ?_, ?_, by simp⟩, ?_⟩, ?_⟩
      · rw [take_append_drop]
      · rw [length_take, hvalue]
        rfl
      · rw [length_drop, hvalue]
        rfl
      · rw [macFieldOffset, h.offset]
  · obtain rfl := ok.inj hstep
    exact h.concat hmac rfl rfl rfl

/-- The whole loop. -/
theorem scanned_of_foldlM
    (h : attributes.foldlM scanChallengeAttribute ⟨none, none, none, false, headerLen⟩ = .ok scan) :
    Scanned attributes scan := by
  induction attributes using reverseRecOn generalizing scan with
  | nil =>
    obtain rfl := ok.inj h
    exact ⟨rfl, rfl, fun offset hoffset => nomatch hoffset⟩
  | append_singleton attributes attr ih =>
    rw [foldlM_append] at h
    obtain ⟨before, hbefore, h⟩ := bind_eq_ok.mp h
    obtain ⟨next, hnext, h⟩ := bind_eq_ok.mp h
    obtain rfl := ok.inj h
    exact (ih hbefore).step hnext

variable {challenge : Challenge}

/-- A challenge that was read has a row of attributes, and the offset of its last code. -/
theorem parseChallenge_ok (h : parseChallenge packet = .ok challenge) :
    ∃ attributes, headerLen ≤ packet.length ∧
      parseAttributes (packet.drop headerLen) = .ok attributes ∧ challenge.packet = packet ∧
      challenge.resultIndication = attributes.any (·.1 = atResultInd) ∧
      ∀ offset, challenge.macOffset = some offset →
        ∃ before mac, LastMac attributes before mac ∧ offset = macFieldOffset before := by
  obtain ⟨attributes, hrequest, h⟩ := bind_eq_ok.mp h
  obtain ⟨scan, hscan, h⟩ := bind_eq_ok.mp h
  obtain ⟨rand, -, h⟩ := bind_eq_ok.mp h
  obtain ⟨autn, -, h⟩ := bind_eq_ok.mp h
  obtain rfl := ok.inj h
  obtain ⟨hlen, hrequest⟩ := guard_eq_ok hrequest
  obtain ⟨-, hrequest⟩ := guard_eq_ok hrequest
  obtain ⟨-, hrequest⟩ := guard_eq_ok hrequest
  obtain ⟨-, hrequest⟩ := guard_eq_ok hrequest
  have hscanned := scanned_of_foldlM hscan
  exact ⟨attributes, not_lt.mp hlen, hrequest, rfl, hscanned.requested, hscanned.code⟩

variable {c : Ciphers}

theorem length_calculateMac (hc : c.Lawful) (kAut packet : Bytes) :
    (calculateMac c kAut packet).length = macLen := by
  rw [calculateMac, length_take, hc.length_hmac]
  rfl

/-- The code of a challenge that verifies is the keyed code of the packet. -/
theorem Authenticated.of_verify (hc : c.Lawful) {keys : KeyMaterial}
    (hparse : parseChallenge packet = .ok challenge)
    (hattributes : parseAttributes (packet.drop headerLen) = .ok attributes)
    (hverify : verifyChallengeMac c challenge keys = .ok ()) :
    Authenticated c keys.kAut packet attributes := by
  obtain ⟨attributes', hlen, hattributes', rfl, -, hcode⟩ := parseChallenge_ok hparse
  obtain rfl := ok.inj (hattributes'.symm.trans hattributes)
  obtain ⟨offset, hoffset, hverify⟩ := bind_eq_ok.mp hverify
  obtain ⟨before, mac, hlast, rfl⟩ := hcode offset (okOr_eq_ok.mp hoffset)
  obtain ⟨hfits, hverify⟩ := guard_eq_ok hverify
  have hslice := hlast.slice hlen (parseAttributes_iff.mp hattributes).1
  refine ⟨before, mac, hlast, hslice, ?_⟩
  have hlengths : mac.length = (calculateMac c keys.kAut (setMac challenge.packet
      (macFieldOffset before) (replicate macLen 0))).length := by
    rw [length_calculateMac hc, hlast.length_mac]
  change (if _ then _ else _) = _ at hverify
  split at hverify
  · exact nomatch hverify
  · next hsame =>
    rw [not_not, hslice, foldl_or_xor_eq_zero, forall_zip_eq_iff hlengths] at hsame
    exact hsame.2

/-! ## The response -/

/-- An attribute whose value is filled up with zeros to whole words. -/
def paddedAttribute (attributeType : UInt8) (value : Bytes) : UInt8 × Bytes :=
  (attributeType, value ++ replicate ((4 - (2 + value.length) % 4) % 4) 0)

/-- What the row of a response to a challenge consists of: the result with its length in bits, the
indication if the request has asked for one, the code. -/
def responseAttributes (res : Bytes) (requested : Bool) (mac : Bytes) : List (UInt8 × Bytes) :=
  paddedAttribute atRes (be 2 (res.length * 8) ++ res) ::
    (if requested then [(atResultInd, [0, 0])] else []) ++ [(atMac, [0, 0] ++ mac)]

variable {octets : Bytes}

theorem attributeOctets_ok {attributeType : UInt8} {value : Bytes}
    (h : attributeOctets attributeType value = .ok octets) :
    octets = attributeEncoding (paddedAttribute attributeType value) ∧
      WholeWords (paddedAttribute attributeType value) := by
  rw [attributeOctets] at h
  split at h
  · exact nomatch h
  · next hfits =>
    obtain rfl := ok.inj h
    have hlen : 2 + (paddedAttribute attributeType value).2.length =
        2 + value.length + (4 - (2 + value.length) % 4) % 4 := by
      simp only [paddedAttribute, length_append, length_replicate]
      omega
    refine ⟨?_, ⟨?_, ?_⟩⟩
    · rw [attributeEncoding, hlen]
      rfl
    · rw [hlen]
      omega
    · rw [hlen]
      omega

variable {res : Bytes}

theorem atResOctets_ok (h : atResOctets res = .ok octets) : res.length ≤ 128 ∧
      octets = attributeEncoding (paddedAttribute atRes (be 2 (res.length * 8) ++ res)) ∧
      WholeWords (paddedAttribute atRes (be 2 (res.length * 8) ++ res)) := by
  rw [atResOctets] at h
  split at h
  · exact nomatch h
  · next hlen => exact ⟨not_lt.mp hlen, attributeOctets_ok h⟩

/-- The octets of the header of a packet with a row of attributes. -/
def packetHeader (code identifier subtype : UInt8) (rowLen : ℕ) : Bytes :=
  [code, identifier] ++ be 2 (headerLen + rowLen) ++ [eapTypeAka, subtype, 0, 0]

@[simp] theorem length_packetHeader (code identifier subtype : UInt8) (rowLen : ℕ) :
    (packetHeader code identifier subtype rowLen).length = headerLen := by
  simp [packetHeader, headerLen]

variable {row : Bytes}

/-- The declared length is the length. -/
theorem declared_packetHeader (code identifier subtype : UInt8)
    (h : headerLen + row.length ≤ 65535) :
    fromBe (slice (packetHeader code identifier subtype row.length ++ row) 2 4) =
      (packetHeader code identifier subtype row.length ++ row).length := by
  have hslice : slice (packetHeader code identifier subtype row.length ++ row) 2 4 =
      be 2 (headerLen + row.length) := by
    rw [slice, packetHeader]
    exact take_left' (length_be _ _)
  rw [hslice, fromBe_be (by omega), length_append, length_packetHeader]

variable {front : Bytes}

/-- Writing a code over as many octets. -/
theorem setMac_append {field back : Bytes} {offset : ℕ} (hoffset : front.length = offset)
    (h : field.length = mac.length) :
    setMac (front ++ (field ++ back)) offset mac = front ++ (mac ++ back) := by
  have hdrop : (front ++ (field ++ back)).drop (offset + mac.length) = back := by
    rw [← append_assoc]
    exact drop_left' (by rw [length_append, hoffset, h])
  rw [setMac, take_left' hoffset, hdrop, append_assoc]

/-- The row of a response in its octets, up to the code. -/
theorem flatMap_responseAttributes (res : Bytes) (requested : Bool) (hmac : mac.length = macLen) :
    (responseAttributes res requested mac).flatMap attributeEncoding =
      (paddedAttribute atRes (be 2 (res.length * 8) ++ res) ::
        if requested then [(atResultInd, [0, 0])] else []).flatMap attributeEncoding ++
        [atMac, 5, 0, 0] ++ mac := by
  rw [responseAttributes, flatMap_append, flatMap_singleton, attributeEncoding,
    length_append, hmac, append_assoc]
  rfl

theorem buildEapPacket_ok {code identifier subtype : UInt8}
    (h : buildEapPacket code identifier subtype row = .ok packet) : headerLen + row.length ≤ 65535 ∧
      packet = packetHeader code identifier subtype row.length ++ row := by
  rw [buildEapPacket] at h
  split at h
  · exact nomatch h
  · next hlen => exact ⟨not_lt.mp hlen, (ok.inj h).symm⟩

/-- The attributes of a response before the code, in their octets. -/
theorem frontAttributes_ok {resultInd : Bytes} {requested : Bool}
    (hres : atResOctets res = .ok front)
    (hresultInd : (if requested = true then attributeOctets atResultInd [0, 0] else .ok []) =
      .ok resultInd) :
    front ++ resultInd = (paddedAttribute atRes (be 2 (res.length * 8) ++ res) ::
        if requested then [(atResultInd, [0, 0])] else []).flatMap attributeEncoding := by
  rw [flatMap_cons, (atResOctets_ok hres).2.1]
  congr 1
  cases requested with
  | false => exact (ok.inj hresultInd).symm
  | true =>
    rw [if_pos rfl] at hresultInd
    exact (attributeOctets_ok hresultInd).1

/-- All attributes of a response fill whole words. -/
theorem wholeWords_responseAttributes (requested : Bool)
    (hres : atResOctets res = .ok front) (hmac : mac.length = macLen) :
    ∀ attr ∈ responseAttributes res requested mac, WholeWords attr := by
  intro attr hattr
  rw [responseAttributes, cons_append, mem_cons, mem_append, mem_singleton] at hattr
  rcases hattr with rfl | hattr | rfl
  · exact (atResOctets_ok hres).2.2
  · cases requested with
    | false => exact nomatch hattr
    | true =>
      obtain rfl := mem_singleton.mp hattr
      exact ⟨by decide, by decide⟩
  · have hlen : 2 + ([0, 0] ++ mac).length = 20 := by
      rw [length_append, hmac]
      rfl
    refine ⟨?_, ?_⟩
    · rw [hlen]
      decide
    · rw [hlen]
      decide

/-- What a response to a challenge was built of. -/
theorem buildChallengeResponse_packet (hc : c.Lawful)
    {identity : Bytes} {aka : UsimAkaApduResult} {response : ResponsePacket}
    (h : buildChallengeResponse c challenge identity aka = .ok response) :
    ∃ mac row before, aka.res.length ≤ 128 ∧
      row = (responseAttributes aka.res challenge.resultIndication mac).flatMap attributeEncoding ∧
      (∀ attr ∈ responseAttributes aka.res challenge.resultIndication mac, WholeWords attr) ∧
      headerLen + row.length ≤ 65535 ∧ response.packet =
        packetHeader eapCodeResponse challenge.identifier subtypeChallenge row.length ++ row ∧
      LastMac (responseAttributes aka.res challenge.resultIndication mac) before mac ∧
      mac = calculateMac c (deriveKeyMaterial c identity aka.ik aka.ck).kAut
        (setMac response.packet (macFieldOffset before) (replicate macLen 0)) := by
  obtain ⟨-, h⟩ := guard_eq_ok h
  obtain ⟨-, h⟩ := guard_eq_ok h
  obtain ⟨⟨⟩, -, h⟩ := bind_eq_ok.mp h
  obtain ⟨res, hres, h⟩ := bind_eq_ok.mp h
  obtain ⟨resultInd, hresultInd, h⟩ := bind_eq_ok.mp h
  obtain ⟨zeros, hzeros, h⟩ := bind_eq_ok.mp h
  obtain ⟨packet, hpacket, h⟩ := bind_eq_ok.mp h
  obtain rfl := ok.inj h
  obtain ⟨hlen, hpacket⟩ := buildEapPacket_ok hpacket
  have hzeros : zeros = [atMac, 5, 0, 0] ++ replicate macLen 0 := (attributeOctets_ok hzeros).1
  have hfront := frontAttributes_ok hres hresultInd
  generalize hmac : calculateMac c (deriveKeyMaterial c identity aka.ik aka.ck).kAut packet = mac
  have hmacLen : mac.length = macLen := hmac ▸ length_calculateMac hc _ _
  have hrow := flatMap_responseAttributes aka.res challenge.resultIndication hmacLen
  rw [← hfront] at hrow
  have hrowLen : ((responseAttributes aka.res challenge.resultIndication mac).flatMap
      attributeEncoding).length = (res ++ resultInd ++ zeros).length := by
    rw [hrow, hzeros]
    simp only [length_append, length_replicate, hmacLen]
    omega
  -- everything that stands before the field of the code
  obtain ⟨head, hhead⟩ : ∃ head, head = packetHeader eapCodeResponse challenge.identifier
      subtypeChallenge (res ++ resultInd ++ zeros).length ++ (res ++ resultInd) ++
      [atMac, 5, 0, 0] := ⟨_, rfl⟩
  have hoffset : head.length = (res ++ resultInd).length + headerLen + 4 := by
    rw [hhead, length_append, length_append, length_packetHeader]
    simp only [length_cons, length_nil]
    omega
  have hcleared : packet = head ++ (replicate macLen 0 ++ []) := by
    rw [hpacket, hhead]
    nth_rewrite 2 [hzeros]
    simp only [append_assoc, append_nil]
  have hset : setMac packet ((res ++ resultInd).length + headerLen + 4) mac = head ++
      (mac ++ []) := by
    rw [hcleared]
    exact setMac_append hoffset (by rw [length_replicate, hmacLen])
  refine ⟨mac, _, paddedAttribute atRes (be 2 (aka.res.length * 8) ++ aka.res) ::
    (if challenge.resultIndication then [(atResultInd, [0, 0])] else []), (atResOctets_ok hres).1,
    rfl, wholeWords_responseAttributes _ hres hmacLen, ?_, ?_, ⟨⟨[0, 0], [], rfl, rfl, by simp⟩,
    hmacLen⟩, ?_⟩
  · rw [hrowLen]
    exact hlen
  · rw [hset, hrowLen, hrow, hhead]
    simp only [append_assoc, append_nil]
  · have hfield : macFieldOffset (paddedAttribute atRes (be 2 (aka.res.length * 8) ++ aka.res) ::
        if challenge.resultIndication then [(atResultInd, [0, 0])] else []) = head.length := by
      rw [macFieldOffset, ← hfront, hoffset]
      omega
    rw [hset, hfield, setMac_append rfl (by rw [length_replicate, hmacLen]), ← hcleared, hmac]

/-- **The response to a challenge.** When a challenge is answered, its code is the keyed code of the
request, and the response declares its length and consists of the result, the indication if it was
asked for, and the code, which is the keyed code of the response. -/
theorem challengeResponse_authenticated {c : Ciphers} (hc : c.Lawful) {packet identity : Bytes}
    {aka : UsimAkaApduResult} {challenge : Challenge} {response : ResponsePacket}
    (hparse : parseChallenge packet = .ok challenge)
    (hbuild : buildChallengeResponse c challenge identity aka = .ok response) : ∃ attributes mac,
      parseAttributes (packet.drop headerLen) = .ok attributes ∧
      Authenticated c (deriveKeyMaterial c identity aka.ik aka.ck).kAut packet attributes ∧
      fromBe (slice response.packet 2 4) = response.packet.length ∧
      fromBe (be 2 (aka.res.length * 8)) = aka.res.length * 8 ∧
      parseAttributes (response.packet.drop headerLen) =
        .ok (responseAttributes aka.res (attributes.any (·.1 = atResultInd)) mac) ∧
      Authenticated c (deriveKeyMaterial c identity aka.ik aka.ck).kAut response.packet
        (responseAttributes aka.res (attributes.any (·.1 = atResultInd)) mac) := by
  obtain ⟨attributes, -, hattributes, -, hrequested, -⟩ := parseChallenge_ok hparse
  obtain ⟨mac, row, before, hres, hrow, hwhole, hlen, hpacket, hlast, hmac⟩ :=
    buildChallengeResponse_packet hc hbuild
  rw [hrequested] at hrow hwhole hlast
  have hdrop : response.packet.drop headerLen = row := by
    rw [hpacket]
    exact drop_left' (length_packetHeader _ _ _ _)
  refine ⟨attributes, mac, hattributes, ?_, ?_, ?_, ?_, ?_⟩
  · exact Authenticated.of_verify hc hparse hattributes (buildChallengeResponse_ok hbuild).2
  · rw [hpacket]
    exact declared_packetHeader _ _ _ hlen
  · exact fromBe_be (by omega)
  · rw [hdrop, parseAttributes_iff]
    exact ⟨hrow, hwhole⟩
  · refine ⟨before, mac, hlast, hlast.slice ?_ (hdrop.trans hrow), hmac⟩
    rw [hpacket, length_append, length_packetHeader]
    exact Nat.le_add_right _ _

/-- The answer of the card to the challenge of the sample. -/
def sampleResult : UsimAkaApduResult :=
  ⟨replicate 8 0x33, replicate 16 0x44, replicate 16 0x55, none⟩

/-- The challenge of the sample is answered, and the response authenticates itself. -/
theorem challengeResponse_authenticated_sample :
    ∃ (challenge : Challenge) (response : ResponsePacket) (attributes : List (UInt8 × Bytes))
        (mac : Bytes), parseChallenge (sampleRequest sampleMac) = .ok challenge ∧
      buildChallengeResponse sampleDigests challenge [48] sampleResult = .ok response ∧
      parseAttributes (response.packet.drop headerLen) =
        .ok (responseAttributes sampleResult.res (attributes.any (·.1 = atResultInd)) mac) ∧
      Authenticated sampleDigests
        (deriveKeyMaterial sampleDigests [48] sampleResult.ik sampleResult.ck).kAut response.packet
        (responseAttributes sampleResult.res (attributes.any (·.1 = atResultInd)) mac) := by
  have hlawful : sampleDigests.Lawful := Ciphers.lawful_ofVectors _ _
  have hparse : parseChallenge (sampleRequest sampleMac) =
      .ok ⟨7, replicate 16 0x11, replicate 16 0x22, true, false,
        sampleRequest sampleMac, some 52⟩ := by
    decide +kernel
  have hbuild : (buildChallengeResponse sampleDigests ⟨7, replicate 16 0x11,
      replicate 16 0x22, true, false, sampleRequest sampleMac, some 52⟩ [48]
      sampleResult).toOption.isSome = true := by
    decide +kernel
  obtain ⟨response, hresponse⟩ := Option.isSome_iff_exists.mp hbuild
  have hresponse : buildChallengeResponse sampleDigests ⟨7, replicate 16 0x11,
      replicate 16 0x22, true, false, sampleRequest sampleMac, some 52⟩ [48] sampleResult =
      .ok response := toOption_eq_some.mp hresponse
  obtain ⟨attributes, mac, -, -, -, -, hrow, hauthenticated⟩ :=
    challengeResponse_authenticated hlawful hparse hresponse
  exact ⟨_, response, attributes, mac, hparse, hresponse, hrow, hauthenticated⟩

end EapAka

end SimMaster
