import SimMaster.IkeKeys
import SimMaster.Method

/-!
# ESP frames

An inner packet is padded, with padding that counts its own octets, and followed by the length of
the padding and the type of the packet; this is encrypted, or left as it is by the null cipher,
which has no initialisation vector. The frame puts the identifier and the sequence number in front
and the tag behind. What the tag covers is agreed on: the whole frame, or all of it but the vector.
-/

namespace SimMaster

open Rust Method List

/-- `ESP_HEADER_BYTES`. -/
def espHeaderBytes : ℕ := 8

/-- The errors of `DataplaneStateError` that concern single frames. -/
inductive DataplaneStateError where
  | invalidSaIdentifier
  | sequenceExhausted
  | espPacketTooShort
  | espIntegrityMismatch
  | espInvalidPadding
  | espUnsupportedCipher
  | espUnsupportedIntegrity
  | espRandomFailed
  deriving DecidableEq

/-- `EspProtectedPacketSummary`. -/
structure EspProtectedPacketSummary where
  sequenceNumber : UInt64
  outerFrameBytes : ℕ
  protectedBytes : ℕ
  innerPacketBytes : ℕ
  nextHeader : UInt8
  icvBytes : ℕ
  deriving DecidableEq

/-! ## Algorithms -/

/-- `esp_pad_len`. -/
def espPadLen (payloadLen blockBytes : ℕ) : ℕ :=
  let base := payloadLen + 2
  (blockBytes - base % blockBytes) % blockBytes

/-- `esp_integrity_len`. -/
def espIntegrityLen (integrity : String) : Except DataplaneStateError ℕ :=
  okOr .espUnsupportedIntegrity ((integrityShape integrity).map Prod.snd)

/-- `esp_integrity_tag`. -/
def espIntegrityTag (c : Ciphers) (integrity : String) (key messageWithoutIcv : Bytes) :
    Except DataplaneStateError Bytes := do
  let (algorithm, icvLen) ← okOr .espUnsupportedIntegrity (integrityShape integrity)
  return (c.sign algorithm key messageWithoutIcv).take icvLen

/-- `esp_iv_bytes`. -/
def espIvBytes (encryption : String) : Except DataplaneStateError ℕ :=
  if encryption = "aes_cbc" then .ok 16
  else if encryption = "null" then .ok 0
  else .error .espUnsupportedCipher

/-- `esp_encrypt_cbc`. -/
def espEncryptCbc (c : Ciphers) (encryption : String) (key iv plaintext : Bytes) :
    Except DataplaneStateError Bytes :=
  if encryption = "null" ∧ key.length = 0 then .ok plaintext
  else if encryption = "aes_cbc" ∧ (key.length = 16 ∨ key.length = 32) then
    if iv.length ≠ aesBlock then .error .espUnsupportedCipher
    else .ok (c.aesCbcEncrypt key iv plaintext)
  else .error .espUnsupportedCipher

/-- `esp_decrypt_cbc`. -/
def espDecryptCbc (c : Ciphers) (encryption : String) (key iv ciphertext : Bytes) :
    Except DataplaneStateError Bytes :=
  if encryption = "null" ∧ key.length = 0 then .ok ciphertext
  else if encryption = "aes_cbc" ∧ (key.length = 16 ∨ key.length = 32) then
    if iv.length ≠ aesBlock then .error .espUnsupportedCipher
    else if ¬aesBlock ∣ ciphertext.length then .error .espUnsupportedCipher
    else .ok (c.aesCbcDecrypt key iv ciphertext)
  else .error .espUnsupportedCipher

/-! ## Protecting a packet -/

/-- The checks of `build_esp_frame_metadata`. -/
def buildEspFrameMetadata (saIdentifier : UInt32) (sequenceNumber : UInt64) :
    Except DataplaneStateError Unit := do
  if saIdentifier = 0 then
    throw .invalidSaIdentifier
  if sequenceNumber = 0 ∨ 2 ^ 32 - 1 < sequenceNumber.toNat then
    throw .sequenceExhausted

/-- The packet with its padding, the length of that, and its type. -/
def espPlaintext (innerPacket : Bytes) (nextHeader : UInt8) : Bytes :=
  let padLen := espPadLen innerPacket.length 16
  innerPacket ++ (range padLen).map (fun i => UInt8.ofNat (i + 1)) ++
    [UInt8.ofNat padLen, nextHeader]

/-- The vector of a frame: none under the null cipher, else random. -/
def espIv (random : Option Iv) (ivBytes : ℕ) : Except DataplaneStateError Bytes :=
  if ivBytes = 0 then .ok []
  else (okOr .espRandomFailed random).map Subtype.val

/-- The plaintext as it stands in the frame. -/
def espCiphertext (c : Ciphers) (encryption : String) (key iv plaintext : Bytes) :
    Except DataplaneStateError Bytes :=
  if encryption = "null" then .ok plaintext else espEncryptCbc c encryption key iv plaintext

/-- The identifier and the sequence number. -/
def espHeader (saIdentifier : UInt32) (sequenceNumber : UInt64) : Bytes :=
  be 4 saIdentifier.toNat ++ be 4 (sequenceNumber.toNat % 2 ^ 32)

/-- `protect_inner_packet_for_esp_with_mode`. -/
def protectInnerPacketForEspWithMode (c : Ciphers) (random : Option Iv) (saIdentifier : UInt32)
    (sequenceNumber : UInt64) (innerPacket : Bytes) (nextHeader : UInt8)
    (secrets : ChildSaSecretPair) (icvIncludeIv : Bool) :
    Except DataplaneStateError (Bytes × EspProtectedPacketSummary) := do
  buildEspFrameMetadata saIdentifier sequenceNumber
  let plan := secrets.plan
  let ivBytes ← espIvBytes plan.encryption
  let iv ← espIv random ivBytes
  let ciphertext ← espCiphertext c plan.encryption secrets.outboundEncryption iv
    (espPlaintext innerPacket nextHeader)
  let header := espHeader saIdentifier sequenceNumber
  let icvInput := if icvIncludeIv then header ++ (iv ++ ciphertext) else header ++ ciphertext
  let icv ← espIntegrityTag c plan.integrity secrets.outboundIntegrity icvInput
  let frame := header ++ (iv ++ ciphertext) ++ icv
  return (frame, {
    sequenceNumber, nextHeader
    outerFrameBytes := frame.length
    protectedBytes := frame.length - espHeaderBytes
    innerPacketBytes := innerPacket.length
    icvBytes := icv.length })

/-! ## Recovering a packet -/

/-- `parse_esp_frame_metadata`, of which the sequence number is used. -/
def parseEspFrameMetadata (frame : Bytes) : Except DataplaneStateError UInt64 :=
  if frame.length < espHeaderBytes then .error .espPacketTooShort
  else .ok (.ofNat (fromBe (slice frame 4 8)))

/-- `strip_esp_padding`. -/
def stripEspPadding (plaintext : Bytes) : Except DataplaneStateError (Bytes × UInt8) := do
  if plaintext.length < 2 then
    throw .espInvalidPadding
  let nextHeader := plaintext.getD (plaintext.length - 1) 0
  let padLen := (plaintext.getD (plaintext.length - 2) 0).toNat
  if plaintext.length < 2 + padLen then
    throw .espInvalidPadding
  let payloadEnd := plaintext.length - (2 + padLen)
  let padding := slice plaintext payloadEnd (payloadEnd + padLen)
  if ¬padding.zipIdx.all (fun p => p.1 == UInt8.ofNat (p.2 + 1)) then
    throw .espInvalidPadding
  return (plaintext.take payloadEnd, nextHeader)

/-- The plaintext of what stood in the frame. -/
def espDecrypted (c : Ciphers) (encryption : String) (key iv ciphertext : Bytes) :
    Except DataplaneStateError Bytes :=
  if encryption = "null" then .ok ciphertext else espDecryptCbc c encryption key iv ciphertext

/-- `unprotect_inner_packet_from_esp_with_mode`. -/
def unprotectInnerPacketFromEspWithMode (c : Ciphers) (frame : Bytes) (secrets : ChildSaSecretPair)
    (icvIncludeIv : Bool) : Except DataplaneStateError (Bytes × EspProtectedPacketSummary) := do
  let sequenceNumber ← parseEspFrameMetadata frame
  let plan := secrets.plan
  let icvLen ← espIntegrityLen plan.integrity
  let ivBytes ← espIvBytes plan.encryption
  if frame.length < espHeaderBytes + ivBytes + icvLen then
    throw .espPacketTooShort
  let signedLen := frame.length - icvLen
  let signed := frame.take signedLen
  let ivEnd := espHeaderBytes + ivBytes
  let expectedInput := if icvIncludeIv then signed
    else signed.take espHeaderBytes ++ signed.drop ivEnd
  let expectedIcv ← espIntegrityTag c plan.integrity secrets.inboundIntegrity expectedInput
  if ¬constantTimeEq expectedIcv (frame.drop signedLen) then
    throw .espIntegrityMismatch
  let plaintext ← espDecrypted c plan.encryption secrets.inboundEncryption
    (slice frame espHeaderBytes ivEnd) (slice frame ivEnd signedLen)
  let (innerPacket, nextHeader) ← stripEspPadding plaintext
  return (innerPacket, {
    sequenceNumber, nextHeader
    outerFrameBytes := frame.length
    protectedBytes := frame.length - espHeaderBytes
    innerPacketBytes := innerPacket.length
    icvBytes := icvLen })

/-! ## The round trip -/

variable (innerPacket : Bytes)

theorem length_espPlaintext (nextHeader : UInt8) : (espPlaintext innerPacket nextHeader).length =
      innerPacket.length + espPadLen innerPacket.length 16 + 2 := by
  simp [espPlaintext, Nat.add_assoc]

/-- The padding brings packet and trailer to whole blocks. -/
theorem espPadLen_spec (n : ℕ) : espPadLen n 16 < 16 ∧ 16 ∣ n + espPadLen n 16 + 2 := by
  dsimp only [espPadLen]
  omega

/-- Padding that counts its own octets is stripped. -/
theorem stripEspPadding_append {padding : Bytes} (nextHeader : UInt8) (hlt : padding.length < 256)
    (hall : padding.zipIdx.all (fun p => p.1 == UInt8.ofNat (p.2 + 1)) = true) :
    stripEspPadding (innerPacket ++ padding ++ [UInt8.ofNat padding.length, nextHeader]) =
      .ok (innerPacket, nextHeader) := by
  have hbody : (innerPacket ++ padding).length = innerPacket.length + padding.length :=
    length_append
  have hpadLen : (UInt8.ofNat padding.length).toNat = padding.length := UInt8.toNat_ofNat_of_lt' hlt
  generalize hplain : innerPacket ++ padding ++ [UInt8.ofNat padding.length, nextHeader] = plaintext
  have hlen : plaintext.length = innerPacket.length + padding.length + 2 := by
    rw [← hplain, length_append, hbody]
    rfl
  have hnext : plaintext.getD (plaintext.length - 1) 0 = nextHeader := by
    rw [hlen, ← hplain, getD_append_right _ _ _ _ (by omega), hbody,
      show innerPacket.length + padding.length + 2 - 1 - (innerPacket.length + padding.length) =
        1 by
        omega]
    rfl
  have hpad : (plaintext.getD (plaintext.length - 2) 0).toNat = padding.length := by
    rw [hlen, ← hplain, getD_append_right _ _ _ _ (by omega), hbody, Nat.add_sub_cancel,
      Nat.sub_self]
    exact hpadLen
  have hend : plaintext.length - (2 + padding.length) = innerPacket.length := by omega
  have hslice : slice plaintext innerPacket.length (innerPacket.length + padding.length) =
      padding := by
    rw [slice, ← hplain, append_assoc, drop_left, Nat.add_sub_cancel_left, take_left]
  have htake : plaintext.take innerPacket.length = innerPacket := by
    rw [← hplain, append_assoc, take_left]
  rw [stripEspPadding, if_neg (by omega), hnext, hpad]
  dsimp only
  rw [if_neg (by omega), hend, hslice, if_neg (not_not_intro hall), htake]
  rfl

/-- The padding of a packet counts its own octets. -/
theorem zipIdx_range_all (n : ℕ) :
    ((range n).map fun i => UInt8.ofNat (i + 1)).zipIdx.all
      (fun p => p.1 == UInt8.ofNat (p.2 + 1)) = true := by
  rw [all_eq_true]
  intro p hp
  have hget := List.mem_zipIdx_iff_getElem?.mp hp
  rw [List.getElem?_map, Option.map_eq_some_iff] at hget
  obtain ⟨i, hi, hp⟩ := hget
  obtain ⟨_, hi⟩ := List.getElem?_eq_some_iff.mp hi
  rw [getElem_range] at hi
  rw [beq_iff_eq, ← hp, hi]

theorem stripEspPadding_espPlaintext (nextHeader : UInt8) :
    stripEspPadding (espPlaintext innerPacket nextHeader) = .ok (innerPacket, nextHeader) := by
  have hlen : ((range (espPadLen innerPacket.length 16)).map fun i =>
      UInt8.ofNat (i + 1)).length =
      espPadLen innerPacket.length 16 := by
    rw [length_map, length_range]
  have hlt := (espPadLen_spec innerPacket.length).1
  have hstrip := stripEspPadding_append innerPacket nextHeader (by rw [hlen]; omega)
    (zipIdx_range_all (espPadLen innerPacket.length 16))
  rwa [hlen] at hstrip

/-- The keys of the peer: what goes out here comes in there. -/
def ChildSaSecretPair.reversed (secrets : ChildSaSecretPair) : ChildSaSecretPair where
  outboundEncryption := secrets.inboundEncryption
  outboundIntegrity := secrets.inboundIntegrity
  inboundEncryption := secrets.outboundEncryption
  inboundIntegrity := secrets.outboundIntegrity
  plan := secrets.plan

/-- The algorithms are among those that are implemented, and the key that encrypts has one of the
lengths of AES when it is used. -/
def ChildSaSecretPair.Supported (secrets : ChildSaSecretPair) : Prop :=
  (secrets.plan.encryption = "null" ∨ secrets.plan.encryption = "aes_cbc" ∧
    (secrets.outboundEncryption.length = 16 ∨ secrets.outboundEncryption.length = 32)) ∧
  (integrityShape secrets.plan.integrity).isSome

variable {c : Ciphers} {plaintext : Bytes}

/-- What is encrypted under a supported cipher is decrypted again. -/
theorem espCiphertext_espDecrypted (hc : c.Lawful) {encryption : String} {key : Bytes}
    (hcipher : encryption = "null" ∨ encryption = "aes_cbc" ∧ (key.length = 16 ∨ key.length = 32))
    {random : Option Iv} (hrandom : encryption ≠ "null" → random.isSome)
    (hblocks : aesBlock ∣ plaintext.length) :
    ∃ ivBytes iv ciphertext, espIvBytes encryption = .ok ivBytes ∧ espIv random ivBytes = .ok iv ∧
      iv.length = ivBytes ∧ espCiphertext c encryption key iv plaintext = .ok ciphertext ∧
      ciphertext.length = plaintext.length ∧
      espDecrypted c encryption key iv ciphertext = .ok plaintext := by
  rcases hcipher with rfl | ⟨rfl, hkey⟩
  · exact ⟨0, [], plaintext, rfl, rfl, rfl, rfl, rfl, rfl⟩
  · obtain ⟨iv, rfl⟩ := Option.isSome_iff_exists.mp (hrandom (by decide))
    have hlen := hc.length_encrypt hkey iv.2 hblocks
    refine ⟨16, iv.1, c.aesCbcEncrypt key iv.1 plaintext, rfl, rfl, iv.2, ?_, hlen, ?_⟩
    · rw [espCiphertext, if_neg (by decide), espEncryptCbc, if_neg (by simp), if_pos ⟨rfl, hkey⟩,
        if_neg (not_not_intro iv.2)]
    · rw [espDecrypted, if_neg (by decide), espDecryptCbc, if_neg (by simp), if_pos ⟨rfl, hkey⟩,
        if_neg (not_not_intro iv.2), if_neg (not_not_intro (by rw [hlen]; exact hblocks)),
        hc.decrypt_encrypt hkey iv.2 hblocks]

/-- Every message has a tag, of the announced length. -/
theorem espIntegrityTag_ok (hc : c.Lawful) {integrity : String}
    (h : (integrityShape integrity).isSome) :
    ∃ icvLen, espIntegrityLen integrity = .ok icvLen ∧
      ∀ key message, ∃ tag, espIntegrityTag c integrity key message = .ok tag ∧
        tag.length = icvLen := by
  obtain ⟨⟨algorithm, icvLen⟩, hshape⟩ := Option.isSome_iff_exists.mp h
  refine ⟨icvLen, by rw [espIntegrityLen, hshape]; rfl, fun key message => ?_⟩
  refine ⟨(c.sign algorithm key message).take icvLen, by rw [espIntegrityTag, hshape]; rfl, ?_⟩
  exact length_take_of_le (by rw [hc.length_sign]; exact integrityShape_le hshape)

/-- The peer takes a frame apart as it was put together. -/
theorem unprotect_frame {secrets : ChildSaSecretPair} {icvIncludeIv : Bool}
    {saIdentifier : UInt32} {sequenceNumber : UInt64} (hsequence : sequenceNumber.toNat < 2 ^ 32)
    {iv ciphertext tag innerPacket frame : Bytes} {nextHeader : UInt8}
    (hframe : frame = espHeader saIdentifier sequenceNumber ++ (iv ++ ciphertext) ++ tag)
    (hiv : espIvBytes secrets.plan.encryption = .ok iv.length)
    (hicv : espIntegrityLen secrets.plan.integrity = .ok tag.length)
    (htag : espIntegrityTag c secrets.plan.integrity secrets.inboundIntegrity
      (if icvIncludeIv then espHeader saIdentifier sequenceNumber ++ (iv ++ ciphertext)
        else espHeader saIdentifier sequenceNumber ++ ciphertext) = .ok tag)
    (hdecrypt : espDecrypted c secrets.plan.encryption secrets.inboundEncryption iv ciphertext =
      .ok plaintext)
    (hstrip : stripEspPadding plaintext = .ok (innerPacket, nextHeader)) :
    unprotectInnerPacketFromEspWithMode c frame secrets icvIncludeIv = .ok (innerPacket, {
      sequenceNumber, nextHeader
      outerFrameBytes := frame.length
      protectedBytes := frame.length - espHeaderBytes
      innerPacketBytes := innerPacket.length
      icvBytes := tag.length }) := by
  have hread : slice frame 4 8 = be 4 (sequenceNumber.toNat % 2 ^ 32) := hframe ▸ rfl
  generalize hheader : espHeader saIdentifier sequenceNumber = header at htag hframe
  have hhead : header.length = espHeaderBytes := by
    rw [← hheader, espHeader, length_append, length_be, length_be]
    rfl
  have hfront : (header ++ iv).length = espHeaderBytes + iv.length := by
    rw [length_append, hhead]
  have hsigned : (header ++ (iv ++ ciphertext)).length =
      espHeaderBytes + iv.length + ciphertext.length := by
    rw [← append_assoc, length_append, hfront]
  have hlen : frame.length = espHeaderBytes + iv.length + ciphertext.length + tag.length := by
    rw [hframe, length_append, hsigned]
  have hparse : parseEspFrameMetadata frame = .ok sequenceNumber := by
    rw [parseEspFrameMetadata, if_neg (by omega), hread, Nat.mod_eq_of_lt hsequence,
      fromBe_be hsequence, UInt64.ofNat_toNat]
  have hcut : frame.length - tag.length = (header ++ (iv ++ ciphertext)).length := by omega
  -- the four parts of the frame, cut at the places the peer computes
  have htake : frame.take (frame.length - tag.length) = header ++ (iv ++ ciphertext) := by
    rw [hcut, hframe, take_left]
  have hdrop : frame.drop (frame.length - tag.length) = tag := by
    rw [hcut, hframe, drop_left]
  have hivSlice : slice frame espHeaderBytes (espHeaderBytes + iv.length) = iv := by
    rw [slice, hframe, append_assoc, append_assoc, drop_left' hhead,
      Nat.add_sub_cancel_left, take_left]
  have hcipherSlice : slice frame (espHeaderBytes + iv.length) (frame.length - tag.length) =
      ciphertext := by
    rw [slice, hcut, hsigned, Nat.add_sub_cancel_left, hframe, ← append_assoc,
      append_assoc (header ++ iv), drop_left' hfront, take_left]
  have hinput : (header ++ (iv ++ ciphertext)).take espHeaderBytes ++
      (header ++ (iv ++ ciphertext)).drop (espHeaderBytes + iv.length) = header ++ ciphertext := by
    rw [take_left' hhead, ← append_assoc, drop_left' hfront]
  rw [unprotectInnerPacketFromEspWithMode, hparse, ok_bind]
  dsimp only
  rw [hicv, ok_bind, hiv, ok_bind, if_neg (by omega), htake, hinput, htag, ok_bind, hdrop,
    if_neg (not_not_intro (constantTimeEq_iff.mpr rfl)), hivSlice, hcipherSlice, hdecrypt, ok_bind,
    hstrip]
  rfl

/-- **Round trip of ESP.** A packet that is protected is recovered by the peer, with its type and
the sequence number, and the length of the frame is that of its parts. -/
theorem esp_round_trip (c : Ciphers) (hc : c.Lawful) (random : Option Iv) (saIdentifier : UInt32)
    (hsa : saIdentifier ≠ 0) (sequenceNumber : UInt64)
    (hsequence : sequenceNumber ≠ 0 ∧ sequenceNumber.toNat < 2 ^ 32) (innerPacket : Bytes)
    (nextHeader : UInt8) (secrets : ChildSaSecretPair) (hsupported : secrets.Supported)
    (hrandom : secrets.plan.encryption ≠ "null" → random.isSome) (icvIncludeIv : Bool) :
    ∃ frame sent received ivBytes icvLen,
      protectInnerPacketForEspWithMode c random saIdentifier sequenceNumber innerPacket nextHeader
        secrets icvIncludeIv = .ok (frame, sent) ∧
      unprotectInnerPacketFromEspWithMode c frame secrets.reversed icvIncludeIv =
        .ok (innerPacket, received) ∧
      received.sequenceNumber = sequenceNumber ∧ received.nextHeader = nextHeader ∧
      espIvBytes secrets.plan.encryption = .ok ivBytes ∧
      espIntegrityLen secrets.plan.integrity = .ok icvLen ∧
      frame.length = 8 + ivBytes + (innerPacket.length + espPadLen innerPacket.length 16 + 2) +
        icvLen := by
  have hblocks : aesBlock ∣ (espPlaintext innerPacket nextHeader).length := by
    rw [length_espPlaintext]
    exact (espPadLen_spec innerPacket.length).2
  obtain ⟨ivBytes, iv, ciphertext, hivBytes, hiv, hivLen, hencrypt, hcipherLen, hdecrypt⟩ :=
    espCiphertext_espDecrypted hc hsupported.1 hrandom hblocks
  obtain ⟨icvLen, hicvLen, htags⟩ := espIntegrityTag_ok hc hsupported.2
  obtain ⟨tag, htag, rfl⟩ := htags secrets.outboundIntegrity
    (if icvIncludeIv then espHeader saIdentifier sequenceNumber ++ (iv ++ ciphertext)
      else espHeader saIdentifier sequenceNumber ++ ciphertext)
  subst hivLen
  generalize hframe : espHeader saIdentifier sequenceNumber ++ (iv ++ ciphertext) ++ tag = frame
  have hprotect : protectInnerPacketForEspWithMode c random saIdentifier sequenceNumber innerPacket
      nextHeader secrets icvIncludeIv = .ok (frame, {
        sequenceNumber, nextHeader
        outerFrameBytes := frame.length
        protectedBytes := frame.length - espHeaderBytes
        innerPacketBytes := innerPacket.length
        icvBytes := tag.length }) := by
    have hmetadata : buildEspFrameMetadata saIdentifier sequenceNumber = .ok () := by
      rw [buildEspFrameMetadata, if_neg hsa, if_neg (not_or.mpr ⟨hsequence.1, by omega⟩)]
      rfl
    rw [protectInnerPacketForEspWithMode, hmetadata, ok_bind]
    dsimp only
    rw [hivBytes, ok_bind, hiv, ok_bind, hencrypt, ok_bind, htag, ok_bind, hframe]
    rfl
  have hunprotect : unprotectInnerPacketFromEspWithMode c frame secrets.reversed icvIncludeIv = _ :=
    unprotect_frame hsequence.2 hframe.symm hivBytes hicvLen htag hdecrypt
      (stripEspPadding_espPlaintext innerPacket nextHeader)
  refine ⟨frame, _, _, iv.length, tag.length, hprotect, hunprotect, rfl, rfl, hivBytes, hicvLen, ?_⟩
  rw [← hframe, length_append, length_append, length_append, hcipherLen,
    length_espPlaintext, espHeader, length_append, length_be, length_be]
  omega

/-- AES-128 and HMAC-SHA-1 over three octets. -/
theorem esp_round_trip_sample :
    let ciphers : Ciphers := .ofVectors
      [([1, 2, 3, 1, 2, 3, 4, 5, 6, 7, 8, 9, 10, 11, 11, 4],
        [46, 76, 172, 147, 174, 189, 32, 181, 30, 33, 79, 193, 37, 227, 43, 169])]
      [(replicate 20 0x22, espHeader 0x01020304 7 ++ replicate 16 0x33 ++
          [46, 76, 172, 147, 174, 189, 32, 181, 30, 33, 79, 193, 37, 227, 43, 169],
        [81, 251, 135, 57, 220, 171, 87, 25, 71, 235, 35, 184, 253, 104, 207, 59, 23,
          179, 122, 156])]
    let secrets : ChildSaSecretPair := ⟨replicate 16 0x11, replicate 20 0x22, [], [],
      ⟨"aes_cbc", "hmac_sha1_96", 16, 20, 36, 72⟩⟩
    ∃ frame sent received,
      protectInnerPacketForEspWithMode ciphers (some ⟨replicate 16 0x33, rfl⟩) 0x01020304 7
        [1, 2, 3] 4 secrets true = .ok (frame, sent) ∧
      unprotectInnerPacketFromEspWithMode ciphers frame secrets.reversed true =
        .ok ([1, 2, 3], received) := by
  intro ciphers secrets
  obtain ⟨frame, sent, received, _, _, hsent, hreceived, _⟩ :=
    esp_round_trip ciphers (Ciphers.lawful_ofVectors _ _) (some ⟨replicate 16 0x33, rfl⟩)
      0x01020304 (by decide) 7 (by decide) [1, 2, 3] 4 secrets ⟨.inr ⟨rfl, .inl rfl⟩, rfl⟩
      (fun _ => rfl) true
  exact ⟨frame, sent, received, hsent, hreceived⟩

end SimMaster
