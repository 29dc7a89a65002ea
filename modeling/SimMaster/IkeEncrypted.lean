import SimMaster.IkeCodec
import SimMaster.IkeKeys
import SimMaster.Method

/-!
# The encrypted payload of IKE

The payloads of an exchange under keys travel inside one payload: chained as in a message, padded to
whole blocks, encrypted, and followed by a tag over everything in front of it. The type of the first
inner payload stands where the type of the payload behind would, and both lengths count the tag,
which is only appended once they are written.
-/

namespace SimMaster

open Rust Method List Option Except

/-- `IkeSkDirection`. -/
inductive IkeSkDirection where
  | initiatorToResponder
  | responderToInitiator
  deriving DecidableEq

/-- `EncryptedPayloadError`. -/
inductive EncryptedPayloadError where
  | unsupportedCipher (cipher : String)
  | unsupportedIntegrity (integrity : String)
  | emptyInnerPayloads
  | randomFailed
  | packetTooLarge (size : ℕ)
  | integrityMismatch
  | invalidEncryptedPayload
  | invalidPadding
  | codec (error : IkeCodecError)
  deriving DecidableEq

/-- The key that encrypts in a direction. -/
def IkeSecretBundle.encryptionKey (bundle : IkeSecretBundle) : IkeSkDirection → Bytes
  | .initiatorToResponder => bundle.skEi
  | .responderToInitiator => bundle.skEr

/-- The key that authenticates in a direction. -/
def IkeSecretBundle.integrityKey (bundle : IkeSecretBundle) : IkeSkDirection → Bytes
  | .initiatorToResponder => bundle.skAi
  | .responderToInitiator => bundle.skAr

/-! ## Algorithms -/

/-- `cipher_shape`: the octets of the initialisation vector and of a block. -/
def cipherShape (plan : IkeKeySchedulePlan) : Except EncryptedPayloadError (ℕ × ℕ) :=
  if plan.encryption = "aes_cbc" then .ok (16, 16) else .error (.unsupportedCipher plan.encryption)

/-- `integrity_len`. -/
def integrityLen (plan : IkeKeySchedulePlan) : Except EncryptedPayloadError ℕ :=
  okOr (.unsupportedIntegrity plan.integrity) ((integrityShape plan.integrity).map Prod.snd)

/-- `encrypt_cbc`. -/
def encryptCbc (c : Ciphers) (plan : IkeKeySchedulePlan) (key iv plaintext : Bytes) :
    Except EncryptedPayloadError Bytes :=
  if plan.encryption = "aes_cbc" ∧ (key.length = 16 ∨ key.length = 32) then
    if iv.length ≠ aesBlock then .error .invalidEncryptedPayload
    else .ok (c.aesCbcEncrypt key iv plaintext)
  else .error (.unsupportedCipher plan.encryption)

/-- `decrypt_cbc`, which without padding refuses a part of a block. -/
def decryptCbc (c : Ciphers) (plan : IkeKeySchedulePlan) (key iv ciphertext : Bytes) :
    Except EncryptedPayloadError Bytes :=
  if plan.encryption = "aes_cbc" ∧ (key.length = 16 ∨ key.length = 32) then
    if iv.length ≠ aesBlock then .error .invalidEncryptedPayload
    else if ¬aesBlock ∣ ciphertext.length then .error .invalidEncryptedPayload
    else .ok (c.aesCbcDecrypt key iv ciphertext)
  else .error (.unsupportedCipher plan.encryption)

/-- `integrity_tag`. -/
def integrityTag (c : Ciphers) (plan : IkeKeySchedulePlan) (key messageWithoutIcv : Bytes)
    (icvBytes : ℕ) : Except EncryptedPayloadError Bytes := do
  let shape ← okOr (.unsupportedIntegrity plan.integrity) (integrityShape plan.integrity)
  return (c.sign shape.1 key messageWithoutIcv).take icvBytes

/-! ## Building -/

/-- `padding_len_for_block`. -/
def paddingLenForBlock (lengthWithPadLenByte blockBytes : ℕ) : ℕ :=
  let rem := lengthWithPadLenByte % blockBytes
  if rem = 0 then 0 else blockBytes - rem

/-- `encode_inner_payload_chain`. -/
def encodeInnerPayloadChain (payloads : List IkePayload) : Except EncryptedPayloadError Bytes :=
  encodePayloadChain .packetTooLarge payloads

/-- The plaintext of `build_encrypted_payload`: the chain, its padding and the length of that. -/
def paddedInnerPayloads (blockBytes : ℕ) (innerPayloads : List IkePayload) :
    Except EncryptedPayloadError Bytes := do
  let plaintext ← encodeInnerPayloadChain innerPayloads
  let paddingLen := paddingLenForBlock (plaintext.length + 1) blockBytes
  return plaintext ++ ((range paddingLen).map UInt8.ofNat ++ [UInt8.ofNat paddingLen])

/-- `build_encrypted_payload`, with the octets the random source gave, if it did. -/
def buildEncryptedPayload (c : Ciphers) (random : Option Iv) (bundle : IkeSecretBundle)
    (direction : IkeSkDirection) (innerPayloads : List IkePayload) :
    Except EncryptedPayloadError IkePayload := do
  if innerPayloads.isEmpty then
    throw .emptyInnerPayloads
  let (_, blockBytes) ← cipherShape bundle.plan
  let _ ← integrityLen bundle.plan
  let plaintext ← paddedInnerPayloads blockBytes innerPayloads
  let iv ← okOr .randomFailed random
  let ciphertext ← encryptCbc c bundle.plan (bundle.encryptionKey direction) iv.1 plaintext
  return ⟨.encrypted, false, iv.1 ++ ciphertext⟩

/-- `encode_message_with_first_encrypted_inner_payload`. -/
def encodeMessageWithFirstEncryptedInnerPayload (message : IkeMessage)
    (firstInnerPayload : IkePayloadType) (icvBytes : ℕ) : Except EncryptedPayloadError Bytes := do
  let encrypted ← okOr .invalidEncryptedPayload
    (message.payloads.head?.filter (·.payloadType = .encrypted))
  let payloadLen := 4 + encrypted.body.length + icvBytes
  if 65535 < payloadLen then
    throw (.packetTooLarge payloadLen)
  let totalLen := 28 + payloadLen
  if 2 ^ 32 - 1 < totalLen then
    throw (.packetTooLarge totalLen)
  return encodeHeader message.header .encrypted totalLen ++
    (firstInnerPayload.asU8 :: criticalOctet encrypted.critical ::
      (be 2 payloadLen ++ encrypted.body))

/-- `encode_encrypted_message`. -/
def encodeEncryptedMessage (c : Ciphers) (message : IkeMessage) (firstInnerPayload : IkePayloadType)
    (bundle : IkeSecretBundle) (direction : IkeSkDirection) :
    Except EncryptedPayloadError Bytes := do
  let icvBytes ← integrityLen bundle.plan
  let encoded ← encodeMessageWithFirstEncryptedInnerPayload message firstInnerPayload icvBytes
  let tag ← integrityTag c bundle.plan (bundle.integrityKey direction) encoded icvBytes
  return encoded ++ tag

/-! ## Reading -/

/-- `encrypted_body_from_encoded_message`: the type of the first inner payload, the body and the
tag.
-/
def encryptedBodyFromEncodedMessage (encoded : Bytes) (icvBytes : ℕ) :
    Except EncryptedPayloadError (IkePayloadType × Bytes × Bytes) := do
  if encoded.length < 32 ∨ encoded.getD 16 0 ≠ IkePayloadType.asU8 .encrypted then
    throw .invalidEncryptedPayload
  let declared := fromBe (slice encoded 24 28)
  if declared ≠ encoded.length then
    throw .invalidEncryptedPayload
  let firstInnerPayload := IkePayloadType.fromU8 (encoded.getD 28 0)
  let payloadLen := fromBe (slice encoded 30 32)
  if payloadLen < 4 ∨ 28 + payloadLen ≠ encoded.length then
    throw .invalidEncryptedPayload
  let bodyWithIcv := encoded.drop 32
  if bodyWithIcv.length < icvBytes then
    throw .invalidEncryptedPayload
  return (firstInnerPayload, bodyWithIcv.take (bodyWithIcv.length - icvBytes),
    bodyWithIcv.drop (bodyWithIcv.length - icvBytes))

/-- `strip_padding`. -/
def stripPadding (plaintext : Bytes) : Except EncryptedPayloadError Bytes :=
  match plaintext.getLast? with
  | none => .error .invalidPadding
  | some padLen =>
    let body := plaintext.dropLast
    if body.length < padLen.toNat then .error .invalidPadding
    else .ok (body.take (body.length - padLen.toNat))

/-- `decode_inner_payload_chain`: payloads, as long as there are octets. -/
def decodeInnerPayloadChain (current : IkePayloadType) (input : Bytes) :
    Except EncryptedPayloadError (List IkePayload) :=
  match input with
  | [] => .ok []
  | next :: flags :: hi :: lo :: rest =>
    let len := fromBe [hi, lo]
    if len < 4 ∨ rest.length < len - 4 then .error .invalidEncryptedPayload
    else do
      let payloads ← decodeInnerPayloadChain (.fromU8 next) (rest.drop (len - 4))
      return ⟨current, flags &&& 0x80 ≠ 0, rest.take (len - 4)⟩ :: payloads
  | _ => .error .invalidEncryptedPayload
termination_by input.length
decreasing_by
  simp only [length_cons, length_drop]
  omega

/-- `decrypt_encrypted_payload_body`. -/
def decryptEncryptedPayloadBody (c : Ciphers) (plan : IkeKeySchedulePlan) (encryptionKey : Bytes)
    (firstInnerPayload : IkePayloadType) (body : Bytes) :
    Except EncryptedPayloadError (List IkePayload) := do
  let (ivBytes, blockBytes) ← cipherShape plan
  if body.length ≤ ivBytes ∨ ¬blockBytes ∣ body.length - ivBytes then
    throw .invalidEncryptedPayload
  let plaintext ← decryptCbc c plan encryptionKey (body.take ivBytes) (body.drop ivBytes)
  let plaintext ← stripPadding plaintext
  decodeInnerPayloadChain firstInnerPayload plaintext

/-- `decrypt_encrypted_payload_from_message`. -/
def decryptEncryptedPayloadFromMessage (c : Ciphers) (encodedMessage : Bytes)
    (bundle : IkeSecretBundle) (direction : IkeSkDirection) :
    Except EncryptedPayloadError (List IkePayload) := do
  let icvBytes ← integrityLen bundle.plan
  if encodedMessage.length < icvBytes + 32 then
    throw .invalidEncryptedPayload
  let (firstInnerPayload, encryptedBody, receivedIcv) ←
    encryptedBodyFromEncodedMessage encodedMessage icvBytes
  let messageWithoutIcv := encodedMessage.take (encodedMessage.length - icvBytes)
  let expected ← integrityTag c bundle.plan (bundle.integrityKey direction)
    messageWithoutIcv icvBytes
  if ¬constantTimeEq expected receivedIcv then
    throw .integrityMismatch
  decryptEncryptedPayloadBody c bundle.plan (bundle.encryptionKey direction) firstInnerPayload
    encryptedBody

/-! ## Reading what was built -/

variable {body : Bytes}

theorem decodeInnerPayloadChain_payload (current : IkePayloadType) (next flags : UInt8)
    (hlen : genericPayloadHeaderLen + body.length < 256 ^ 2) (rest : Bytes) :
    decodeInnerPayloadChain current (next :: flags ::
        (be 2 (genericPayloadHeaderLen + body.length) ++ (body ++ rest))) =
      (decodeInnerPayloadChain (.fromU8 next) rest).map fun payloads =>
        ⟨current, flags &&& 0x80 ≠ 0, body⟩ :: payloads := by
  obtain ⟨hi, lo, hbe⟩ : ∃ hi lo, be 2 (genericPayloadHeaderLen + body.length) = [hi, lo] :=
    ⟨_, _, rfl⟩
  have hread : fromBe [hi, lo] = 4 + body.length := by
    rw [← hbe, fromBe_be hlen, genericPayloadHeaderLen]
  have hbody : 4 + body.length - 4 = body.length := Nat.add_sub_cancel_left _ _
  rw [hbe, cons_append, cons_append, nil_append, decodeInnerPayloadChain.eq_def]
  simp only [hread, hbody]
  rw [if_neg (by rw [length_append]; omega), drop_left, take_left]
  cases decodeInnerPayloadChain (.fromU8 next) rest with
  | error e => rfl
  | ok payloads => rfl

/-- The inner chain is read back. -/
theorem decodeInnerPayloadChain_encode {payloads : List IkePayload} {chain : Bytes}
    (hcanonical : ∀ p ∈ payloads, p.payloadType.Canonical)
    (h : encodeInnerPayloadChain payloads = .ok chain) :
    decodeInnerPayloadChain (firstPayloadType payloads) chain = .ok payloads := by
  rw [encodeInnerPayloadChain] at h
  induction payloads generalizing chain with
  | nil =>
    obtain rfl : [] = chain := ok.inj h
    rw [decodeInnerPayloadChain.eq_def]
  | cons payload rest ih =>
    rw [encodePayloadChain] at h
    split at h
    · cases h
    next hlen =>
    obtain ⟨tail, htail, h⟩ := bind_eq_ok.mp h
    obtain rfl := ok.inj h
    have hrest := ih (fun p hp => hcanonical p (mem_cons_of_mem _ hp)) htail
    have hnext : IkePayloadType.fromU8 (firstPayloadType rest).asU8 = firstPayloadType rest := by
      cases rest with
      | nil => rfl
      | cons next _ => exact hcanonical next (by simp)
    have hfits : genericPayloadHeaderLen + payload.body.length < 256 ^ 2 := by omega
    rw [decodeInnerPayloadChain_payload _ _ _ hfits, hnext, hrest, criticalOctet_and]
    rfl

variable {innerPayloads : List IkePayload} {padded : Bytes}

/-- The padding brings the plaintext to whole blocks, and is stripped again. -/
theorem paddedInnerPayloads_ok (h : paddedInnerPayloads 16 innerPayloads = .ok padded) :
    aesBlock ∣ padded.length ∧ ∃ chain, encodeInnerPayloadChain innerPayloads = .ok chain ∧
      stripPadding padded = .ok chain := by
  obtain ⟨chain, hchain, h⟩ := bind_eq_ok.mp h
  obtain rfl := ok.inj h
  have hpad : paddingLenForBlock (chain.length + 1) 16 < 16 ∧
      16 ∣ chain.length + 1 + paddingLenForBlock (chain.length + 1) 16 := by
    dsimp only [paddingLenForBlock]
    split <;> omega
  generalize paddingLenForBlock (chain.length + 1) 16 = padding at hpad ⊢
  obtain ⟨hlt, hdvd⟩ := hpad
  refine ⟨?_, chain, hchain, ?_⟩
  · rw [aesBlock]
    simp only [length_append, length_map, length_range, length_singleton]
    omega
  · have hlast : (UInt8.ofNat padding).toNat = padding :=
      UInt8.toNat_ofNat_of_lt' (hlt.trans (by decide))
    rw [← append_assoc, stripPadding, getLast?_concat, dropLast_concat]
    dsimp only
    have hlen : (chain ++ (range padding).map UInt8.ofNat).length - padding =
        chain.length := by
      simp
    rw [hlast, if_neg (by simp), hlen, take_left]

variable {plan : IkeKeySchedulePlan} {icvBytes : ℕ}

theorem integrityLen_ok (h : integrityLen plan = .ok icvBytes) :
    ∃ algorithm, integrityShape plan.integrity = some (algorithm, icvBytes) := by
  obtain ⟨⟨algorithm, n⟩, hshape, rfl⟩ := map_eq_some_iff.mp (okOr_eq_ok.mp h)
  exact ⟨algorithm, hshape⟩

variable {c : Ciphers} {key tag : Bytes}

/-- A tag has the announced length. -/
theorem length_integrityTag (hc : c.Lawful)
    {message : Bytes} (hicv : integrityLen plan = .ok icvBytes)
    (h : integrityTag c plan key message icvBytes = .ok tag) : tag.length = icvBytes := by
  obtain ⟨algorithm, hshape⟩ := integrityLen_ok hicv
  obtain ⟨shape, hs, h⟩ := bind_eq_ok.mp h
  obtain rfl := some.inj (hshape.symm.trans (okOr_eq_ok.mp hs))
  obtain rfl := ok.inj h
  exact length_take_of_le (by rw [hc.length_sign]; exact integrityShape_le hshape)

variable {bundle : IkeSecretBundle} {direction : IkeSkDirection} {payload : IkePayload}

/-- What a built payload holds. -/
theorem buildEncryptedPayload_ok {random : Option Iv}
    (h : buildEncryptedPayload c random bundle direction innerPayloads = .ok payload) :
    ∃ (iv : Iv) (padded : Bytes), paddedInnerPayloads 16 innerPayloads = .ok padded ∧
      bundle.plan.encryption = "aes_cbc" ∧ ((bundle.encryptionKey direction).length = 16 ∨
        (bundle.encryptionKey direction).length = 32) ∧ payload = ⟨.encrypted, false,
        iv.1 ++ c.aesCbcEncrypt (bundle.encryptionKey direction) iv.1 padded⟩ := by
  obtain ⟨-, h⟩ := guard_eq_ok h
  obtain ⟨⟨ivBytes, blockBytes⟩, hshape, h⟩ := bind_eq_ok.mp h
  obtain ⟨_, -, h⟩ := bind_eq_ok.mp h
  obtain ⟨padded, hpadded, h⟩ := bind_eq_ok.mp h
  obtain ⟨iv, -, h⟩ := bind_eq_ok.mp h
  obtain ⟨ciphertext, hcipher, h⟩ := bind_eq_ok.mp h
  obtain rfl := ok.inj h
  rw [cipherShape] at hshape
  split at hshape
  next haes =>
    obtain ⟨-, rfl⟩ := Prod.mk.inj (ok.inj hshape)
    rw [encryptCbc] at hcipher
    split at hcipher
    next hkey =>
      rw [if_neg (not_not_intro iv.2)] at hcipher
      obtain rfl := ok.inj hcipher
      exact ⟨iv, padded, hpadded, haes, hkey.2, rfl⟩
    next => exact nomatch hcipher
  next => exact nomatch hshape

/-- The octets of an encoded message: header, payload header, body and tag, with both lengths. -/
theorem encodeEncryptedMessage_ok {message : IkeMessage} {first : IkePayloadType} {encoded : Bytes}
    (hfirst : message.payloads.head? = some payload)
    (h : encodeEncryptedMessage c message first bundle direction = .ok encoded) :
    ∃ icvBytes tag, integrityLen bundle.plan = .ok icvBytes ∧
      4 + payload.body.length + icvBytes < 256 ^ 2 ∧
      let signed := encodeHeader message.header
        .encrypted (28 + (4 + payload.body.length + icvBytes)) ++
        (first.asU8 :: criticalOctet payload.critical ::
          (be 2 (4 + payload.body.length + icvBytes) ++ payload.body))
      integrityTag c bundle.plan (bundle.integrityKey direction) signed icvBytes = .ok tag ∧
        encoded = signed ++ tag := by
  obtain ⟨icvBytes, hicv, h⟩ := bind_eq_ok.mp h
  obtain ⟨signed, hsigned, h⟩ := bind_eq_ok.mp h
  obtain ⟨tag, htag, h⟩ := bind_eq_ok.mp h
  obtain rfl := ok.inj h
  obtain ⟨encrypted, hencrypted, hsigned⟩ := bind_eq_ok.mp hsigned
  obtain ⟨hfits, hsigned⟩ := guard_eq_ok hsigned
  obtain ⟨-, hsigned⟩ := guard_eq_ok hsigned
  obtain rfl := ok.inj hsigned
  rw [okOr_eq_ok, hfirst, filter_eq_some_iff] at hencrypted
  obtain rfl := some.inj hencrypted.1
  exact ⟨icvBytes, tag, hicv, by omega, htag, rfl⟩

/-- The reader finds the parts of an encoded message. -/
theorem encryptedBodyFromEncodedMessage_encoded (header : IkeHeader) (first : IkePayloadType)
    (critical : UInt8) (hfits : 4 + body.length + tag.length < 256 ^ 2) :
    encryptedBodyFromEncodedMessage
        (encodeHeader header .encrypted (28 + (4 + body.length + tag.length)) ++
          (first.asU8 :: critical :: (be 2 (4 + body.length + tag.length) ++ body)) ++ tag)
        tag.length = .ok (.fromU8 first.asU8, body, tag) := by
  obtain ⟨encoded, hencoded⟩ : ∃ encoded, encoded =
      encodeHeader header .encrypted (28 + (4 + body.length + tag.length)) ++
        (first.asU8 :: critical :: (be 2 (4 + body.length + tag.length) ++ body)) ++ tag := ⟨_, rfl⟩
  have hlen : encoded.length = 28 + (4 + body.length + tag.length) := by
    rw [hencoded, length_append, length_append, length_encodeHeader]
    simp only [length_cons, length_append, length_be, ikeHeaderLen]
    omega
  have htype : encoded.getD 16 0 = IkePayloadType.asU8 .encrypted := hencoded ▸ rfl
  have hdeclared : slice encoded 24 28 = be 4 (28 + (4 + body.length + tag.length)) :=
    hencoded ▸ rfl
  have hfirst : encoded.getD 28 0 = first.asU8 := hencoded ▸ rfl
  have hpayload : slice encoded 30 32 = be 2 (4 + body.length + tag.length) := hencoded ▸ rfl
  have hbody : encoded.drop 32 = body ++ tag := hencoded ▸ rfl
  have hcut : (body ++ tag).length - tag.length = body.length := by
    rw [length_append, Nat.add_sub_cancel]
  rw [← hencoded, encryptedBodyFromEncodedMessage]
  dsimp only
  rw [hdeclared, hpayload, hbody, fromBe_be (show _ < 256 ^ 4 by omega), fromBe_be hfits, htype,
    hlen, hfirst, hcut, take_left, drop_left]
  rw [if_neg (not_or.mpr ⟨by omega, not_not_intro rfl⟩), if_neg (not_not_intro rfl),
    if_neg (not_or.mpr ⟨by omega, not_not_intro rfl⟩), if_neg (by rw [length_append]; omega)]
  rfl

/-- The body that was encrypted is decrypted. -/
theorem decryptEncryptedPayloadBody_encrypted (hc : c.Lawful) (haes : plan.encryption = "aes_cbc")
    (hkey : key.length = 16 ∨ key.length = 32) (iv : Iv)
    (hcanonical : ∀ p ∈ innerPayloads, p.payloadType.Canonical)
    (hpadded : paddedInnerPayloads 16 innerPayloads = .ok padded) :
    decryptEncryptedPayloadBody c plan key (firstPayloadType innerPayloads)
      (iv.1 ++ c.aesCbcEncrypt key iv.1 padded) = .ok innerPayloads := by
  obtain ⟨hblocks, chain, hchain, hstrip⟩ := paddedInnerPayloads_ok hpadded
  have hiv : iv.1.length = 16 := iv.2
  have hcipher := hc.length_encrypt hkey iv.2 hblocks
  have hcut : (iv.1 ++ c.aesCbcEncrypt key iv.1 padded).length - 16 = padded.length := by
    rw [length_append, hiv, hcipher, Nat.add_sub_cancel_left]
  -- even an empty chain is padded to a block
  have hpos : 0 < padded.length := by
    rcases Nat.eq_zero_or_pos padded.length with hzero | hpos
    · rw [eq_nil_of_length_eq_zero hzero] at hstrip
      exact nomatch hstrip
    · exact hpos
  have hshape : cipherShape plan = .ok (16, 16) := if_pos haes
  have hdecrypt : decryptCbc c plan key iv.1 (c.aesCbcEncrypt key iv.1 padded) = .ok padded := by
    rw [decryptCbc, if_pos ⟨haes, hkey⟩, if_neg (not_not_intro iv.2),
      if_neg (not_not_intro (by rw [hcipher]; exact hblocks)), hc.decrypt_encrypt hkey iv.2 hblocks]
  rw [decryptEncryptedPayloadBody, hshape, ok_bind]
  dsimp only
  rw [if_neg, take_left' hiv, drop_left' hiv, hdecrypt, ok_bind, hstrip, ok_bind,
    decodeInnerPayloadChain_encode hcanonical hchain]
  rw [hcut, length_append, hiv, hcipher, not_or, not_not]
  exact ⟨by omega, hblocks⟩

/-- **Round trip of the encrypted payload.** Whatever payloads of canonical types are put into an
encrypted payload and sent in a message, the receiver with the same keys gets them back; the length
in the header is that of the message, and what was encrypted are whole blocks. -/
theorem encrypted_payload_round_trip (c : Ciphers) (hc : c.Lawful) (random : Option Iv)
    (bundle : IkeSecretBundle) (direction : IkeSkDirection) (innerPayloads : List IkePayload)
    (hcanonical : ∀ p ∈ innerPayloads, p.payloadType.Canonical) (payload : IkePayload)
    (hbuild : buildEncryptedPayload c random bundle direction innerPayloads = .ok payload)
    (message : IkeMessage) (hmessage : message.payloads.head? = some payload) (encoded : Bytes)
    (hencode : encodeEncryptedMessage c message (firstPayloadType innerPayloads) bundle direction =
      .ok encoded) :
    decryptEncryptedPayloadFromMessage c encoded bundle direction = .ok innerPayloads ∧
      fromBe (slice encoded 24 28) = encoded.length ∧
      ∃ padded, paddedInnerPayloads 16 innerPayloads = .ok padded ∧ 16 ∣ padded.length := by
  obtain ⟨iv, padded, hpadded, haes, hkey, rfl⟩ := buildEncryptedPayload_ok hbuild
  obtain ⟨icvBytes, tag, hicv, hfits, htag, rfl⟩ := encodeEncryptedMessage_ok hmessage hencode
  obtain rfl := length_integrityTag hc hicv htag
  have hbody := encryptedBodyFromEncodedMessage_encoded message.header
    (firstPayloadType innerPayloads) (criticalOctet false) hfits
  have hfirst : IkePayloadType.fromU8 (firstPayloadType innerPayloads).asU8 =
      firstPayloadType innerPayloads := by
    cases innerPayloads with
    | nil => rfl
    | cons p _ => exact hcanonical p mem_cons_self
  dsimp only at hfits htag hbody ⊢
  generalize hsigned : encodeHeader message.header .encrypted _ ++ _ = signed at htag hbody ⊢
  have hlen : signed.length =
      32 + (iv.1 ++ c.aesCbcEncrypt (bundle.encryptionKey direction) iv.1 padded).length := by
    rw [← hsigned, length_append, length_encodeHeader]
    simp only [length_cons, length_append, length_be, ikeHeaderLen]
    omega
  have htotal : (signed ++ tag).length = 28 + (4 + (iv.1 ++ c.aesCbcEncrypt
      (bundle.encryptionKey direction) iv.1 padded).length + tag.length) := by
    rw [length_append, hlen]
    omega
  have hcut : (signed ++ tag).length - tag.length = signed.length := by
    rw [length_append, Nat.add_sub_cancel]
  refine ⟨?_, ?_, padded, hpadded, (paddedInnerPayloads_ok hpadded).1⟩
  · rw [decryptEncryptedPayloadFromMessage, hicv, ok_bind]
    dsimp only
    rw [if_neg (by omega), hbody, ok_bind]
    dsimp only
    rw [hcut, take_left, htag, ok_bind, if_neg (not_not_intro (constantTimeEq_iff.mpr rfl)), hfirst]
    exact decryptEncryptedPayloadBody_encrypted hc haes hkey iv hcanonical hpadded
  · have hslice : slice (signed ++ tag) 24 28 = be 4 (28 + (4 + (iv.1 ++ c.aesCbcEncrypt
        (bundle.encryptionKey direction) iv.1 padded).length + tag.length)) := hsigned ▸ rfl
    rw [hslice, fromBe_be (by omega), htotal]

/-- A bundle with AES-128 and SHA-256. -/
def sampleBundle : IkeSecretBundle where
  skeyseed := []
  skD := []
  skAi := replicate 32 0x22
  skAr := []
  skEi := replicate 16 0x11
  skEr := []
  skPi := []
  skPr := []
  plan := ⟨"hmac_sha256", "aes_cbc", "hmac_sha256_128", 32, 16, 32, 192⟩

/-- A payload of 16 octets, encrypted under a vector of the same length. -/
def samplePayload : IkePayload :=
  ⟨.encrypted, false, replicate 16 0x33 ++
    [207, 205, 174, 79, 143, 62, 238, 81, 129, 106, 19, 214, 73, 39, 98, 245]⟩

/-- The first request under keys. -/
def sampleMessage : IkeMessage :=
  ⟨⟨1, 2, .encrypted, 2, 0, .ikeAuth, .requestFromInitiator, 1, 0⟩, [samplePayload]⟩

/-- The request up to its tag, with the type of the first inner payload. -/
def sampleSigned (first : UInt8) : Bytes :=
  encodeHeader sampleMessage.header .encrypted 80 ++ ([first, 0, 0, 52] ++ samplePayload.body)

/-- AES-128 in CBC mode and HMAC-SHA-256 on the messages of the samples. -/
def sampleCiphers : Ciphers :=
  .ofVectors
    [([0, 0, 0, 5, 7, 0, 1, 2, 3, 4, 5, 6, 7, 8, 9, 10],
      [207, 205, 174, 79, 143, 62, 238, 81, 129, 106, 19, 214, 73, 39, 98, 245])]
    [(replicate 32 0x22, sampleSigned 40,
      [90, 160, 69, 128, 95, 250, 60, 119, 100, 230, 201, 247, 188, 5, 239, 31, 184, 72, 244, 73,
        235, 27, 91, 162, 53, 164, 252, 176, 222, 89, 111, 75]),
     (replicate 32 0x22, sampleSigned 33,
      [34, 139, 205, 179, 88, 226, 104, 125, 96, 52, 104, 172, 71, 235, 162, 182, 69, 56, 142, 24,
        8, 50, 110, 31, 42, 44, 101, 142, 1, 83, 52, 3])]

/-- A nonce of one octet, from the initiator. -/
theorem encrypted_payload_round_trip_sample :
    decryptEncryptedPayloadFromMessage sampleCiphers (sampleSigned 40 ++
        [90, 160, 69, 128, 95, 250, 60, 119, 100, 230, 201, 247, 188, 5, 239, 31])
      sampleBundle .initiatorToResponder = .ok [⟨.nonce, false, [7]⟩] :=
  (encrypted_payload_round_trip sampleCiphers (Ciphers.lawful_ofVectors _ _)
    (some ⟨replicate 16 0x33, rfl⟩) sampleBundle .initiatorToResponder [⟨.nonce, false, [7]⟩]
    (by decide) samplePayload (by decide +kernel) sampleMessage rfl _ (by decide +kernel)).1

/-- A payload whose type is not canonical comes back with another type. -/
theorem encrypted_payload_not_canonical : sampleCiphers.Lawful ∧
      buildEncryptedPayload sampleCiphers (some ⟨replicate 16 0x33, rfl⟩) sampleBundle
        .initiatorToResponder [⟨.unknown 33, false, [7]⟩] = .ok samplePayload ∧
      ∃ encoded, encodeEncryptedMessage sampleCiphers sampleMessage (.unknown 33) sampleBundle
          .initiatorToResponder = .ok encoded ∧
        decryptEncryptedPayloadFromMessage sampleCiphers encoded sampleBundle
          .initiatorToResponder = .ok [⟨.securityAssociation, false, [7]⟩] :=
  ⟨Ciphers.lawful_ofVectors _ _, by decide +kernel, sampleSigned 33 ++
      [34, 139, 205, 179, 88, 226, 104, 125, 96, 52, 104, 172, 71, 235, 162, 182],
    by decide +kernel, by decide +kernel⟩

end SimMaster
