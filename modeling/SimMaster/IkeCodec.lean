import SimMaster.Octets

/-!
# IKE messages

An IKE message is a header of 28 octets and a chain of payloads. A payload names the type of the one
behind it, so the type of the first stands in the header and that of the last one is `noNext`; its
length counts its own header. Three things are written twice: the length of the message and the type
of the first payload, which the encoder recomputes, and the flags, of which only some bits are
defined.
-/

namespace SimMaster

open Rust List Except

/-- `IKEV2_MAJOR_VERSION`. -/
def ikev2MajorVersion : UInt8 := 2

/-- `IKE_HEADER_LEN`. -/
def ikeHeaderLen : ℕ := 28

/-- `GENERIC_PAYLOAD_HEADER_LEN`. -/
def genericPayloadHeaderLen : ℕ := 4

/-- `IkePayloadType`. -/
inductive IkePayloadType where
  | noNext
  | securityAssociation
  | keyExchange
  | identificationInitiator
  | identificationResponder
  | certificate
  | certificateRequest
  | authentication
  | nonce
  | notify
  | delete
  | vendorId
  | trafficSelectorInitiator
  | trafficSelectorResponder
  | encrypted
  | configuration
  | extensibleAuthentication
  | encryptedFragment
  | unknown (value : UInt8)
  deriving DecidableEq

namespace IkePayloadType

/-- `IkePayloadType::from_u8`. -/
def fromU8 (value : UInt8) : IkePayloadType :=
  match value with
  | 0 => noNext
  | 33 => securityAssociation
  | 34 => keyExchange
  | 35 => identificationInitiator
  | 36 => identificationResponder
  | 37 => certificate
  | 38 => certificateRequest
  | 39 => authentication
  | 40 => nonce
  | 41 => notify
  | 42 => delete
  | 43 => vendorId
  | 44 => trafficSelectorInitiator
  | 45 => trafficSelectorResponder
  | 46 => encrypted
  | 47 => configuration
  | 48 => extensibleAuthentication
  | 53 => encryptedFragment
  | other => unknown other

/-- `IkePayloadType::as_u8`. -/
def asU8 : IkePayloadType → UInt8
  | noNext => 0
  | securityAssociation => 33
  | keyExchange => 34
  | identificationInitiator => 35
  | identificationResponder => 36
  | certificate => 37
  | certificateRequest => 38
  | authentication => 39
  | nonce => 40
  | notify => 41
  | delete => 42
  | vendorId => 43
  | trafficSelectorInitiator => 44
  | trafficSelectorResponder => 45
  | encrypted => 46
  | configuration => 47
  | extensibleAuthentication => 48
  | encryptedFragment => 53
  | unknown value => value

/-- A type is canonical when the octet it is written as is read as that type: `unknown` of a known
octet is not. -/
def Canonical (t : IkePayloadType) : Prop := fromU8 t.asU8 = t

instance (t : IkePayloadType) : Decidable t.Canonical := inferInstanceAs (Decidable (_ = _))

@[simp] theorem asU8_fromU8 (value : UInt8) : (fromU8 value).asU8 = value := by
  unfold fromU8
  split <;> rfl

end IkePayloadType

/-- `IkeExchangeType`. -/
inductive IkeExchangeType where
  | ikeSaInit
  | ikeAuth
  | createChildSa
  | informational
  | sessionResume
  | unknown (value : UInt8)
  deriving DecidableEq

namespace IkeExchangeType

/-- `IkeExchangeType::from_u8`. -/
def fromU8 (value : UInt8) : IkeExchangeType :=
  match value with
  | 34 => ikeSaInit
  | 35 => ikeAuth
  | 36 => createChildSa
  | 37 => informational
  | 38 => sessionResume
  | other => unknown other

/-- `IkeExchangeType::as_u8`. -/
def asU8 : IkeExchangeType → UInt8
  | ikeSaInit => 34
  | ikeAuth => 35
  | createChildSa => 36
  | informational => 37
  | sessionResume => 38
  | unknown value => value

/-- The exchange types that are read back as they were written. -/
def Canonical (t : IkeExchangeType) : Prop := fromU8 t.asU8 = t

instance (t : IkeExchangeType) : Decidable t.Canonical := inferInstanceAs (Decidable (_ = _))

@[simp] theorem asU8_fromU8 (value : UInt8) : (fromU8 value).asU8 = value := by
  unfold fromU8
  split <;> rfl

end IkeExchangeType

/-- `IkeFlags`. -/
structure IkeFlags where
  initiator : Bool
  response : Bool
  version : Bool
  deriving DecidableEq

namespace IkeFlags

/-- `IkeFlags::request_from_initiator`. -/
def requestFromInitiator : IkeFlags where
  initiator := true
  response := false
  version := false

/-- `IkeFlags::from_u8`. -/
def fromU8 (value : UInt8) : IkeFlags where
  response := value &&& 0x20 ≠ 0
  version := value &&& 0x10 ≠ 0
  initiator := value &&& 0x08 ≠ 0

/-- `IkeFlags::as_u8`. -/
def asU8 (flags : IkeFlags) : UInt8 :=
  (if flags.response then 0x20 else 0) ||| (if flags.version then 0x10 else 0) |||
    (if flags.initiator then 0x08 else 0)

@[simp] theorem fromU8_asU8 (flags : IkeFlags) : fromU8 flags.asU8 = flags := by
  obtain ⟨initiator, response, version⟩ := flags
  cases initiator <;> cases response <;> cases version <;> rfl

/-- Reading the flags keeps three bits of their octet. -/
theorem asU8_fromU8 (value : UInt8) : (fromU8 value).asU8 = value &&& 0x38 := by
  have hall : ∀ v : BitVec 8, (fromU8 ⟨v⟩).asU8 = ⟨v⟩ &&& 0x38 := by decide +kernel
  exact hall value.toBitVec

end IkeFlags

/-- `IkeHeader`. -/
structure IkeHeader where
  initiatorSpi : UInt64
  responderSpi : UInt64
  nextPayload : IkePayloadType
  majorVersion : UInt8
  minorVersion : UInt8
  exchangeType : IkeExchangeType
  flags : IkeFlags
  messageId : UInt32
  length : UInt32
  deriving DecidableEq

/-- `IkePayload`. -/
structure IkePayload where
  payloadType : IkePayloadType
  critical : Bool
  body : Bytes
  deriving DecidableEq

/-- `IkeMessage`. -/
structure IkeMessage where
  header : IkeHeader
  payloads : List IkePayload
  deriving DecidableEq

/-- `IkeCodecError`. -/
inductive IkeCodecError where
  | truncatedHeader
  | truncatedPayload
  | invalidMajorVersion (version : UInt8)
  | invalidMessageLength (declared actual : ℕ)
  | invalidPayloadLength (declared : ℕ)
  | messageTooLarge (length : ℕ)
  deriving DecidableEq

/-! ## Encoding -/

/-- The type of the payload at the front, `noNext` when there is none. -/
def firstPayloadType (payloads : List IkePayload) : IkePayloadType :=
  (payloads.head?.map IkePayload.payloadType).getD .noNext

/-- The octets of the version: the major one above the minor one. -/
def versionOctet (header : IkeHeader) : UInt8 :=
  (header.majorVersion <<< 4) ||| (header.minorVersion &&& 0x0f)

/-- The flags of a payload. -/
def criticalOctet (critical : Bool) : UInt8 := if critical then 0x80 else 0

/-- The header as it is written, with the type of the first payload and the length of the message.
-/
def encodeHeader (header : IkeHeader) (next : IkePayloadType) (totalLen : ℕ) : Bytes :=
  be 8 header.initiatorSpi.toNat ++ (be 8 header.responderSpi.toNat ++
    (next.asU8 :: versionOctet header :: header.exchangeType.asU8 :: header.flags.asU8 ::
      (be 4 header.messageId.toNat ++ be 4 totalLen)))

/-- The chain of payloads, with the error of one that is too long for its length field. -/
def encodePayloadChain {ε : Type} (tooLarge : ℕ → ε) : List IkePayload → Except ε Bytes
  | [] => .ok []
  | payload :: rest =>
    let payloadLen := genericPayloadHeaderLen + payload.body.length
    if 65535 < payloadLen then .error (tooLarge payloadLen)
    else do
      let tail ← encodePayloadChain tooLarge rest
      return (firstPayloadType rest).asU8 :: criticalOctet payload.critical ::
        (be 2 payloadLen ++ (payload.body ++ tail))

/-- The octets that payloads take. -/
def payloadsLen (payloads : List IkePayload) : ℕ :=
  (payloads.map fun payload => genericPayloadHeaderLen + payload.body.length).sum

/-- `IkeMessage::new_request`. -/
def IkeMessage.newRequest (initiatorSpi : UInt64) (exchangeType : IkeExchangeType)
    (messageId : UInt32) (payloads : List IkePayload) : IkeMessage where
  header := {
    initiatorSpi, exchangeType, messageId
    responderSpi := 0
    nextPayload := firstPayloadType payloads
    majorVersion := ikev2MajorVersion
    minorVersion := 0
    flags := .requestFromInitiator
    length := 0 }
  payloads := payloads

/-- `IkeMessage::encode`. -/
def IkeMessage.encode (message : IkeMessage) : Except IkeCodecError Bytes :=
  let totalLen := ikeHeaderLen + payloadsLen message.payloads
  if 2 ^ 32 - 1 < totalLen then .error (.messageTooLarge totalLen)
  else do
    let chain ← encodePayloadChain IkeCodecError.messageTooLarge message.payloads
    return encodeHeader message.header (firstPayloadType message.payloads) totalLen ++ chain

/-! ## Decoding -/

/-- The loop of `IkeMessage::decode`: the payloads from one of a known type on, and the octets
behind the last one. -/
def decodePayloads (current : IkePayloadType) (input : Bytes) :
    Except IkeCodecError (List IkePayload × Bytes) :=
  if current = .noNext then .ok ([], input)
  else
    match input with
    | following :: flags :: hi :: lo :: rest =>
      let payloadLen := fromBe [hi, lo]
      if payloadLen < genericPayloadHeaderLen then .error (.invalidPayloadLength payloadLen)
      else if rest.length < payloadLen - genericPayloadHeaderLen then .error .truncatedPayload
      else do
        let bodyLen := payloadLen - genericPayloadHeaderLen
        let (payloads, behind) ← decodePayloads (.fromU8 following) (rest.drop bodyLen)
        return (⟨current, flags &&& 0x80 ≠ 0, rest.take bodyLen⟩ :: payloads, behind)
    | _ => .error .truncatedPayload
termination_by input.length
decreasing_by
  simp only [length_cons, length_drop]
  omega

/-- The header that `IkeMessage::decode` reads. -/
def decodeHeader (input : Bytes) : IkeHeader where
  initiatorSpi := .ofNat (fromBe (slice input 0 8))
  responderSpi := .ofNat (fromBe (slice input 8 16))
  nextPayload := .fromU8 (input.getD 16 0)
  majorVersion := input.getD 17 0 >>> 4
  minorVersion := input.getD 17 0 &&& 0x0f
  exchangeType := .fromU8 (input.getD 18 0)
  flags := .fromU8 (input.getD 19 0)
  messageId := .ofNat (fromBe (slice input 20 24))
  length := .ofNat (fromBe (slice input 24 28))

/-- `IkeMessage::decode`. -/
def IkeMessage.decode (input : Bytes) : Except IkeCodecError IkeMessage :=
  if input.length < ikeHeaderLen then .error .truncatedHeader
  else
    let header := decodeHeader input
    if header.majorVersion ≠ ikev2MajorVersion then
      .error (.invalidMajorVersion header.majorVersion)
    else if header.length.toNat ≠ input.length then
      .error (.invalidMessageLength header.length.toNat input.length)
    else do
      let (payloads, behind) ← decodePayloads header.nextPayload (input.drop ikeHeaderLen)
      if behind.length ≠ 0 then
        throw (.invalidMessageLength (input.length - behind.length) input.length)
      return ⟨header, payloads⟩

/-! ## Reading what was written -/

theorem decodePayloads_noNext (input : Bytes) : decodePayloads .noNext input = .ok ([], input) := by
  rw [decodePayloads.eq_def, if_pos rfl]

variable {current : IkePayloadType}

/-- One payload is read from its header and its body, whatever stands behind. -/
theorem decodePayloads_payload (hcurrent : current ≠ .noNext) (following flags : UInt8)
    {body : Bytes} (hlen : genericPayloadHeaderLen + body.length < 256 ^ 2) (rest : Bytes) :
    decodePayloads current (following :: flags ::
        (be 2 (genericPayloadHeaderLen + body.length) ++ (body ++ rest))) =
      (decodePayloads (.fromU8 following) rest).map fun read =>
        (⟨current, flags &&& 0x80 ≠ 0, body⟩ :: read.1, read.2) := by
  obtain ⟨hi, lo, hbe⟩ : ∃ hi lo, be 2 (genericPayloadHeaderLen + body.length) = [hi, lo] :=
    ⟨_, _, rfl⟩
  have hread : fromBe [hi, lo] = genericPayloadHeaderLen + body.length := by
    rw [← hbe, fromBe_be hlen]
  have hbody : genericPayloadHeaderLen + body.length - genericPayloadHeaderLen = body.length :=
    Nat.add_sub_cancel_left _ _
  rw [decodePayloads.eq_def, if_neg hcurrent, hbe]
  simp only [cons_append, nil_append, hread, hbody]
  rw [if_neg (by omega), if_neg (by rw [length_append]; omega), drop_left, take_left]
  cases decodePayloads (.fromU8 following) rest with
  | error e => rfl
  | ok read => rfl

theorem criticalOctet_and (critical : Bool) :
    decide (criticalOctet critical &&& 0x80 ≠ 0) = critical := by
  cases critical <;> rfl

variable {ε : Type} {payloads : List IkePayload} {chain : Bytes} {tooLarge : ℕ → ε}

/-- The chain of canonical payloads is read back. -/
theorem decodePayloads_encodePayloadChain
    (hcanonical : ∀ p ∈ payloads, p.payloadType.Canonical ∧ p.payloadType ≠ .noNext)
    (h : encodePayloadChain tooLarge payloads = .ok chain) (behind : Bytes) :
    decodePayloads (firstPayloadType payloads) (chain ++ behind) = .ok (payloads, behind) := by
  induction payloads generalizing chain with
  | nil =>
    obtain rfl : [] = chain := ok.inj h
    exact decodePayloads_noNext behind
  | cons payload rest ih =>
    rw [encodePayloadChain] at h
    split at h
    · exact nomatch h
    next hlen =>
    obtain ⟨tail, htail, h⟩ := bind_eq_ok.mp h
    obtain rfl := ok.inj h
    obtain ⟨_, hne⟩ := hcanonical payload mem_cons_self
    have hrest := ih (fun p hp => hcanonical p (mem_cons_of_mem _ hp)) htail
    -- the octet of the following type is read as that type: it is canonical, or there is none
    have hnext : IkePayloadType.fromU8 (firstPayloadType rest).asU8 = firstPayloadType rest := by
      cases rest with
      | nil => rfl
      | cons next _ => exact (hcanonical next (by simp)).1
    have hfits : genericPayloadHeaderLen + payload.body.length < 256 ^ 2 := by omega
    rw [cons_append, cons_append, append_assoc, append_assoc]
    rw [show firstPayloadType (payload :: rest) = payload.payloadType from rfl,
      decodePayloads_payload hne _ _ hfits, hnext, hrest, criticalOctet_and]
    rfl

theorem length_encodePayloadChain (h : encodePayloadChain tooLarge payloads = .ok chain) :
    chain.length = payloadsLen payloads := by
  induction payloads generalizing chain with
  | nil =>
    obtain rfl : [] = chain := ok.inj h
    rfl
  | cons payload rest ih =>
    rw [encodePayloadChain] at h
    split at h
    · exact nomatch h
    obtain ⟨tail, htail, h⟩ := bind_eq_ok.mp h
    obtain rfl := ok.inj h
    have hlen := ih htail
    simp only [payloadsLen, map_cons, sum_cons, length_cons, length_append,
      length_be, genericPayloadHeaderLen] at hlen ⊢
    omega

@[simp] theorem length_encodeHeader (header : IkeHeader) (next : IkePayloadType) (totalLen : ℕ) :
    (encodeHeader header next totalLen).length = ikeHeaderLen := by
  simp [encodeHeader, ikeHeaderLen]

variable {header : IkeHeader}

theorem versionOctet_decode (hmajor : header.majorVersion = 2) (hminor : header.minorVersion < 16) :
    versionOctet header >>> 4 = 2 ∧ versionOctet header &&& 0x0f = header.minorVersion := by
  have hall : ∀ v : BitVec 8, v < 16 → ((2 : UInt8) <<< 4 ||| (⟨v⟩ &&& 0x0f)) >>> 4 = 2 ∧
      ((2 : UInt8) <<< 4 ||| (⟨v⟩ &&& 0x0f)) &&& 0x0f = ⟨v⟩ := by decide +kernel
  rw [versionOctet, hmajor]
  exact hall header.minorVersion.toBitVec hminor

/-- The header is read back, with the two recomputed fields. -/
theorem decodeHeader_encodeHeader {next : IkePayloadType} {totalLen : ℕ}
    (hmajor : header.majorVersion = 2) (hminor : header.minorVersion < 16)
    (hexchange : header.exchangeType.Canonical) (hnext : next.Canonical)
    (htotal : totalLen < 256 ^ 4) (rest : Bytes) :
    decodeHeader (encodeHeader header next totalLen ++ rest) =
      { header with nextPayload := next, length := .ofNat totalLen } := by
  obtain ⟨hv, hm⟩ := versionOctet_decode hmajor hminor
  -- every field stands at its place, whatever the values of the others are
  have h : decodeHeader (encodeHeader header next totalLen ++ rest) = {
      initiatorSpi := .ofNat (fromBe (be 8 header.initiatorSpi.toNat))
      responderSpi := .ofNat (fromBe (be 8 header.responderSpi.toNat))
      nextPayload := .fromU8 next.asU8
      majorVersion := versionOctet header >>> 4
      minorVersion := versionOctet header &&& 0x0f
      exchangeType := .fromU8 header.exchangeType.asU8
      flags := .fromU8 header.flags.asU8
      messageId := .ofNat (fromBe (be 4 header.messageId.toNat))
      length := .ofNat (fromBe (be 4 totalLen)) } := rfl
  rw [h, fromBe_be header.initiatorSpi.toNat_lt, fromBe_be header.responderSpi.toNat_lt,
    fromBe_be header.messageId.toNat_lt, fromBe_be htotal, hv, hm, hexchange, hnext,
    IkeFlags.fromU8_asU8, UInt64.ofNat_toNat, UInt64.ofNat_toNat, UInt32.ofNat_toNat, ← hmajor]

variable {message : IkeMessage} {bytes : Bytes}

theorem encode_ok (h : message.encode = .ok bytes) :
    ikeHeaderLen + payloadsLen message.payloads < 256 ^ 4 ∧
      ∃ chain, encodePayloadChain IkeCodecError.messageTooLarge message.payloads = .ok chain ∧
        bytes = encodeHeader message.header (firstPayloadType message.payloads)
          (ikeHeaderLen + payloadsLen message.payloads) ++ chain := by
  rw [IkeMessage.encode] at h
  split at h
  · exact nomatch h
  next hlen =>
  obtain ⟨chain, hchain, h⟩ := bind_eq_ok.mp h
  exact ⟨by omega, chain, hchain, (ok.inj h).symm⟩

theorem canonical_firstPayloadType
    (hcanonical : ∀ p ∈ payloads, p.payloadType.Canonical ∧ p.payloadType ≠ .noNext) :
    (firstPayloadType payloads).Canonical := by
  cases payloads with
  | nil => rfl
  | cons payload rest => exact (hcanonical payload mem_cons_self).1

/-- What the encoder wrote, the decoder reads. -/
theorem decode_encode (hmajor : message.header.majorVersion = 2)
    (hminor : message.header.minorVersion < 16) (hexchange : message.header.exchangeType.Canonical)
    (hcanonical : ∀ p ∈ message.payloads, p.payloadType.Canonical ∧ p.payloadType ≠ .noNext)
    (h : message.encode = .ok bytes) : IkeMessage.decode bytes = .ok ⟨{ message.header with
      nextPayload := firstPayloadType message.payloads, length := .ofNat bytes.length },
      message.payloads⟩ := by
  obtain ⟨hfits, chain, hchain, rfl⟩ := encode_ok h
  have hlen : (encodeHeader message.header (firstPayloadType message.payloads)
      (ikeHeaderLen + payloadsLen message.payloads) ++ chain).length =
      ikeHeaderLen + payloadsLen message.payloads := by
    rw [length_append, length_encodeHeader, length_encodePayloadChain hchain]
  have hdecl : (UInt32.ofNat (ikeHeaderLen + payloadsLen message.payloads)).toNat =
      ikeHeaderLen + payloadsLen message.payloads := UInt32.toNat_ofNat_of_lt' hfits
  have hread := decodePayloads_encodePayloadChain hcanonical hchain []
  rw [append_nil] at hread
  rw [IkeMessage.decode, decodeHeader_encodeHeader hmajor hminor hexchange
    (canonical_firstPayloadType hcanonical) hfits, hlen, if_neg (by omega)]
  rw [if_neg (not_not_intro (show _ = ikev2MajorVersion from hmajor)),
    if_neg (not_not_intro hdecl), drop_left' (length_encodeHeader ..), hread]
  rfl

/-! ## Writing what was read -/

/-- The octets with only the bits of the mask left. -/
def keepBits (bytes mask : Bytes) : Bytes := zipWith (· &&& ·) bytes mask

/-- The bits of a payload that have a meaning: all but seven of its flags. -/
def payloadBits (payload : IkePayload) : Bytes :=
  0xff :: 0x80 :: replicate (2 + payload.body.length) 0xff

/-- The bits of the header that have a meaning: all but five of its flags. -/
def headerBits : Bytes := replicate 19 0xff ++ (0x38 :: replicate 8 0xff)

/-- The bits of a message that have a meaning: every bit but the reserved ones of the flags, in the
header and in the payloads. -/
def definedBits (payloads : List IkePayload) : Bytes :=
  headerBits ++ payloads.flatMap payloadBits

theorem keepBits_append {mask : Bytes} (h : bytes.length = mask.length) (bytes' mask' : Bytes) :
    keepBits (bytes ++ bytes') (mask ++ mask') = keepBits bytes mask ++ keepBits bytes' mask' :=
  zipWith_append h

@[simp] theorem keepBits_cons (b m : UInt8) (bytes mask : Bytes) :
    keepBits (b :: bytes) (m :: mask) = (b &&& m) :: keepBits bytes mask := rfl

theorem and_255 (b : UInt8) : b &&& 0xff = b := UInt8.and_neg_one

theorem keepBits_replicate {n : ℕ} (h : bytes.length = n) :
    keepBits bytes (replicate n 0xff) = bytes := by
  induction bytes generalizing n with
  | nil => rfl
  | cons b rest ih =>
    subst h
    rw [length_cons, replicate_succ, keepBits_cons, and_255, ih rfl]

variable {input behind : Bytes}

/-- What reading one payload says about the octets. -/
theorem decodePayloads_inv (hcurrent : current ≠ .noNext)
    (h : decodePayloads current input = .ok (payloads, behind)) : ∃ following flags body rest tail,
      genericPayloadHeaderLen + body.length < 256 ^ 2 ∧
      input = following :: flags ::
      (be 2 (genericPayloadHeaderLen + body.length) ++ (body ++ rest)) ∧
      decodePayloads (.fromU8 following) rest = .ok (tail, behind) ∧
      payloads = ⟨current, flags &&& 0x80 ≠ 0, body⟩ :: tail := by
  rw [decodePayloads.eq_def, if_neg hcurrent] at h
  split at h
  · next following flags hi lo rest =>
    dsimp only at h
    split at h
    · exact nomatch h
    next hshort =>
    split at h
    · exact nomatch h
    next hfits =>
    obtain ⟨⟨tail, behind'⟩, hrest, h⟩ := bind_eq_ok.mp h
    obtain ⟨rfl, rfl⟩ := Prod.mk.inj (ok.inj h)
    have hbody : (rest.take (fromBe [hi, lo] - genericPayloadHeaderLen)).length =
        fromBe [hi, lo] - genericPayloadHeaderLen := length_take_of_le (by omega)
    have hlen : genericPayloadHeaderLen +
        (rest.take (fromBe [hi, lo] - genericPayloadHeaderLen)).length = fromBe [hi, lo] := by
      omega
    have hbe : be 2 (fromBe [hi, lo]) = [hi, lo] := be_fromBe [hi, lo]
    refine ⟨following, flags, _, _, tail, ?_, ?_, hrest, rfl⟩
    · rw [hlen]
      exact fromBe_lt [hi, lo]
    · rw [hlen, hbe, take_append_drop]
      rfl
  · exact nomatch h

theorem criticalOctet_decode (flags : UInt8) :
    criticalOctet (flags &&& 0x80 ≠ 0) = flags &&& 0x80 := by
  have hall : ∀ v : BitVec 8, criticalOctet ((⟨v⟩ : UInt8) &&& 0x80 ≠ 0) = ⟨v⟩ &&& 0x80 := by
    decide +kernel
  exact hall flags.toBitVec

/-- The payloads that were read are written as the octets they were read from, with the bits that
have a meaning. -/
theorem encodePayloadChain_decodePayloads (tooLarge : ℕ → ε)
    (h : decodePayloads current input = .ok (payloads, behind)) :
    firstPayloadType payloads = current ∧ ∃ read, input = read ++ behind ∧
      read.length = payloadsLen payloads ∧
      encodePayloadChain tooLarge payloads =
        .ok (keepBits read (payloads.flatMap payloadBits)) := by
  induction payloads generalizing current input with
  | nil =>
    by_cases hcurrent : current = .noNext
    · subst hcurrent
      rw [decodePayloads_noNext] at h
      obtain rfl := congrArg Prod.snd (ok.inj h)
      exact ⟨rfl, [], rfl, rfl, rfl⟩
    · obtain ⟨_, _, _, _, _, _, _, _, h⟩ := decodePayloads_inv hcurrent h
      exact nomatch h
  | cons payload payloads ih =>
    by_cases hcurrent : current = .noNext
    · subst hcurrent
      rw [decodePayloads_noNext] at h
      exact nomatch congrArg Prod.fst (ok.inj h)
    · obtain ⟨following, flags, body, rest, tail, hfits, rfl, hrest, hcons⟩ :=
        decodePayloads_inv hcurrent h
      obtain ⟨rfl, rfl⟩ := cons.inj hcons
      obtain ⟨hnext, read, rfl, hlen, hwrite⟩ := ih hrest
      refine ⟨rfl, following :: flags :: (be 2 (genericPayloadHeaderLen + body.length) ++
        (body ++ read)), by simp, ?_, ?_⟩
      · simp only [payloadsLen, map_cons, sum_cons, length_cons, length_append,
          length_be, genericPayloadHeaderLen] at hlen ⊢
        omega
      · have hkeep : keepBits (be 2 (genericPayloadHeaderLen + body.length) ++ (body ++ read))
            (replicate (2 + body.length) 0xff ++ payloads.flatMap payloadBits) =
            be 2 (genericPayloadHeaderLen + body.length) ++ (body ++
              keepBits read (payloads.flatMap payloadBits)) := by
          rw [← append_assoc, keepBits_append (by simp), keepBits_replicate (by simp), append_assoc]
        rw [encodePayloadChain, if_neg (by dsimp only; omega), hwrite, ok_bind, hnext,
          IkePayloadType.asU8_fromU8]
        rw [criticalOctet_decode]
        simp only [flatMap_cons, payloadBits, cons_append, keepBits_cons, and_255, hkeep]
        rfl

theorem versionOctet_encode {v : UInt8} (h : v >>> 4 = 2) :
    ((v >>> 4) <<< 4) ||| (v &&& 0x0f &&& 0x0f) = v := by
  have hall : ∀ v : BitVec 8, (⟨v⟩ : UInt8) >>> 4 = 2 →
      (((⟨v⟩ : UInt8) >>> 4) <<< 4) ||| (⟨v⟩ &&& 0x0f &&& 0x0f) = ⟨v⟩ := by decide +kernel
  exact hall v.toBitVec h

/-- The octets of a header, field by field. -/
theorem take_header (hlen : ikeHeaderLen ≤ input.length) :
    input.take ikeHeaderLen = slice input 0 8 ++ (slice input 8 16 ++ (input.getD 16 0 ::
      input.getD 17 0 :: input.getD 18 0 :: input.getD 19 0 ::
        (slice input 20 24 ++ slice input 24 28))) := by
  rw [ikeHeaderLen] at hlen ⊢
  have hsplit : slice input 0 8 ++ (slice input 8 16 ++ (input.getD 16 0 :: input.getD 17 0 ::
      input.getD 18 0 :: input.getD 19 0 :: (slice input 20 24 ++ slice input 24 28))) ++
        input.drop 28 = input.take 28 ++ input.drop 28 := by
    simp only [append_assoc, cons_append]
    rw [slice_append_drop input (by omega), slice_append_drop input (by omega),
      getD_cons_drop (by omega), getD_cons_drop (by omega), getD_cons_drop (by omega),
      getD_cons_drop (by omega), slice_append_drop input (by omega),
      slice_append_drop input (by omega), drop_zero, take_append_drop]
  exact (append_cancel_right hsplit).symm

/-- The header that was read is written as the octets it was read from, with the bits that have a
meaning. -/
theorem encodeHeader_decodeHeader (hlen : ikeHeaderLen ≤ input.length)
    (hmajor : (decodeHeader input).majorVersion = 2)
    (hdecl : (decodeHeader input).length.toNat = input.length) :
    encodeHeader (decodeHeader input) (decodeHeader input).nextPayload input.length =
      keepBits (input.take ikeHeaderLen) headerBits := by
  have htake := take_header hlen
  rw [ikeHeaderLen] at hlen
  have h0 : (slice input 0 8).length = 8 := length_slice (by omega)
  have h8 : (slice input 8 16).length = 8 := length_slice (by omega)
  have h20 : (slice input 20 24).length = 4 := length_slice (by omega)
  have h24 : (slice input 24 28).length = 4 := length_slice (by omega)
  -- each integer is written as the octets it was read from
  have hispi : be 8 (decodeHeader input).initiatorSpi.toNat = slice input 0 8 :=
    be_toNat_ofNat64 h0
  have hrspi : be 8 (decodeHeader input).responderSpi.toNat = slice input 8 16 :=
    be_toNat_ofNat64 h8
  have hid : be 4 (decodeHeader input).messageId.toNat = slice input 20 24 := be_toNat_ofNat32 h20
  have hlength : be 4 input.length = slice input 24 28 := by
    rw [← hdecl]
    exact be_toNat_ofNat32 h24
  have hbits : headerBits = replicate 8 0xff ++ (replicate 8 0xff ++ (0xff :: 0xff ::
      0xff :: 0x38 :: (replicate 4 0xff ++ replicate 4 0xff))) := rfl
  rw [htake, hbits, keepBits_append (by simpa using h0), keepBits_append (by simpa using h8)]
  simp only [keepBits_cons, and_255]
  rw [keepBits_append (by simpa using h20), keepBits_replicate h0, keepBits_replicate h8,
    keepBits_replicate h20, keepBits_replicate h24, encodeHeader, hispi, hrspi, hid, hlength]
  have hversion : versionOctet (decodeHeader input) = input.getD 17 0 := versionOctet_encode hmajor
  have hflags : (decodeHeader input).flags.asU8 = input.getD 19 0 &&& 0x38 :=
    IkeFlags.asU8_fromU8 _
  rw [hversion, hflags, decodeHeader, IkePayloadType.asU8_fromU8, IkeExchangeType.asU8_fromU8]

theorem length_payloadBits (payloads : List IkePayload) :
    (payloads.flatMap payloadBits).length = payloadsLen payloads := by
  induction payloads with
  | nil => rfl
  | cons payload payloads ih =>
    rw [flatMap_cons, length_append, ih, payloadsLen, payloadsLen, map_cons,
      sum_cons, payloadBits, length_cons, length_cons, length_replicate, genericPayloadHeaderLen]
    omega

theorem decode_ok (h : IkeMessage.decode input = .ok message) :
    ikeHeaderLen ≤ input.length ∧ message.header = decodeHeader input ∧
      message.header.majorVersion = 2 ∧ message.header.length.toNat = input.length ∧
      decodePayloads message.header.nextPayload (input.drop ikeHeaderLen) =
        .ok (message.payloads, []) := by
  rw [IkeMessage.decode] at h
  split at h
  · exact nomatch h
  next hlen =>
  dsimp only at h
  split at h
  · exact nomatch h
  next hmajor =>
  split at h
  · exact nomatch h
  next hdecl =>
  obtain ⟨⟨payloads, behind⟩, hread, h⟩ := bind_eq_ok.mp h
  split at h
  · exact nomatch h
  next hbehind =>
  obtain rfl := ok.inj h
  obtain rfl := eq_nil_of_length_eq_zero (not_not.mp hbehind)
  exact ⟨not_lt.mp hlen, rfl, not_not.mp hmajor, not_not.mp hdecl, hread⟩

/-- What the decoder read, the encoder writes, with the bits that have a meaning. -/
theorem encode_decode (h : IkeMessage.decode input = .ok message) :
    message.encode = .ok (keepBits input (definedBits message.payloads)) ∧
      input.length = (definedBits message.payloads).length := by
  obtain ⟨hlen, hheader, hmajor, hdecl, hread⟩ := decode_ok h
  obtain ⟨hfirst, read, hinput, hpayloads, hwrite⟩ :=
    encodePayloadChain_decodePayloads IkeCodecError.messageTooLarge hread
  rw [append_nil] at hinput
  have htotal : ikeHeaderLen + payloadsLen message.payloads = input.length := by
    rw [← hpayloads, ← hinput, length_drop]
    omega
  have hsplit : input = input.take ikeHeaderLen ++ read := by
    rw [← hinput, take_append_drop]
  have htake : (input.take ikeHeaderLen).length = headerBits.length := length_take_of_le hlen
  refine ⟨?_, ?_⟩
  · have hfits : ¬2 ^ 32 - 1 < ikeHeaderLen + payloadsLen message.payloads := by
      have := message.header.length.toNat_lt
      omega
    have hhead := encodeHeader_decodeHeader hlen (hheader ▸ hmajor) (hheader ▸ hdecl)
    rw [IkeMessage.encode, if_neg hfits, hwrite, ok_bind, htotal, hfirst, hheader, hhead,
      definedBits]
    conv_rhs => rw [hsplit, keepBits_append htake]
    rfl
  · rw [definedBits, length_append, length_payloadBits, ← htotal]
    rfl

/-- **Round trip of the message codec.** Writing a message and reading it gives it back, with the
length and the first payload's type recomputed; reading octets and writing the message gives the
octets back, but for the reserved bits of the flags. -/
theorem ike_codec_round_trip :
    (∀ (message : IkeMessage) (bytes : Bytes), message.header.majorVersion = 2 →
      message.header.minorVersion < 16 →
      message.header.exchangeType.Canonical →
      (∀ p ∈ message.payloads, p.payloadType.Canonical ∧ p.payloadType ≠ .noNext) →
      message.encode = .ok bytes → IkeMessage.decode bytes = .ok ⟨{ message.header with
        nextPayload := firstPayloadType message.payloads, length := .ofNat bytes.length },
        message.payloads⟩) ∧
    (∀ (input : Bytes) (message : IkeMessage), IkeMessage.decode input = .ok message →
      message.encode = .ok (keepBits input (definedBits message.payloads)) ∧
        input.length = (definedBits message.payloads).length) :=
  ⟨fun _ _ hmajor hminor hexchange hcanonical h =>
      decode_encode hmajor hminor hexchange hcanonical h,
    fun _ _ h => encode_decode h⟩

/-- A message with an unknown payload, whose reserved bits are set when it is read. -/
theorem ike_codec_round_trip_sample : let message : IkeMessage :=
      ⟨⟨1, 0, .noNext, 2, 0, .ikeSaInit, .requestFromInitiator, 0, 0⟩, [⟨.unknown 200, true, [7]⟩]⟩
    let input : Bytes := encodeHeader message.header (.unknown 200) 33 ++ [0, 0xff, 0, 5, 7]
    IkeMessage.decode (encodeHeader message.header (.unknown 200) 33 ++ [0, 0x80, 0, 5, 7]) =
        .ok ⟨{ message.header with nextPayload := .unknown 200, length := 33 }, message.payloads⟩ ∧
      (⟨{ message.header with nextPayload := .unknown 200, length := 33 }, message.payloads⟩ :
          IkeMessage).encode = .ok (keepBits input (definedBits message.payloads)) :=
  ⟨ike_codec_round_trip.1 _ _ rfl (by decide) (by decide) (by decide) rfl,
    (ike_codec_round_trip.2 _ _ (by decide +kernel)).1⟩

/-- An exchange type that is not canonical is not read back. -/
theorem ike_codec_exchange_type : let message : IkeMessage :=
      ⟨⟨1, 0, .noNext, 2, 0, .unknown 34, .requestFromInitiator, 0, 0⟩, [⟨.nonce, false, [7]⟩]⟩
    (∀ p ∈ message.payloads, p.payloadType.Canonical ∧ p.payloadType ≠ .noNext) ∧
      ∃ bytes, message.encode = .ok bytes ∧
        (IkeMessage.decode bytes).map (·.header.exchangeType) = .ok .ikeSaInit ∧
        message.header.exchangeType ≠ .ikeSaInit :=
  ⟨by decide, _, rfl, by decide +kernel, by decide⟩

end SimMaster
