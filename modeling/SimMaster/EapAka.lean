import SimMaster.Ciphers
import SimMaster.Method

/-!
# EAP-AKA

The packets of EAP-AKA as the peer reads and writes them: a header of eight octets and attributes
whose length is counted in words. From the result of the card the peer derives its keys, and checks
with them the code that authenticates the challenge. The key stream is that of a pseudo-random
function over the compression function of SHA-1, which is written out here as it is in the source.
-/

namespace SimMaster

namespace EapAka

open Rust Method

/-- `EAP_TYPE_AKA`. -/
def eapTypeAka : UInt8 := 23

/-- `EAP_CODE_RESPONSE`. -/
def eapCodeResponse : UInt8 := 2

/-- `EAP_AKA_SUBTYPE_CHALLENGE`. -/
def subtypeChallenge : UInt8 := 1

/-- `EAP_AKA_SUBTYPE_SYNC_FAILURE`. -/
def subtypeSyncFailure : UInt8 := 4

/-- `EAP_AKA_SUBTYPE_IDENTITY`. -/
def subtypeIdentity : UInt8 := 5

/-- `EAP_AKA_SUBTYPE_NOTIFICATION`. -/
def subtypeNotification : UInt8 := 12

/-- `AT_RAND`. -/
def atRand : UInt8 := 1

/-- `AT_AUTN`. -/
def atAutn : UInt8 := 2

/-- `AT_RES`. -/
def atRes : UInt8 := 3

/-- `AT_AUTS`. -/
def atAuts : UInt8 := 4

/-- `AT_PERMANENT_ID_REQ`. -/
def atPermanentIdReq : UInt8 := 10

/-- `AT_MAC`. -/
def atMac : UInt8 := 11

/-- `AT_NOTIFICATION`. -/
def atNotification : UInt8 := 12

/-- `AT_ANY_ID_REQ`. -/
def atAnyIdReq : UInt8 := 13

/-- `AT_IDENTITY`. -/
def atIdentity : UInt8 := 14

/-- `AT_FULLAUTH_ID_REQ`. -/
def atFullauthIdReq : UInt8 := 17

/-- `AT_RESULT_IND`. -/
def atResultInd : UInt8 := 135

/-- `EAP_AKA_HEADER_LEN`. -/
def headerLen : ℕ := 8

/-- `MAC_LEN`. -/
def macLen : ℕ := 16

/-- `EapAkaProtocolError`. -/
inductive ProtocolError where
  | truncated
  | lengthMismatch
  | unsupportedMethod
  | unsupportedSubtype
  | attributeTruncated
  | invalidAttributeLength
  | missingRand
  | missingAutn
  | missingMac
  | missingNotification
  | missingIdentityRequest
  | missingKeyMaterial
  | invalidAkaResult
  | invalidMac
  | packetTooLarge
  deriving DecidableEq

/-- `UsimAkaApduResult`: what the card answered. -/
structure UsimAkaApduResult where
  res : Bytes
  ck : Bytes
  ik : Bytes
  auts : Option Bytes
  deriving DecidableEq

/-- `EapAkaKeyMaterial`. -/
structure KeyMaterial where
  kAut : Bytes
  msk : Bytes
  deriving DecidableEq

/-- `EapAkaChallenge`. -/
structure Challenge where
  identifier : UInt8
  rand : Bytes
  autn : Bytes
  macPresent : Bool
  resultIndication : Bool
  packet : Bytes
  macOffset : Option ℕ
  deriving DecidableEq

/-- `EapAkaNotification`. -/
structure Notification where
  identifier : UInt8
  code : UInt16
  success : Bool
  afterChallenge : Bool
  macRequired : Bool
  deriving DecidableEq

/-- `EapAkaIdentityRequest`. -/
structure IdentityRequest where
  identifier : UInt8
  requestKind : String
  deriving DecidableEq

/-- `EapAkaResponsePacket`. -/
structure ResponsePacket where
  packet : Bytes
  keyMaterial : Option KeyMaterial
  deriving DecidableEq

/-- `msk_for_ike_auth`. -/
def ResponsePacket.mskForIkeAuth (response : ResponsePacket) : Option Bytes :=
  response.keyMaterial.map (·.msk)

/-! ## Reading requests -/

/-- `parse_attributes`: the types with their values. -/
def parseAttributes (input : Bytes) : Except ProtocolError (List (UInt8 × Bytes)) :=
  match input with
  | [] => .ok []
  | attributeType :: units :: x :: y :: rest =>
    let len := units.toNat * 4
    if units = 0 then .error .invalidAttributeLength
    else if rest.length + 4 < len then .error .attributeTruncated
    else do
      let attributes ← parseAttributes (rest.drop (len - 4))
      return (attributeType, x :: y :: rest.take (len - 4)) :: attributes
  | _ => .error .attributeTruncated
termination_by input.length
decreasing_by
  simp only [List.length_cons, List.length_drop]
  omega

/-- The checks that every request passes first, and its attributes. -/
def parseRequest (subtype : UInt8) (packet : Bytes) :
    Except ProtocolError (List (UInt8 × Bytes)) := do
  if packet.length < headerLen then
    throw .truncated
  if fromBe (slice packet 2 4) ≠ packet.length then
    throw .lengthMismatch
  if packet.getD 4 0 ≠ eapTypeAka then
    throw .unsupportedMethod
  if packet.getD 5 0 ≠ subtype then
    throw .unsupportedSubtype
  parseAttributes (packet.drop headerLen)

/-- The kind of identity an attribute asks for. -/
def identityRequestKind (attr : UInt8 × Bytes) : Option String :=
  if attr.1 = atPermanentIdReq then some "permanent"
  else if attr.1 = atFullauthIdReq then some "full_auth"
  else if attr.1 = atAnyIdReq then some "any"
  else none

/-- `parse_identity_request`. -/
def parseIdentityRequest (packet : Bytes) : Except ProtocolError IdentityRequest := do
  let attributes ← parseRequest subtypeIdentity packet
  let requestKind ← okOr .missingIdentityRequest (attributes.findSome? identityRequestKind)
  return ⟨packet.getD 1 0, requestKind⟩

/-- `parse_notification`. -/
def parseNotification (packet : Bytes) : Except ProtocolError Notification := do
  let attributes ← parseRequest subtypeNotification packet
  let (_, value) ← okOr .missingNotification (attributes.find? (·.1 = atNotification))
  if value.length ≠ 2 then
    throw .invalidAttributeLength
  let code := UInt16.ofNat (fromBe value)
  let afterChallenge : Bool := code &&& 0x4000 = 0
  return {
    identifier := packet.getD 1 0
    code, afterChallenge
    success := code &&& 0x8000 ≠ 0
    macRequired := afterChallenge }

/-- `extract_reserved_prefixed_value`. -/
def extractReservedPrefixedValue (value : Bytes) (expectedLen : ℕ) : Except ProtocolError Bytes :=
  if value.length ≠ 2 + expectedLen then .error .invalidAttributeLength else .ok (value.drop 2)

/-- What the loop of `parse_challenge` has gathered. -/
structure ChallengeScan where
  rand : Option Bytes
  autn : Option Bytes
  macOffset : Option ℕ
  resultIndication : Bool
  attributeOffset : ℕ

/-- One attribute of a challenge. -/
def scanChallengeAttribute (scan : ChallengeScan) (attr : UInt8 × Bytes) :
    Except ProtocolError ChallengeScan := do
  let (attributeType, value) := attr
  let next := scan.attributeOffset + 2 + value.length
  if attributeType = atRand then
    let rand ← extractReservedPrefixedValue value 16
    return { scan with rand := some rand, attributeOffset := next }
  else if attributeType = atAutn then
    let autn ← extractReservedPrefixedValue value 16
    return { scan with autn := some autn, attributeOffset := next }
  else if attributeType = atMac then
    if value.length ≠ 2 + macLen then
      throw .invalidAttributeLength
    return { scan with macOffset := some (scan.attributeOffset + 4), attributeOffset := next }
  else
    return { scan with
      resultIndication := scan.resultIndication || attributeType = atResultInd
      attributeOffset := next }

/-- `parse_challenge`. -/
def parseChallenge (packet : Bytes) : Except ProtocolError Challenge := do
  let attributes ← parseRequest subtypeChallenge packet
  let scan ← attributes.foldlM scanChallengeAttribute ⟨none, none, none, false, headerLen⟩
  let rand ← okOr .missingRand scan.rand
  let autn ← okOr .missingAutn scan.autn
  return {
    identifier := packet.getD 1 0
    rand, autn, packet
    macPresent := scan.macOffset.isSome
    resultIndication := scan.resultIndication
    macOffset := scan.macOffset }

/-! ## Keys -/

/-- `u32::rotate_left`. -/
def rotateLeft (x : UInt32) (n : UInt32) : UInt32 := (x <<< n) ||| (x >>> (32 - n))

/-- The words of a block, and the 64 that follow from them. -/
def sha1Schedule (block : Bytes) : List UInt32 :=
  let words := (List.range 16).map fun i => UInt32.ofNat (fromBe (slice block (4 * i) (4 * i + 4)))
  (List.range 64).foldl (fun w n =>
      let i := n + 16
      w ++ [rotateLeft (w.getD (i - 3) 0 ^^^ w.getD (i - 8) 0 ^^^ w.getD (i - 14) 0 ^^^
        w.getD (i - 16) 0) 1]) words

/-- The five words of the state of SHA-1. -/
structure Sha1State where
  a : UInt32
  b : UInt32
  c : UInt32
  d : UInt32
  e : UInt32
  deriving DecidableEq

/-- The function and the constant of a round. -/
def sha1Round (s : Sha1State) (i : ℕ) : UInt32 × UInt32 :=
  if i < 20 then ((s.b &&& s.c) ||| (~~~s.b &&& s.d), 0x5a827999)
  else if i < 40 then (s.b ^^^ s.c ^^^ s.d, 0x6ed9eba1)
  else if i < 60 then ((s.b &&& s.c) ||| (s.b &&& s.d) ||| (s.c &&& s.d), 0x8f1bbcdc)
  else (s.b ^^^ s.c ^^^ s.d, 0xca62c1d6)

/-- `sha1_compress`. -/
def sha1Compress (state : Sha1State) (block : Bytes) : Sha1State :=
  let last := (sha1Schedule block).zipIdx.foldl (fun s (word, i) =>
      let (f, k) := sha1Round s i
      ⟨rotateLeft s.a 5 + f + s.e + k + word, s.a, rotateLeft s.b 30, s.c, s.d⟩) state
  ⟨state.a + last.a, state.b + last.b, state.c + last.c, state.d + last.d, state.e + last.e⟩

/-- The octets of the state. -/
def Sha1State.octets (s : Sha1State) : Bytes :=
  be 4 s.a.toNat ++ be 4 s.b.toNat ++ be 4 s.c.toNat ++ be 4 s.d.toNat ++ be 4 s.e.toNat

/-- `add_one_and_w`: from the last octet on, with a carry of one to begin with. -/
def addOneAndW (xkey w : Bytes) : Bytes :=
  ((xkey.zip w).foldr (fun p acc =>
    let sum := acc.1 + p.1.toNat + p.2.toNat
    (sum / 256, UInt8.ofNat sum :: acc.2)) ((1 : ℕ), ([] : Bytes))).2

/-- The constant state the pseudo-random function compresses with. -/
def fips186State : Sha1State := ⟨0x67452301, 0xefcdab89, 0x98badcfe, 0x10325476, 0xc3d2e1f0⟩

/-- The loop of `fips186_2_prf`, with the octets that remain to be put out. -/
def fips186Loop (xkey : Bytes) (remaining : ℕ) : Bytes :=
  if remaining = 0 then []
  else
    let w := (sha1Compress fips186State xkey).octets
    w.take remaining ++
      fips186Loop (addOneAndW (xkey.take 20) w ++ xkey.drop 20) (remaining - 20)
termination_by remaining
decreasing_by omega

/-- `fips186_2_prf`, over a key of 64 octets. -/
def fips1862Prf (seed : Bytes) (outLen : ℕ) : Bytes :=
  let seed := seed.take 64
  fips186Loop (seed ++ List.replicate (64 - seed.length) 0) outLen

/-- `derive_key_material`, of the octets of the identity. -/
def deriveKeyMaterial (c : Ciphers) (identity ik ck : Bytes) : KeyMaterial :=
  let keyStream := fips1862Prf (c.sha1 (identity ++ ik ++ ck)) (16 + 16 + 64 + 64)
  ⟨slice keyStream 16 32, slice keyStream 32 96⟩

/-- `calculate_mac`. -/
def calculateMac (c : Ciphers) (kAut packet : Bytes) : Bytes :=
  (c.hmac .sha1 kAut packet).take macLen

/-- The packet with its code set to `mac`. -/
def setMac (packet : Bytes) (offset : ℕ) (mac : Bytes) : Bytes :=
  packet.take offset ++ mac ++ packet.drop (offset + mac.length)

/-- The check of `verify_challenge_mac`: the code at the offset is that of the packet with zeros in
its place. -/
def verifyMac (c : Ciphers) (packet : Bytes) (macOffset : Option ℕ) (keys : KeyMaterial) :
    Except ProtocolError Unit := do
  let offset ← okOr .missingMac macOffset
  if packet.length < offset + macLen then
    throw .invalidAttributeLength
  let received := slice packet offset (offset + macLen)
  let canonical := setMac packet offset (List.replicate macLen 0)
  let expected := calculateMac c keys.kAut canonical
  let difference := (received.zip expected).foldl (fun difference p => difference ||| (p.1 ^^^ p.2))
    (0 : UInt8)
  if difference ≠ 0 then
    throw .invalidMac

/-- `verify_challenge_mac`. -/
def verifyChallengeMac (c : Ciphers) (challenge : Challenge) (keys : KeyMaterial) :
    Except ProtocolError Unit :=
  verifyMac c challenge.packet challenge.macOffset keys

/-! ## Building responses -/

/-- `push_attribute`: the octets of one attribute. -/
def attributeOctets (attributeType : UInt8) (value : Bytes) : Except ProtocolError Bytes :=
  let paddedLen := 2 + value.length
  let pad := (4 - paddedLen % 4) % 4
  let total := paddedLen + pad
  if 255 < total / 4 then .error .packetTooLarge
  else .ok (attributeType :: UInt8.ofNat (total / 4) :: (value ++ List.replicate pad 0))

/-- `push_at_res`. -/
def atResOctets (res : Bytes) : Except ProtocolError Bytes :=
  if 128 < res.length then .error .packetTooLarge
  else attributeOctets atRes (be 2 (res.length * 8) ++ res)

/-- `build_eap_packet`. -/
def buildEapPacket (code identifier subtype : UInt8) (attributes : Bytes) :
    Except ProtocolError Bytes :=
  let len := headerLen + attributes.length
  if 65535 < len then .error .packetTooLarge
  else .ok ([code, identifier] ++ be 2 len ++ [eapTypeAka, subtype, 0, 0] ++ attributes)

/-- `build_challenge_response`. -/
def buildChallengeResponse (c : Ciphers) (challenge : Challenge) (identity : Bytes)
    (aka : UsimAkaApduResult) : Except ProtocolError ResponsePacket := do
  if ¬challenge.macPresent then
    throw .missingMac
  if aka.res.isEmpty ∨ aka.ck.length ≠ 16 ∨ aka.ik.length ≠ 16 ∨ aka.auts.isSome then
    throw .invalidAkaResult
  let keys := deriveKeyMaterial c identity aka.ik aka.ck
  verifyChallengeMac c challenge keys
  let res ← atResOctets aka.res
  let resultInd ← (if challenge.resultIndication then attributeOctets atResultInd [0, 0]
    else .ok [])
  let macOffset := (res ++ resultInd).length + headerLen + 4
  let mac ← attributeOctets atMac (List.replicate 18 0)
  let packet ← buildEapPacket eapCodeResponse challenge.identifier subtypeChallenge
    (res ++ resultInd ++ mac)
  return ⟨setMac packet macOffset (calculateMac c keys.kAut packet), some keys⟩

/-- `build_sync_failure_response`. -/
def buildSyncFailureResponse (challenge : Challenge) (auts : Bytes) :
    Except ProtocolError ResponsePacket := do
  let attributes ← attributeOctets atAuts auts
  let packet ← buildEapPacket eapCodeResponse challenge.identifier subtypeSyncFailure attributes
  return ⟨packet, none⟩

/-- `build_notification_response`. -/
def buildNotificationResponse (c : Ciphers) (notification : Notification) (keys : KeyMaterial) :
    Except ProtocolError ResponsePacket := do
  let attributes ← (if notification.macRequired then attributeOctets atMac (List.replicate 18 0)
    else .ok [])
  let packet ← buildEapPacket eapCodeResponse notification.identifier subtypeNotification attributes
  let packet := if notification.macRequired then
    setMac packet (headerLen + 4) (calculateMac c keys.kAut packet) else packet
  return ⟨packet, some keys⟩

/-- `build_identity_response`, of the octets of the identity. -/
def buildIdentityResponse (request : IdentityRequest) (identity : Bytes)
    (keyMaterial : Option KeyMaterial) : Except ProtocolError ResponsePacket := do
  if 65535 < identity.length then
    throw .packetTooLarge
  let attributes ← attributeOctets atIdentity (be 2 identity.length ++ identity)
  let packet ← buildEapPacket eapCodeResponse request.identifier subtypeIdentity attributes
  return ⟨packet, keyMaterial⟩

/-- `build_identity_response_packet`. -/
def buildIdentityResponsePacket (requestPacket identity : Bytes) :
    Except ProtocolError ResponsePacket := do
  let request ← parseIdentityRequest requestPacket
  buildIdentityResponse request identity none

/-- `notification_response`. -/
def ResponsePacket.notificationResponse (c : Ciphers) (response : ResponsePacket)
    (requestPacket : Bytes) : Except ProtocolError ResponsePacket := do
  let notification ← parseNotification requestPacket
  let keys ← okOr .missingKeyMaterial response.keyMaterial
  buildNotificationResponse c notification keys

/-- `identity_response`. -/
def ResponsePacket.identityResponse (response : ResponsePacket) (requestPacket identity : Bytes) :
    Except ProtocolError ResponsePacket := do
  let request ← parseIdentityRequest requestPacket
  buildIdentityResponse request identity response.keyMaterial

end EapAka

end SimMaster
