import SimMaster.SmsAddress

/-!
# Reading SMS user data

The decoding half of `sms_codec.rs` below the TPDU: the user data header with
its concatenation element, and the three alphabets a data coding scheme selects.
-/

namespace SimMaster

open Rust List

/-- `SmsAlphabet`. -/
inductive SmsAlphabet : Type where
  | gsm7
  | binary
  | ucs2
  deriving DecidableEq

/-- `sms_alphabet_for_dcs`: compressed and unknown codings stay binary. -/
def smsAlphabetForDcs (dcs : UInt8) : SmsAlphabet :=
  let group := dcs.toNat / 16
  if group ≤ 0x3 then
    if dcs &&& 0x20 ≠ 0 then .binary
    else
      match (dcs.toNat / 4) % 4 with
      | 0 => .gsm7
      | 1 => .binary
      | 2 => .ucs2
      | _ => .binary
  else if group = 0xc ∨ group = 0xd then .gsm7
  else if group = 0xe then .ucs2
  else if group = 0xf ∧ dcs &&& 0x04 = 0 then .gsm7
  else .binary

/-! ## The user data header -/

/-- `SmsSegmentInfo`. -/
structure SmsSegmentInfo : Type where
  reference : Option UInt16
  sequence : UInt8
  total : UInt8
  deriving DecidableEq

/-- `SmsSegmentInfo::single`. -/
def SmsSegmentInfo.single : SmsSegmentInfo := ⟨none, 1, 1⟩

/-- `SmsUserDataHeader`. -/
structure SmsUserDataHeader : Type where
  segment : SmsSegmentInfo
  headerOctets : ℕ
  deriving DecidableEq

/-- `SmsUserDataHeader::empty`. -/
def SmsUserDataHeader.empty : SmsUserDataHeader := ⟨.single, 0⟩

/-- What one information element does to the segment info: the two
concatenation elements set it when they are plausible, every other is skipped. -/
def readElement (segment : SmsSegmentInfo) (iei : UInt8) (value : Bytes) : SmsSegmentInfo :=
  match iei, value with
  | 0x00, [reference, total, sequence] =>
    if total ≠ 0 ∧ sequence ≠ 0 ∧ sequence ≤ total then
      ⟨some (UInt16.ofNat reference.toNat), sequence, total⟩
    else segment
  | 0x08, [referenceHi, referenceLo, total, sequence] =>
    if total ≠ 0 ∧ sequence ≠ 0 ∧ sequence ≤ total then
      ⟨some (UInt16.ofNat (referenceHi.toNat * 256 + referenceLo.toNat)), sequence, total⟩
    else segment
  | _, _ => segment

/-- The element loop of `parse_user_data_header`. Every round consumes two
octets or more, so the header's length is enough fuel. -/
def scanElements : ℕ → SmsSegmentInfo → Bytes → Except SmsEncodingError SmsSegmentInfo
  | fuel + 1, segment, iei :: len :: rest =>
    if rest.length < len.toNat then .error .bodyTooLong
    else scanElements fuel (readElement segment iei (rest.take len.toNat)) (rest.drop len.toNat)
  | _, segment, _ => .ok segment

/-- `parse_user_data_header`. -/
def parseUserDataHeader (userData : Bytes) : Except SmsEncodingError SmsUserDataHeader :=
  match userData with
  | [] => .error .bodyTooLong
  | headerLen :: rest =>
    let headerTotal := 1 + headerLen.toNat
    if userData.length < headerTotal then .error .bodyTooLong
    else do
      let header := rest.take headerLen.toNat
      let segment ← scanElements header.length .single header
      .ok ⟨segment, headerTotal⟩

/-! ## The alphabets -/

/-- `decode_ucs2_text`. -/
def decodeUcs2Text (userData : Bytes) (octets : ℕ) : Except SmsEncodingError Str :=
  let len := min userData.length octets
  if len % 2 ≠ 0 then .error .bodyTooLong
  else
    match fromUtf16 (fromBeBytes (userData.take len)) with
    | some text => .ok text
    | none => .error .bodyTooLong

/-- `decode_binary_user_data`. -/
def decodeBinaryUserData (userData : Bytes) (udlOctets headerOctets : ℕ) :
    Except SmsEncodingError Str :=
  let userData := userData.take (min userData.length udlOctets)
  if userData.length < headerOctets then .error .bodyTooLong
  else .ok ("0x".toList ++ hexLower (userData.drop headerOctets))

/-- `decode_gsm7_text_from_bit_offset`. -/
def decodeGsm7TextFromBitOffset (userData : Bytes) (septetCount bitOffset : ℕ) : Str :=
  let availableBits := userData.length * 8
  if availableBits ≤ bitOffset then []
  else
    let maxSeptets := (availableBits - bitOffset) / 7
    let count := min septetCount maxSeptets
    gsm7Text false ((range count).map fun index => septetAt userData (bitOffset + index * 7))

/-- `decode_gsm7_text`. -/
def decodeGsm7Text (userData : Bytes) (septetCount : ℕ) : Str :=
  decodeGsm7TextFromBitOffset userData septetCount 0

/-- `decode_gsm7_user_data`. -/
def decodeGsm7UserData (userData : Bytes) (udlSeptets headerOctets : ℕ) : Str :=
  if headerOctets = 0 then decodeGsm7Text userData udlSeptets
  else
    let headerSeptets := divCeil (headerOctets * 8) 7
    if udlSeptets ≤ headerSeptets then []
    else
      decodeGsm7TextFromBitOffset userData (udlSeptets - headerSeptets) (headerSeptets * 7)

/-! ## Reading back what a builder wrote -/

/-- UCS-2 user data decodes to the text it encodes. -/
theorem decodeUcs2Text_beBytes (text : Str) :
    decodeUcs2Text (beBytes (encodeUtf16 text)) (beBytes (encodeUtf16 text)).length = .ok text := by
  have heven : (beBytes (encodeUtf16 text)).length % 2 = 0 := by
    rw [length_beBytes]
    omega
  simp [decodeUcs2Text, heven, fromBeBytes_beBytes, fromUtf16_encodeUtf16]

/-- Septets packed at an offset of a clear stream decode to the text they came
from, however many spare bits follow. -/
theorem decodeGsm7TextFromBitOffset_writeSeptets {text : Str} {septets out : Bytes} {offset : ℕ}
    (hs : gsm7Septets text = some septets) (hne : septets ≠ [])
    (hroom : offset + 7 * septets.length ≤ 8 * out.length)
    (hclear : ∀ k, offset ≤ k → BitStream.bit out k = false) :
    decodeGsm7TextFromBitOffset (writeSeptets out offset septets) septets.length offset = text := by
  have hpos : 0 < septets.length := length_pos_of_ne_nil hne
  have hcount : min septets.length ((out.length * 8 - offset) / 7) = septets.length := by
    rw [Nat.min_eq_left]
    rw [Nat.le_div_iff_mul_le (by decide)]
    omega
  have hread : (range septets.length).map
      (fun index => septetAt (writeSeptets out offset septets) (offset + index * 7)) = septets := by
    apply ext_getElem (by simp)
    intro j h₁ h₂
    rw [getElem_map, getElem_range, septetAt_writeSeptets hroom hclear (gsm7Septets_lt hs) h₂]
  simp only [decodeGsm7TextFromBitOffset, length_writeSeptets]
  rw [if_neg (by omega), hcount, hread, gsm7Text_gsm7Septets hs]

end SimMaster
