import SimMaster.Octets

/-!
# RTP packets

The framing of RTP as the voice code reads and writes it: a fixed header of twelve octets, then the
list of contributing sources, an extension and padding, whose lengths stand in the packet itself. A
read outside the packet is an outcome of its own, `none`; no packet leads to it (`parse_isSome`).
-/

namespace SimMaster

open Rust List Option

/-- A parsed RTP header and payload; sources, extension and padding are skipped. -/
structure RtpPacket where
  payloadType : UInt8
  marker : Bool
  sequence : ℕ
  timestamp : ℕ
  ssrc : ℕ
  payload : Bytes
  deriving DecidableEq

namespace RtpPacket

/-- Twelve octets of header, and the payload. -/
def encode (p : RtpPacket) : Bytes :=
  [0x80, (if p.marker then 0x80 else 0) ||| (p.payloadType &&& 0x7f)] ++ be 2 p.sequence ++
    be 4 p.timestamp ++ be 4 p.ssrc ++ p.payload

/-- Where the payload begins, if the sources and the extension that the header speaks of fit. -/
def payloadStart (bytes : Bytes) (first : UInt8) : Option (Option ℕ) :=
  let offset := 12 + (first &&& 0x0f).toNat * 4
  if bytes.length < offset then some none
  else if first &&& 0x10 = 0 then some (some offset)
  else if bytes.length < offset + 4 then some none
  else do
    let high ← bytes[offset + 2]?
    let low ← bytes[offset + 3]?
    let offset := offset + (4 + fromBe [high, low] * 4)
    if bytes.length < offset then return none else return some offset

/-- Where the payload ends: padding that claims more than there is counts as payload. -/
def payloadEnd (bytes : Bytes) (first : UInt8) (offset : ℕ) : Option ℕ :=
  if first &&& 0x20 ≠ 0 ∧ offset < bytes.length then do
    let pad ← bytes[bytes.length - 1]?
    return if pad.toNat ≤ bytes.length - offset then bytes.length - pad.toNat else bytes.length
  else some bytes.length

def parse (bytes : Bytes) : Option (Option RtpPacket) :=
  if bytes.length < 12 then some none
  else do
    let first : UInt8 ← bytes[0]?
    if first >>> 6 ≠ 2 then return none
    else do
      let second : UInt8 ← bytes[1]?
      let sequence ← getRange bytes 2 4
      let timestamp ← getRange bytes 4 8
      let ssrc ← getRange bytes 8 12
      match ← payloadStart bytes first with
      | none => return none
      | some offset => do
        let stop ← payloadEnd bytes first offset
        let payload ← getRange bytes offset stop
        return some {
          payloadType := second &&& 0x7f
          marker := second &&& 0x80 ≠ 0
          sequence := fromBe sequence
          timestamp := fromBe timestamp
          ssrc := fromBe ssrc
          payload }

end RtpPacket

/-! ## Octets -/

/-- A property of octets holds if it holds of all 256. -/
theorem octet_forall (P : UInt8 → Prop) [DecidablePred P] (h : ∀ i : Fin 256, P (UInt8.ofNat i))
    (b : UInt8) : P b := by
  have hb := h ⟨b.toNat, b.toNat_lt⟩
  rwa [UInt8.ofNat_toNat] at hb

/-- The upper bit and the lower seven make up the octet. -/
theorem marker_or_type (b : UInt8) : b &&& 0x80 ||| b &&& 0x7f = b ∧ b &&& 0x7f ≤ 0x7f := by
  revert b
  apply octet_forall
  decide +kernel

theorem and_of_le {b : UInt8} (h : b ≤ 0x7f) : b &&& 0x7f = b ∧ b &&& 0x80 = 0 := by
  revert b
  apply octet_forall
  decide +kernel

theorem or_and_octet (a b mask : UInt8) : (a ||| b) &&& mask = a &&& mask ||| b &&& mask := by
  apply UInt8.toBitVec_inj.mp
  simp only [UInt8.toBitVec_and, UInt8.toBitVec_or]
  ext i hi
  simp only [BitVec.getElem_and, BitVec.getElem_or]
  grind

/-- Octet 1 with another payload type. -/
theorem retyped {payloadType : UInt8} (h : payloadType ≤ 0x7f) (b : UInt8) :
    (b &&& 0x80 ||| payloadType) &&& 0x7f = payloadType ∧
      (b &&& 0x80 ||| payloadType) &&& 0x80 = b &&& 0x80 := by
  obtain ⟨htype, hmarker⟩ := and_of_le h
  have hzero : (0x80 : UInt8) &&& 0x7f = 0 := rfl
  have hself : (0x80 : UInt8) &&& 0x80 = 0x80 := rfl
  rw [or_and_octet, or_and_octet, UInt8.and_assoc, UInt8.and_assoc, htype, hmarker, hzero, hself,
    UInt8.and_zero, UInt8.zero_or, UInt8.or_zero]
  exact ⟨rfl, rfl⟩

/-! ## Reading a packet with another octet 1 -/

variable {i j : ℕ}

theorem slice_set_of_lt (bytes : Bytes) {k : ℕ} (b : UInt8) (h : k < i) :
    slice (bytes.set k b) i j = slice bytes i j := by
  rw [slice, slice, drop_set_of_lt h]

variable {bytes : Bytes}

namespace RtpPacket

theorem payloadStart_isSome (bytes : Bytes) (first : UInt8) :
    ∃ start, payloadStart bytes first = some start ∧
      ∀ offset ∈ start, 12 ≤ offset ∧ offset ≤ bytes.length := by
  rw [payloadStart]
  dsimp only
  split
  · exact ⟨none, rfl, nofun⟩
  · split
    · exact ⟨_, rfl, fun offset hoffset => by obtain rfl := some.inj hoffset; constructor <;> omega⟩
    · split
      · exact ⟨none, rfl, nofun⟩
      · next hfits =>
        rw [getElem?_eq_getElem (by omega), getElem?_eq_getElem (by omega)]
        dsimp only [bind_eq_bind, bind_some]
        split
        · exact ⟨none, rfl, nofun⟩
        · exact ⟨_, rfl,
            fun offset hoffset => by obtain rfl := some.inj hoffset; constructor <;> omega⟩

theorem payloadEnd_isSome (bytes : Bytes) (first : UInt8) {offset : ℕ} (h : offset ≤ bytes.length) :
    ∃ stop, payloadEnd bytes first offset = some stop ∧ offset ≤ stop ∧ stop ≤ bytes.length := by
  rw [payloadEnd]
  split
  · rw [getElem?_eq_getElem (by omega)]
    dsimp only [bind_eq_bind, bind_some]
    split
    · exact ⟨_, rfl, by omega, by omega⟩
    · exact ⟨_, rfl, h, le_rfl⟩
  · exact ⟨_, rfl, h, le_rfl⟩

/-- What a packet says whose sources and extension end at `offset`. -/
def packetAt (bytes : Bytes) (second : UInt8) (offset stop : ℕ) : RtpPacket where
  payloadType := second &&& 0x7f
  marker := second &&& 0x80 ≠ 0
  sequence := fromBe (slice bytes 2 4)
  timestamp := fromBe (slice bytes 4 8)
  ssrc := fromBe (slice bytes 8 12)
  payload := slice bytes offset stop

variable {first second : UInt8}

/-- Reading a packet of the version that has its header. -/
theorem parse_eq (h : 12 ≤ bytes.length)
    (hfirst : bytes[0]? = some first) (hsecond : bytes[1]? = some second)
    (hversion : first >>> 6 = 2) {start : Option ℕ} (hstart : payloadStart bytes first = some start)
    {stop : ℕ → ℕ} (hstop : ∀ offset ∈ start, payloadEnd bytes first offset = some (stop offset) ∧
      offset ≤ stop offset ∧ stop offset ≤ bytes.length) :
    parse bytes = some (start.map fun offset => packetAt bytes second offset (stop offset)) := by
  rw [parse, if_neg (not_lt.mpr h), hfirst, hsecond,
    getRange_eq (by omega : 2 ≤ 4) (by omega), getRange_eq (by omega : 4 ≤ 8) (by omega),
    getRange_eq (by omega : 8 ≤ 12) (by omega)]
  simp only [bind_eq_bind, bind_some, hversion, ne_eq, not_true_eq_false, if_false, hstart]
  cases start with
  | none => rfl
  | some offset =>
    obtain ⟨hend, hle, hlen⟩ := hstop offset rfl
    simp only [hend, bind_some, getRange_eq hle hlen]
    rfl

/-- A packet that is read, or one of another version. -/
theorem parse_cases (h : 12 ≤ bytes.length)
    (hfirst : bytes[0]? = some first) (hsecond : bytes[1]? = some second) :
    first >>> 6 ≠ 2 ∧ parse bytes = some none ∨
      first >>> 6 = 2 ∧ ∃ (start : Option ℕ) (stop : ℕ → ℕ), payloadStart bytes first = some start ∧
        (∀ offset ∈ start, 12 ≤ offset ∧ payloadEnd bytes first offset = some (stop offset)) ∧
        parse bytes = some (start.map fun offset =>
          packetAt bytes second offset (stop offset)) := by
  by_cases hversion : first >>> 6 = 2
  · obtain ⟨start, hstart, hle⟩ := payloadStart_isSome bytes first
    have hstop : ∀ offset, ∃ stop, offset ∈ start → payloadEnd bytes first offset = some stop ∧
        offset ≤ stop ∧ stop ≤ bytes.length := by
      intro offset
      by_cases hmem : offset ∈ start
      · obtain ⟨stop, hend⟩ := payloadEnd_isSome bytes first (hle offset hmem).2
        exact ⟨stop, fun _ => hend⟩
      · exact ⟨0, fun hoffset => absurd hoffset hmem⟩
    choose stop hstop using hstop
    exact Or.inr ⟨hversion, start, stop, hstart,
      fun offset hmem => ⟨(hle offset hmem).1, (hstop offset hmem).1⟩,
      parse_eq h hfirst hsecond hversion hstart hstop⟩
  · refine Or.inl ⟨hversion, ?_⟩
    rw [parse, if_neg (not_lt.mpr h), hfirst]
    simp only [bind_eq_bind, bind_some, if_pos hversion]
    rfl

/-- Every packet is read within its octets. -/
theorem parse_isSome (bytes : Bytes) : ∃ p, parse bytes = some p := by
  by_cases h : bytes.length < 12
  · exact ⟨none, if_pos h⟩
  have hfirst : bytes[0]? = some bytes[0] := getElem?_eq_getElem (by omega)
  have hsecond : bytes[1]? = some bytes[1] := getElem?_eq_getElem (by omega)
  rcases parse_cases (not_lt.mp h) hfirst hsecond with ⟨-, hparse⟩ | ⟨-, _, _, -, -, hparse⟩
  · exact ⟨_, hparse⟩
  · exact ⟨_, hparse⟩

/-- The packet with another octet 1. -/
def withSecond (p : RtpPacket) (second : UInt8) : RtpPacket :=
  { p with payloadType := second &&& 0x7f, marker := second &&& 0x80 ≠ 0 }

theorem payloadStart_set (bytes : Bytes) (first b : UInt8) :
    payloadStart (bytes.set 1 b) first = payloadStart bytes first := by
  rw [payloadStart, payloadStart, length_set, getElem?_set_ne (by omega),
    getElem?_set_ne (by omega)]

theorem payloadEnd_set (h : 12 ≤ bytes.length) (first b : UInt8) (offset : ℕ) :
    payloadEnd (bytes.set 1 b) first offset = payloadEnd bytes first offset := by
  rw [payloadEnd, payloadEnd, length_set, getElem?_set_ne (by omega)]

/-- Only octet 1 holds the payload type and the marker, and it holds nothing else. -/
theorem parse_set (bytes : Bytes) (b : UInt8) :
    parse (bytes.set 1 b) = (parse bytes).map (Option.map fun p => p.withSecond b) := by
  by_cases h : bytes.length < 12
  · have hshort : (bytes.set 1 b).length < 12 := by rwa [length_set]
    rw [parse, parse, if_pos h, if_pos hshort]
    rfl
  have hlen : 12 ≤ bytes.length := not_lt.mp h
  have hlen' : 12 ≤ (bytes.set 1 b).length := by rwa [length_set]
  have hfirst : bytes[0]? = some bytes[0] := getElem?_eq_getElem (by omega)
  have hsecond : bytes[1]? = some bytes[1] := getElem?_eq_getElem (by omega)
  have hfirst' : (bytes.set 1 b)[0]? = some bytes[0] := by
    rw [getElem?_set_ne (by omega), hfirst]
  have hsecond' : (bytes.set 1 b)[1]? = some b := getElem?_set_self (by omega)
  rcases parse_cases hlen hfirst hsecond with ⟨hversion, hparse⟩ |
    ⟨hversion, start, stop, hstart, hstop, hparse⟩ <;>
  rcases parse_cases hlen' hfirst' hsecond' with ⟨hversion', hparse'⟩ |
    ⟨hversion', start', stop', hstart', hstop', hparse'⟩
  · rw [hparse, hparse']
    rfl
  · exact absurd hversion' hversion
  · exact absurd hversion hversion'
  · rw [payloadStart_set, hstart] at hstart'
    obtain rfl := some.inj hstart'
    rw [hparse, hparse']
    cases start with
    | none => rfl
    | some offset =>
      have hend := (hstop' offset rfl).2
      obtain ⟨hle, hstop⟩ := hstop offset rfl
      rw [payloadEnd_set hlen, hstop] at hend
      rw [map_some, map_some, map_some, map_some, packetAt,
        slice_set_of_lt _ b (by omega), slice_set_of_lt _ b (by omega),
        slice_set_of_lt _ b (by omega), slice_set_of_lt _ b (by omega), ← some.inj hend]
      rfl

/-- What octet 1 of a packet says. -/
theorem parse_second {p : RtpPacket} (h : parse bytes = some (some p)) :
    ∃ second, bytes[1]? = some second ∧ p.payloadType = second &&& 0x7f ∧
      p.marker = (second &&& 0x80 ≠ 0 : Bool) := by
  by_cases hlen : bytes.length < 12
  · rw [parse, if_pos hlen] at h
    cases h
  have hfirst : bytes[0]? = some bytes[0] := getElem?_eq_getElem (by omega)
  have hsecond : bytes[1]? = some bytes[1] := getElem?_eq_getElem (by omega)
  rcases parse_cases (not_lt.mp hlen) hfirst hsecond with ⟨-, hparse⟩ | ⟨-, start, _, -, -, hparse⟩
  · rw [hparse] at h
    cases h
  · rw [hparse] at h
    obtain ⟨offset, -, rfl⟩ := map_eq_some_iff.mp (some.inj h)
    exact ⟨_, hsecond, rfl, rfl⟩

/-- A packet that was encoded is read back. -/
theorem parse_encode (p : RtpPacket) (htype : p.payloadType ≤ 0x7f)
    (hsequence : p.sequence < 256 ^ 2)
    (htimestamp : p.timestamp < 256 ^ 4) (hssrc : p.ssrc < 256 ^ 4) :
    parse p.encode = some (some p) := by
  have hlen : p.encode.length = 12 + p.payload.length := by
    rw [encode, length_append, length_append, length_append, length_append,
      length_be, length_be, length_be]
    rfl
  have hstart : payloadStart p.encode 0x80 = some (some 12) := by
    rw [payloadStart]
    dsimp only
    rw [if_neg (by rw [hlen]; exact not_lt.mpr (Nat.le_add_right _ _)), if_pos (by decide)]
    rfl
  have hend : payloadEnd p.encode 0x80 12 = some p.encode.length :=
    if_neg fun h => h.1 (by decide)
  have hstop : ∀ offset ∈ some 12, payloadEnd p.encode 0x80 offset = some p.encode.length ∧
      offset ≤ p.encode.length ∧ p.encode.length ≤ p.encode.length := by
    rintro offset ⟨⟩
    exact ⟨hend, by omega, le_rfl⟩
  have hpayload : slice p.encode 12 p.encode.length = p.payload := by
    have hdrop : p.encode.drop 12 = p.payload := rfl
    rw [slice, hdrop, hlen, Nat.add_sub_cancel_left, take_length]
  have hmarked : ∀ marker :
      Bool, ((if marker then 0x80 else 0) ||| p.payloadType &&& 0x7f) &&& 0x7f =
      p.payloadType ∧ (((if marker then 0x80 else 0) ||| p.payloadType &&& 0x7f) &&& 0x80 ≠ 0 :
        Bool) =
      marker := by
    obtain ⟨htype, hmarker⟩ := and_of_le htype
    rintro (_ | _) <;> rw [htype, or_and_octet, or_and_octet, htype, hmarker, UInt8.or_zero] <;>
      exact ⟨UInt8.zero_or, by decide⟩
  rw [parse_eq (by omega) rfl rfl (by decide) hstart hstop, map_some, packetAt, hpayload,
    (hmarked p.marker).1, (hmarked p.marker).2]
  have hsequence' : slice p.encode 2 4 = be 2 p.sequence := rfl
  have htimestamp' : slice p.encode 4 8 = be 4 p.timestamp := rfl
  have hssrc' : slice p.encode 8 12 = be 4 p.ssrc := rfl
  rw [hsequence', htimestamp', hssrc', fromBe_be hsequence, fromBe_be htimestamp, fromBe_be hssrc]

end RtpPacket

end SimMaster
