import SimMaster.SmsDeliver

/-!
# RP-DATA from the network

The body of an RP-DATA message has the addresses of both ends in front of the TPDU, but some cores
leave out the address of the destination. The reader takes what stands there for the TPDU first, and
for an address only if that fails. A TPDU has thirteen octets or more, so an address never passes
for one.
-/

namespace SimMaster

open Rust Method List

/-- `parse_mt_rp_user_data`. -/
def parseMtRpUserData (chrono : Chrono) (reference : UInt8) (body : Bytes) (lengthOffset : ℕ) :
    Except SmsEncodingError MtSmsDeliver :=
  if body.length ≤ lengthOffset then .error .bodyTooLong
  else
    let userDataLen := (body.getD lengthOffset 0).toNat
    let userDataOffset := lengthOffset + 1
    if userDataLen = 0 ∨ body.length < userDataOffset + userDataLen then .error .bodyTooLong
    else parseSmsDeliverTpdu chrono reference
      (slice body userDataOffset (userDataOffset + userDataLen))

/-- `parse_mt_rp_data`. -/
def parseMtRpData (chrono : Chrono) (body : Bytes) : Except SmsEncodingError MtSmsDeliver :=
  if body.length < 5 ∨ body.getD 0 0 ≠ 0x01 then .error .bodyTooLong
  else
    let reference := body.getD 1 0
    let originLen := (body.getD 2 0).toNat
    if body.length < 3 + originLen then .error .bodyTooLong
    else
      let offset := 3 + originLen
      if body.length ≤ offset then .error .bodyTooLong
      else
        match parseMtRpUserData chrono reference body offset with
        | .ok message => .ok message
        | .error _ =>
          let destinationLen := (body.getD offset 0).toNat
          let destinationEnd := offset + 1 + destinationLen
          if body.length ≤ destinationEnd then .error .bodyTooLong
          else parseMtRpUserData chrono reference body destinationEnd

/-! ## The elements of a body -/

/-- An element with its length in front. -/
def lengthPrefixed (value : Bytes) : Bytes := UInt8.ofNat value.length :: value

/-- The head of an RP-DATA body: its type, the reference and the address of the originator. -/
def rpDataHead (reference : UInt8) (origin : Bytes) : Bytes :=
  0x01 :: reference :: lengthPrefixed origin

variable {chrono : Chrono}

variable {reference : UInt8} {tpdu : Bytes}

/-- A TPDU that is accepted has room for its fixed fields. -/
theorem parseSmsDeliverTpdu_length {message : MtSmsDeliver}
    (h : parseSmsDeliverTpdu chrono reference tpdu = .ok message) : 13 ≤ tpdu.length := by
  rw [parseSmsDeliverTpdu.eq_def] at h
  split at h
  next first digits tonNpi rest =>
    obtain ⟨hlong, -⟩ := guard_eq_ok h
    simp only [length_cons]
    omega
  next => cases h

/-- What is behind the place of the length does not matter for the user data. -/
theorem parseMtRpUserData_lengthPrefixed (chrono : Chrono) (reference : UInt8) (front : Bytes)
    (hpos : tpdu ≠ []) (hlen : tpdu.length ≤ 255) (behind : Bytes) :
    parseMtRpUserData chrono reference (front ++ (lengthPrefixed tpdu ++ behind)) front.length =
      parseSmsDeliverTpdu chrono reference tpdu := by
  have hnat : (UInt8.ofNat tpdu.length).toNat = tpdu.length :=
    UInt8.toNat_ofNat_of_lt' (Nat.lt_succ_of_le hlen)
  have hoctet : (front ++ (lengthPrefixed tpdu ++ behind)).getD front.length 0 =
      UInt8.ofNat tpdu.length := by
    simp [lengthPrefixed, List.getD]
  have htotal : (front ++ (lengthPrefixed tpdu ++ behind)).length =
      front.length + 1 + tpdu.length + behind.length := by
    simp only [lengthPrefixed, length_append, length_cons]
    omega
  have hdrop : (front ++ (lengthPrefixed tpdu ++ behind)).drop (front.length + 1) =
      tpdu ++ behind := by
    rw [← drop_drop, drop_left, lengthPrefixed, cons_append, drop_one, tail_cons]
  have hne : tpdu.length ≠ 0 := fun h => hpos (length_eq_zero_iff.mp h)
  rw [parseMtRpUserData, if_neg (by omega)]
  dsimp only
  rw [hoctet, hnat, if_neg (by omega), slice, hdrop, Nat.add_sub_cancel_left, take_left]

/-- An element that is too short for a TPDU is none. -/
theorem parseMtRpUserData_short (chrono : Chrono) (reference : UInt8) (front : Bytes)
    {value : Bytes} (hlen : value.length ≤ 12) (behind : Bytes) :
    ∃ error, parseMtRpUserData chrono reference (front ++ (lengthPrefixed value ++ behind))
      front.length = .error error := by
  by_cases hempty : value = []
  · subst hempty
    refine ⟨.bodyTooLong, ?_⟩
    have hoctet : (front ++ (lengthPrefixed [] ++ behind)).getD front.length 0 = 0 := by
      simp [lengthPrefixed, List.getD]
    rw [parseMtRpUserData]
    split
    next => rfl
    next =>
      dsimp only
      rw [hoctet, if_pos (.inl rfl)]
  · rw [parseMtRpUserData_lengthPrefixed chrono reference front hempty (by omega)]
    cases h : parseSmsDeliverTpdu chrono reference value with
    | error error => exact ⟨error, rfl⟩
    | ok message =>
      have := parseSmsDeliverTpdu_length h
      omega

theorem length_rpDataHead (reference : UInt8) (origin : Bytes) :
    (rpDataHead reference origin).length = 3 + origin.length := by
  simp only [rpDataHead, lengthPrefixed, length_cons]
  omega

/-- The reader gets to the place behind the originator. -/
theorem parseMtRpData_head {origin : Bytes} (horigin : origin.length ≤ 255)
    {rest : Bytes} (hrest : 2 ≤ rest.length) {result : Except SmsEncodingError MtSmsDeliver}
    (hresult : parseMtRpUserData chrono reference (rpDataHead reference origin ++ rest)
      (rpDataHead reference origin).length = result) : (∀ message, result = .ok message →
      parseMtRpData chrono (rpDataHead reference origin ++ rest) = .ok message) ∧
    ∀ error, result = .error error →
      (rpDataHead reference origin).length + 1 + (rest.getD 0 0).toNat <
        (rpDataHead reference origin ++ rest).length →
      parseMtRpData chrono (rpDataHead reference origin ++ rest) =
        parseMtRpUserData chrono reference (rpDataHead reference origin ++ rest)
          ((rpDataHead reference origin).length + 1 + (rest.getD 0 0).toNat) := by
  have hhead := length_rpDataHead reference origin
  have htype : (rpDataHead reference origin ++ rest).getD 0 0 = 0x01 := rfl
  have hreference : (rpDataHead reference origin ++ rest).getD 1 0 = reference := rfl
  have horiginLen : ((rpDataHead reference origin ++ rest).getD 2 0).toNat = origin.length :=
    UInt8.toNat_ofNat_of_lt' (Nat.lt_succ_of_le horigin)
  have hdestination : (rpDataHead reference origin ++ rest).getD (3 + origin.length) 0 =
      rest.getD 0 0 := by
    rw [getD_append_right _ _ _ _ hhead.le, hhead, Nat.sub_self]
  have hlong : 5 + origin.length ≤ (rpDataHead reference origin ++ rest).length := by
    rw [length_append, hhead]
    omega
  rw [hhead] at hresult ⊢
  generalize rpDataHead reference origin ++ rest = body at *
  rw [parseMtRpData, if_neg (not_or.mpr ⟨by omega, not_not.mpr htype⟩)]
  dsimp only
  rw [horiginLen, if_neg (by omega), if_neg (by omega), hreference, hresult, hdestination]
  refine ⟨fun message h => ?_, fun error h hfits => ?_⟩
  · rw [h]
  · rw [h]
    exact if_neg (Nat.not_le.mpr hfits)

/-- **The destination of RP-DATA.** A TPDU that is accepted is read from an RP-DATA body with any
originator, whether the address of a destination of up to twelve octets stands in front of it or
none at all. -/
theorem parseMtRpData_destination {reference : UInt8} {tpdu : Bytes} {message : MtSmsDeliver}
    (haccepted : parseSmsDeliverTpdu chrono reference tpdu = .ok message)
    (htpdu : tpdu.length ≤ 255) {origin destination : Bytes} (horigin : origin.length ≤ 255)
    (hdestination : destination.length ≤ 12) : parseMtRpData chrono (rpDataHead reference origin ++
        (lengthPrefixed destination ++ lengthPrefixed tpdu)) = .ok message ∧
      parseMtRpData chrono (rpDataHead reference origin ++ lengthPrefixed tpdu) = .ok message := by
  have hlen := parseSmsDeliverTpdu_length haccepted
  have hne : tpdu ≠ [] := by
    rintro rfl
    cases hlen
  have hprefixed : (lengthPrefixed tpdu).length = tpdu.length + 1 := length_cons
  have hdestNat : ((lengthPrefixed destination ++ lengthPrefixed tpdu).getD 0 0).toNat =
      destination.length := UInt8.toNat_ofNat_of_lt' (show destination.length < 256 by omega)
  constructor
  · -- the destination fails as a TPDU, and behind it stands the TPDU
    obtain ⟨error, herror⟩ := parseMtRpUserData_short chrono reference
      (rpDataHead reference origin) hdestination (lengthPrefixed tpdu)
    have hread := parseMtRpUserData_lengthPrefixed chrono reference
      (rpDataHead reference origin ++ lengthPrefixed destination) hne htpdu []
    rw [append_nil, append_assoc, haccepted] at hread
    have hstop : (rpDataHead reference origin ++ lengthPrefixed destination).length =
        (rpDataHead reference origin).length + 1 + destination.length := by
      simp only [lengthPrefixed, length_append, length_cons]
      omega
    rw [(parseMtRpData_head horigin (by rw [length_append]; omega) herror).2 error rfl
      (by rw [hdestNat, length_append, length_append, lengthPrefixed, length_cons]
          omega), hdestNat, ← hstop, hread]
  · have hread := parseMtRpUserData_lengthPrefixed chrono reference
      (rpDataHead reference origin) hne htpdu []
    rw [append_nil] at hread
    exact (parseMtRpData_head horigin (by omega) hread).1 message haccepted

/-- A calendar that knows the noon of the first of June 2026. -/
def firstOfJune : Chrono where
  Instant := Unit
  parseFromRfc3339 text := if text = "2026-06-01T12:00:00Z".toList then some () else none
  timestamp _ := 1780315200
  toRfc3339 _ := "2026-06-01T12:00:00Z".toList
  withYmdAndHms offset year month day hour minute second :=
    if offset = 0 ∧ year = 2026 ∧ month = 6 ∧ day = 1 ∧ hour = 12 ∧ minute = 0 ∧ second = 0 then
      some ()
    else none

/-- A message of one letter from 1234, of that noon. -/
def juneTpdu : Bytes := [0, 4, 0x81, 0x21, 0x43, 0, 8, 0x62, 0x60, 0x10, 0x21, 0, 0, 0, 2, 0, 0x41]

def juneMessage : MtSmsDeliver where
  rpMessageReference := 7
  originator := "1234".toList
  text := ['A']
  userDataBytes := 2
  serviceCenterTimestamp := "2026-06-01T12:00:00Z".toList
  segmentReference := none
  segmentSequence := 1
  segmentTotal := 1

theorem parseMtRpData_destination_june : parseMtRpData firstOfJune (rpDataHead 7 [0x91, 0x21] ++
        (lengthPrefixed (replicate 12 0x41) ++ lengthPrefixed juneTpdu)) = .ok juneMessage ∧
      parseMtRpData firstOfJune (rpDataHead 7 [0x91, 0x21] ++ lengthPrefixed juneTpdu) =
        .ok juneMessage :=
  parseMtRpData_destination (by decide +kernel) (by decide) (by decide) (by decide)

end SimMaster
