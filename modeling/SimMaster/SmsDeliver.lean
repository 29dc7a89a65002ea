import SimMaster.NativeInbox
import SimMaster.Octets
import SimMaster.SmsUserData

/-!
# Reading SMS-DELIVER and SMS-STATUS-REPORT

The PDUs a modem hands over: the service centre's address in front of the TPDU. A message is read
twice. `parseModemDeliver` checks the framing to the last octet and keeps what tells two users of
one reference apart, then `parseSmsDeliverTpdu`, which the network path uses too, decodes it.
-/

namespace SimMaster

open Rust Option

/-- `MtSmsDeliver`. -/
structure MtSmsDeliver where
  rpMessageReference : UInt8
  originator : Str
  text : Str
  userDataBytes : ℕ
  serviceCenterTimestamp : Str
  segmentReference : Option UInt16
  segmentSequence : UInt8
  segmentTotal : UInt8
  deriving DecidableEq

/-- `MtSmsDeliver::is_duplicate_delivery`. -/
def MtSmsDeliver.isDuplicateDelivery (message other : MtSmsDeliver) : Bool :=
  message.originator == other.originator && message.text == other.text &&
    message.serviceCenterTimestamp == other.serviceCenterTimestamp &&
    message.segmentReference == other.segmentReference &&
    message.segmentSequence == other.segmentSequence &&
    message.segmentTotal == other.segmentTotal

/-- `ModemDeliver`: the message, and its metadata with only the concatenation sequence removed. -/
structure ModemDeliver where
  message : MtSmsDeliver
  assemblyKey : Str
  deriving DecidableEq

/-! ## Fields -/

/-- `swapped_bcd`. -/
def swappedBcd (value : UInt8) : Option ℕ :=
  let tens := value.toNat % 16
  let units := value.toNat / 16
  if tens ≤ 9 ∧ units ≤ 9 then some (tens * 10 + units) else none

/-- The offset in seconds of a timestamp's last octet: quarters of an hour, with the sign in bit 3.
-/
def timezoneSeconds (timezone : UInt8) : Option ℤ :=
  let low := timezone.toNat % 16
  let high := timezone.toNat / 16
  if 9 < high then none
  else
    let quarterHours : ℤ := (low % 8 * 10 + high : ℕ)
    some ((if low / 8 = 0 then 1 else -1) * quarterHours * 15 * 60)

/-- `decode_service_center_timestamp`. -/
def decodeServiceCenterTimestamp (chrono : Chrono) (data : Bytes) : Option Str :=
  match data with
  | [year, month, day, hour, minute, second, timezone] => do
    let year ← swappedBcd year
    let month ← swappedBcd month
    let day ← swappedBcd day
    let hour ← swappedBcd hour
    let minute ← swappedBcd minute
    let second ← swappedBcd second
    let offset ← timezoneSeconds timezone
    let year : ℤ := if 90 ≤ year then 1900 + year else 2000 + year
    let timestamp ← chrono.withYmdAndHms offset year month day hour minute second
    return chrono.toRfc3339 timestamp
  | _ => none

/-- `address_type_is_alphanumeric`. -/
def addressTypeIsAlphanumeric (tonNpi : UInt8) : Bool := tonNpi &&& 0x70 == 0x50

/-- `address_type_is_international`. -/
def addressTypeIsInternational (tonNpi : UInt8) : Bool := tonNpi &&& 0x70 == 0x10

/-- The character of a semi-octet. -/
def semiOctetChar (nibble : ℕ) : Char :=
  if nibble ≤ 9 then Char.ofNat ('0'.toNat + nibble)
  else if nibble = 0x0a then '*'
  else if nibble = 0x0b then '#'
  else if nibble = 0x0c then 'a'
  else if nibble = 0x0d then 'b'
  else if nibble = 0x0e then 'c'
  else ' '

/-- The semi-octets of an address, low ones first. -/
def nibbles (value : Bytes) : List ℕ := value.flatMap fun b => [b.toNat % 16, b.toNat / 16]

/-- `decode_address_value`. -/
def decodeAddressValue (tonNpi : UInt8) (value : Bytes) (semiOctets : ℕ) : Str :=
  if addressTypeIsAlphanumeric tonNpi then decodeGsm7Text value (semiOctets * 4 / 7)
  else
    (nibbles value).foldl (fun out nibble =>
        if semiOctets ≤ utf8Len (out.dropWhile (· = '+')) ∨ nibble = 0x0f then out
        else out ++ [semiOctetChar nibble])
      (if addressTypeIsInternational tonNpi then ['+'] else [])

/-! ## SMS-DELIVER -/

/-- The text of a TPDU, by its alphabet. -/
def deliverText (dcs : UInt8) (rawUserData : Bytes) (udl headerOctets : ℕ) :
    Except SmsEncodingError Str :=
  match smsAlphabetForDcs dcs with
  | .ucs2 => do
    let userData := rawUserData.take udl
    let payload ← okOr .bodyTooLong (getFrom userData headerOctets)
    decodeUcs2Text payload payload.length
  | .gsm7 => return decodeGsm7UserData rawUserData udl headerOctets
  | .binary => decodeBinaryUserData rawUserData udl headerOctets

/-- `parse_sms_deliver_tpdu`. -/
def parseSmsDeliverTpdu (chrono : Chrono) (reference : UInt8) (tpdu : Bytes) :
    Except SmsEncodingError MtSmsDeliver :=
  match tpdu with
  | firstOctet :: originatorAddressLength :: tonNpi :: rest => do
    let originatorOctets := addressValueOctets originatorAddressLength.toNat
    if rest.length < originatorOctets + 3 + 7 then
      throw .bodyTooLong
    let originator := decodeAddressValue tonNpi (rest.take originatorOctets)
      originatorAddressLength.toNat
    -- behind the address stand the protocol identifier, the coding, the timestamp and the length
    let fixed := rest.drop originatorOctets
    let dcs := fixed.getD 1 0
    let scts := (fixed.drop 2).take 7
    let timestamp := (decodeServiceCenterTimestamp chrono scts).getD (hexLower scts)
    let udl ← okOr .bodyTooLong fixed[9]?
    let rawUserData := fixed.drop 10
    let header ← (if firstOctet &&& 0x40 ≠ 0 then parseUserDataHeader rawUserData else .ok .empty)
    let text ← deliverText dcs rawUserData udl.toNat header.headerOctets
    return {
      rpMessageReference := reference
      originator, text
      userDataBytes := rawUserData.length
      serviceCenterTimestamp := timestamp
      segmentReference := header.segment.reference
      segmentSequence := header.segment.sequence
      segmentTotal := header.segment.total }
  | _ => throw .bodyTooLong

/-- The octets of user data that the alphabet and the length announce. -/
def expectedUserData (dcs : UInt8) (udl : ℕ) : Except SmsEncodingError ℕ :=
  match smsAlphabetForDcs dcs with
  | .gsm7 => if udl ≤ 160 then .ok (divCeil (udl * 7) 8) else .error .bodyTooLong
  | .binary => if udl ≤ 140 then .ok udl else .error .bodyTooLong
  | .ucs2 => if udl ≤ 140 then .ok udl else .error .bodyTooLong

/-- A concatenation element that is plausible, with its sequence number blanked. -/
def concatMetadata (iei : UInt8) (value : Bytes) : Except SmsEncodingError Bytes := do
  if value.length ≠ (if iei = 0 then 3 else 4) then
    throw .bodyTooLong
  let total := value.getD (value.length - 2) 0
  let sequence := value.getD (value.length - 1) 0
  if total = 0 ∨ sequence = 0 ∨ total < sequence then
    throw .bodyTooLong
  return value.take (value.length - 1) ++ [0]

/-- The element loop of `parse_modem_deliver`: the metadata so far, and whether there was a
concatenation element. Every round consumes two octets or more. -/
def headerMetadata : ℕ → (concat : Bool) → (metadata header : Bytes) → Except SmsEncodingError Bytes
  | _, _, metadata, [] => .ok metadata
  | fuel + 1, concat, metadata, iei :: len :: rest => do
    let value ← okOr .bodyTooLong (getRange rest 0 len.toNat)
    let metadata := metadata ++ [iei, len]
    if iei = 0 ∨ iei = 8 then
      if concat then
        throw .bodyTooLong
      let blanked ← concatMetadata iei value
      headerMetadata fuel true (metadata ++ blanked) (rest.drop len.toNat)
    else headerMetadata fuel concat (metadata ++ value) (rest.drop len.toNat)
  | _, _, _, _ => .error .bodyTooLong

/-- The metadata of a user data header behind that of the TPDU. -/
def userDataMetadata (dcs : UInt8) (udl : ℕ) (metadata data : Bytes) :
    Except SmsEncodingError Bytes := do
  let headerLen ← okOr .bodyTooLong data.head?
  let stop := 1 + headerLen.toNat
  let header ← okOr .bodyTooLong (getRange data 1 stop)
  if smsAlphabetForDcs dcs = .gsm7 ∧ udl < divCeil (stop * 8) 7 then
    throw .bodyTooLong
  headerMetadata header.length false metadata header

/-- The TPDU behind the service centre's address. -/
def modemTpdu (pdu : Bytes) : Except SmsEncodingError Bytes := do
  let len ← okOr .bodyTooLong pdu.head?
  okOr .bodyTooLong (getFrom pdu (1 + len.toNat))

/-- `parse_modem_deliver`. -/
def parseModemDeliver (chrono : Chrono) (pdu : Bytes) : Except SmsEncodingError ModemDeliver := do
  let tpdu ← modemTpdu pdu
  match tpdu with
  | first :: digits :: tonNpi :: _ =>
    if first &&& 3 ≠ 0 ∨ digits = 0 ∨ 40 < digits then
      throw .bodyTooLong
    let offset := 3 + addressValueOctets digits.toNat
    let fixed ← okOr .bodyTooLong (getRange tpdu offset (offset + 10))
    let _ ← okOr .bodyTooLong (decodeServiceCenterTimestamp chrono ((fixed.drop 2).take 7))
    let dcs := fixed.getD 1 0
    let udl := (fixed.getD 9 0).toNat
    let data := tpdu.drop (offset + 10)
    let expected ← expectedUserData dcs udl
    if data.length ≠ expected then
      throw .bodyTooLong
    let metadata := [tonNpi, fixed.getD 0 0, dcs]
    let metadata ← (if first &&& 0x40 ≠ 0 then userDataMetadata dcs udl metadata data
      else .ok metadata)
    let message ← parseSmsDeliverTpdu chrono 0 tpdu
    return { message, assemblyKey := hexLower metadata }
  | _ => throw .bodyTooLong

/-! ## SMS-STATUS-REPORT -/

/-- `ModemStatusReport`. -/
structure ModemStatusReport where
  reference : UInt8
  recipient : Str
  serviceCenterTimestamp : Str
  dischargeTimestamp : Str
  status : UInt8
  deriving DecidableEq

/-- The octets of an address are digits, with a filler behind an odd number of them. -/
def reportAddressValid (digits : ℕ) (address : Bytes) : Bool :=
  (nibbles address).zipIdx.all fun (nibble, index) =>
    !((index < digits && 9 < nibble) || (index == digits && nibble != 15))

/-- The optional tail: its indicator and the protocol identifier, coding and user data it
announces, to the last octet. -/
def reportTailValid (pi : UInt8) (tail : Bytes) : Except SmsEncodingError Unit := do
  if pi &&& 0xf8 ≠ 0 then
    throw .bodyTooLong
  let tail ← (if pi &&& 1 ≠ 0 then okOr .bodyTooLong (getFrom tail 1) else .ok tail)
  let (dcs, tail) ← (if pi &&& 2 ≠ 0 then
    match tail with
    | dcs :: tail => .ok (dcs, tail)
    | [] => .error .bodyTooLong
  else .ok (0, tail))
  if pi &&& 4 ≠ 0 then
    match tail with
    | udl :: tail =>
      let bytes := if smsAlphabetForDcs dcs = .gsm7 then divCeil (udl.toNat * 7) 8 else udl.toNat
      if 140 < bytes ∨ tail.length ≠ bytes then
        throw .bodyTooLong
    | [] => throw .bodyTooLong
  else if tail.length ≠ 0 then
    throw .bodyTooLong

/-- What follows the status. -/
def reportTail : Bytes → Except SmsEncodingError Unit
  | pi :: tail => reportTailValid pi tail
  | [] => .ok ()

/-- `parse_modem_status_report`. -/
def parseModemStatusReport (chrono : Chrono) (pdu : Bytes) :
    Except SmsEncodingError ModemStatusReport := do
  let tpdu ← modemTpdu pdu
  match tpdu with
  | first :: reference :: digits :: tonNpi :: rest =>
    if first &&& 3 ≠ 2 then
      throw .bodyTooLong
    -- a report about a command is not one about a message
    if first &&& 0x20 ≠ 0 ∨ digits = 0 ∨ 20 < digits ∨ ¬ (tonNpi = 0x81 ∨ tonNpi = 0x91) then
      throw .bodyTooLong
    let stop := addressValueOctets digits.toNat
    let address ← okOr .bodyTooLong (getRange rest 0 stop)
    if !reportAddressValid digits.toNat address then
      throw .invalidAddress
    let scts ← okOr .bodyTooLong
      ((getRange rest stop (stop + 7)).bind (decodeServiceCenterTimestamp chrono))
    let discharge ← okOr .bodyTooLong
      ((getRange rest (stop + 7) (stop + 14)).bind (decodeServiceCenterTimestamp chrono))
    let status ← okOr .bodyTooLong rest[stop + 14]?
    if discharge < scts then
      throw .bodyTooLong
    let _ ← reportTail (rest.drop (stop + 15))
    return {
      reference, status
      recipient := decodeAddressValue tonNpi address digits.toNat
      serviceCenterTimestamp := scts
      dischargeTimestamp := discharge }
  | _ => throw .bodyTooLong

/-! ## Timestamps -/

open Method

variable {chrono : Chrono}

/-- The text is that of an instant which a two-digit year of this or the last century names. -/
def Chrono.Prints (chrono : Chrono) (text : Str) : Prop :=
  ∃ offset year month day hour minute second timestamp, 1900 ≤ year ∧ year < 2100 ∧
    chrono.withYmdAndHms offset year month day hour minute second = some timestamp ∧
    text = chrono.toRfc3339 timestamp

theorem swappedBcd_lt {value : UInt8} {n : ℕ} (h : swappedBcd value = some n) : n < 100 := by
  rw [swappedBcd] at h
  split at h
  next hdigits =>
    obtain rfl := some.inj h
    omega
  next => cases h

theorem decodeServiceCenterTimestamp_prints {data : Bytes} {text : Str}
    (h : decodeServiceCenterTimestamp chrono data = some text) : chrono.Prints text := by
  rw [decodeServiceCenterTimestamp.eq_def] at h
  split at h
  next =>
    simp only [bind_eq_bind, bind_eq_some_iff] at h
    obtain ⟨year, hyear, month, -, day, -, hour, -, minute, -, second, -, offset, -, timestamp,
      htimestamp, htext⟩ := h
    have hlt := swappedBcd_lt hyear
    refine ⟨offset, _, month, day, hour, minute, second, timestamp, ?_, ?_, htimestamp,
      (some.inj htext).symm⟩
    · split <;> omega
    · split <;> omega
  next => cases h

/-- The timestamp of a TPDU is read from the octets between its coding and its length. -/
theorem parseSmsDeliverTpdu_timestamp {reference first digits tonNpi : UInt8} {rest : Bytes}
    {message : MtSmsDeliver}
    (h : parseSmsDeliverTpdu chrono reference (first :: digits :: tonNpi :: rest) = .ok message) :
    let scts := ((rest.drop (addressValueOctets digits.toNat)).drop 2).take 7
    message.serviceCenterTimestamp = (decodeServiceCenterTimestamp chrono scts).getD
      (hexLower scts) := by
  obtain ⟨-, h⟩ := guard_eq_ok h
  obtain ⟨udl, -, h⟩ := bind_eq_ok.1 h
  obtain ⟨header, -, h⟩ := bind_eq_ok.1 h
  obtain ⟨text, -, h⟩ := bind_eq_ok.1 h
  obtain rfl := Except.ok.inj h
  rfl

variable {pdu : Bytes}

theorem parseModemDeliver_prints {deliver : ModemDeliver}
    (h : parseModemDeliver chrono pdu = .ok deliver) :
    chrono.Prints deliver.message.serviceCenterTimestamp := by
  obtain ⟨tpdu, -, h⟩ := bind_eq_ok.1 h
  split at h
  next first digits tonNpi rest =>
    obtain ⟨-, h⟩ := guard_eq_ok h
    obtain ⟨fixed, hfixed, h⟩ := bind_eq_ok.1 h
    obtain ⟨text, htext, h⟩ := bind_eq_ok.1 h
    obtain ⟨expected, -, h⟩ := bind_eq_ok.1 h
    obtain ⟨-, h⟩ := guard_eq_ok h
    obtain ⟨metadata, -, h⟩ := bind_eq_ok.1 h
    obtain ⟨message, hmessage, h⟩ := bind_eq_ok.1 h
    obtain rfl := Except.ok.inj h
    have hscts := parseSmsDeliverTpdu_timestamp hmessage
    rw [okOr_eq_ok, getRange] at hfixed
    split at hfixed
    next hrange =>
      obtain rfl := some.inj hfixed
      rw [okOr_eq_ok] at htext
      -- both readings take the same octets
      have hsame : ((((first :: digits :: tonNpi :: rest).drop
          (3 + addressValueOctets digits.toNat)).take (3 + addressValueOctets digits.toNat + 10 -
          (3 + addressValueOctets digits.toNat))).drop 2).take 7 =
          ((rest.drop (addressValueOctets digits.toNat)).drop 2).take 7 := by
        rw [Nat.add_sub_cancel_left, ← List.drop_drop, List.drop_take, List.take_take]
        rfl
      rw [hsame] at htext
      rw [hscts, htext]
      exact decodeServiceCenterTimestamp_prints htext
    next => cases hfixed
  next => cases h

theorem parseModemStatusReport_prints {report : ModemStatusReport}
    (h : parseModemStatusReport chrono pdu = .ok report) :
    chrono.Prints report.serviceCenterTimestamp := by
  obtain ⟨tpdu, -, h⟩ := bind_eq_ok.1 h
  split at h
  next first reference digits tonNpi rest =>
    obtain ⟨-, h⟩ := guard_eq_ok h
    obtain ⟨-, h⟩ := guard_eq_ok h
    obtain ⟨address, -, h⟩ := bind_eq_ok.1 h
    obtain ⟨-, h⟩ := guard_eq_ok h
    obtain ⟨scts, hscts, h⟩ := bind_eq_ok.1 h
    obtain ⟨discharge, -, h⟩ := bind_eq_ok.1 h
    obtain ⟨status, -, h⟩ := bind_eq_ok.1 h
    obtain ⟨-, h⟩ := guard_eq_ok h
    obtain ⟨octets, -, hoctets⟩ := bind_eq_some_iff.1 (okOr_eq_ok.1 hscts)
    have hprints := decodeServiceCenterTimestamp_prints hoctets
    obtain ⟨-, -, h⟩ := bind_eq_ok.1 h
    obtain rfl := Except.ok.inj h
    exact hprints
  next => cases h

end SimMaster
