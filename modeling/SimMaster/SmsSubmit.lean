import SimMaster.SmsAddress

/-!
# Building mobile-originated submissions

`build_mo_submissions` and everything below it: user data in the GSM 7-bit
alphabet or UCS-2, the SMS-SUBMIT TPDU, its RP-DATA envelope, and the split of
a long text into parts with a concatenation header. The message counter is a
process-wide atomic, so a builder takes its value and returns the one it leaves
behind; the wall clock only enters the identifiers.
-/

namespace SimMaster

open Rust

/-- `MoSmsSubmission`. -/
structure MoSmsSubmission : Type where
  traceId : Str
  messageId : Str
  rpMessageReference : UInt8
  partIndex : UInt8
  partCount : UInt8
  body : Bytes
  bodyBytes : ℕ
  textUtf16Units : ℕ
  deriving DecidableEq

/-- `EncodedSubmitUserData`. -/
structure EncodedSubmitUserData : Type where
  dcs : UInt8
  userDataLength : UInt8
  userData : Bytes

/-! ## User data -/

/-- `encode_gsm7_user_data`: the packed septets and their count. -/
def encodeGsm7UserData (text : Str) : Option (Bytes × ℕ) :=
  match gsm7Septets text with
  | none => none
  | some septets =>
    let out := List.replicate (divCeil (septets.length * 7) 8) 0
    some (writeSeptets out 0 septets, septets.length)

/-- `encode_ucs2_user_data`. -/
def encodeUcs2UserData (text : Str) : Except SmsEncodingError Bytes :=
  let units := encodeUtf16 text
  if units.isEmpty then .error .emptyText
  else if 70 < units.length then .error .textTooLong
  else .ok (beBytes units)

/-- `encode_submit_user_data`: GSM 7-bit where the alphabet has the text, else UCS-2. -/
def encodeSubmitUserData (text : Str) : Except SmsEncodingError EncodedSubmitUserData :=
  match encodeGsm7UserData text with
  | some (userData, septets) =>
    if 160 < septets then .error .textTooLong
    else do
      let userDataLength ← tryU8 .textTooLong septets
      .ok ⟨0x00, userDataLength, userData⟩
  | none => do
    let userData ← encodeUcs2UserData text
    if 140 < userData.length then .error .textTooLong
    else do
      let userDataLength ← tryU8 .textTooLong userData.length
      .ok ⟨0x08, userDataLength, userData⟩

/-- `pack_gsm7_with_udh`: the text starts on the septet boundary after the header. -/
def packGsm7WithUdh (udh septets : Bytes) : Bytes :=
  let headerSeptets := divCeil (udh.length * 8) 7
  let textBitOffset := headerSeptets * 7
  let out := udh ++
    List.replicate (divCeil (textBitOffset + septets.length * 7) 8 - udh.length) 0
  writeSeptets out textBitOffset septets

/-! ## TPDU and envelope -/

/-- `build_sms_submit_tpdu_encoded`. -/
def buildSmsSubmitTpduEncoded (recipient : Str) (messageReference firstOctet : UInt8)
    (encoded : EncodedSubmitUserData) : Except SmsEncodingError Bytes := do
  let destination ← encodeAddressValue recipient
  let normalized ← normalizedAddressDigits recipient
  let digits ← tryU8 .invalidAddress normalized.digits.length
  .ok ([firstOctet, messageReference, digits] ++ destination ++
    [0x00, encoded.dcs, encoded.userDataLength] ++ encoded.userData)

/-- `build_sms_submit_tpdu`. -/
def buildSmsSubmitTpdu (recipient text : Str) (messageReference : UInt8) :
    Except SmsEncodingError Bytes := do
  let encoded ← encodeSubmitUserData text
  buildSmsSubmitTpduEncoded recipient messageReference 0x01 encoded

/-- `push_len_prefixed`. -/
def pushLenPrefixed (out value : Bytes) : Except SmsEncodingError Bytes := do
  let len ← tryU8 .bodyTooLong value.length
  .ok (out ++ [len] ++ value)

/-- The RP-DATA body both builders assemble: no originator, the service centre,
the TPDU. -/
def rpDataBody (reference : UInt8) (scAddress tpdu : Bytes) : Except SmsEncodingError Bytes := do
  let body ← pushLenPrefixed [0x00, reference, 0x00] scAddress
  pushLenPrefixed body tpdu

/-! ## Submissions -/

/-- `text.trim_end_matches(['\r', '\n'])`. -/
def trimLineEnd (text : Str) : Str := trimEndMatches (fun ch => ch == '\r' || ch == '\n') text

/-- `format!("{prefix}{timestamp:x}-{counter:x}")`. -/
def smsIdentifier (stem : String) (timestamp : ℕ) (counter : UInt64) : Str :=
  stem.toList ++ hex timestamp ++ "-".toList ++ hex counter.toNat

/-- `build_single_part_mo_submission`, from the moment the counter was taken. -/
def singlePartMoSubmission (timestamp : ℕ) (counter : UInt64) (recipient text serviceCenter : Str) :
    Except SmsEncodingError MoSmsSubmission := do
  let rpMessageReference := UInt8.ofNat (counter.toNat % 256)
  let tpdu ← buildSmsSubmitTpdu recipient text rpMessageReference
  let scAddress ← encodeAddressValue serviceCenter
  let body ← rpDataBody rpMessageReference scAddress tpdu
  .ok {
    traceId := smsIdentifier "vowifi-sms-trace-" timestamp counter
    messageId := smsIdentifier "vowifi-sms-" timestamp counter
    rpMessageReference := rpMessageReference
    partIndex := 1
    partCount := 1
    body := body
    bodyBytes := body.length
    textUtf16Units := (encodeUtf16 text).length }

/-- `build_single_part_mo_submission`; the second component is the counter after
the call. -/
def buildSinglePartMoSubmission (timestamp : ℕ) (counter : UInt64)
    (recipient text serviceCenter : Str) : Except SmsEncodingError MoSmsSubmission × UInt64 :=
  let text := trimLineEnd text
  if (trim recipient).isEmpty then (.error .emptyRecipient, counter)
  else if text.isEmpty then (.error .emptyText, counter)
  else (singlePartMoSubmission timestamp counter recipient text serviceCenter, counter + 1)

/-! ### Splitting -/

/-- The loop of `split_gsm7_text` and `split_ucs2_text`: close the current part
when the next character no longer fits. -/
def splitText (width : Char → Except SmsEncodingError ℕ) (max : ℕ) (parts : List Str)
    (current : Str) (used : ℕ) : Str → Except SmsEncodingError (List Str)
  | [] => .ok (if current.isEmpty then parts else parts ++ [current])
  | ch :: rest => do
    let w ← width ch
    if max < used + w ∧ ¬ current.isEmpty then
      splitText width max (parts ++ [current]) [ch] w rest
    else splitText width max parts (current ++ [ch]) (used + w) rest

/-- `split_gsm7_text`. -/
def splitGsm7Text (text : Str) (maxSeptets : ℕ) : Except SmsEncodingError (List Str) :=
  splitText (fun ch =>
    if (gsm7BasicValue ch).isSome then .ok 1
    else if (gsm7ExtensionValue ch).isSome then .ok 2
    else .error .textTooLong) maxSeptets [] [] 0 text

/-- `split_ucs2_text`. -/
def splitUcs2Text (text : Str) (maxUnits : ℕ) : Except SmsEncodingError (List Str) :=
  splitText (fun ch => .ok (lenUtf16 ch)) maxUnits [] [] 0 text

/-! ### Concatenated parts -/

/-- The user data of one part, behind its concatenation header. -/
def encodePart (gsm7 : Bool) (udh : Bytes) (part : Str) :
    Except SmsEncodingError EncodedSubmitUserData :=
  if gsm7 then
    match gsm7Septets part with
    | none => .error .textTooLong
    | some septets => do
      let userDataLength ← tryU8 .textTooLong (7 + septets.length)
      .ok ⟨0x00, userDataLength, packGsm7WithUdh udh septets⟩
  else do
    let userData := udh ++ beBytes (encodeUtf16 part)
    let userDataLength ← tryU8 .textTooLong userData.length
    .ok ⟨0x08, userDataLength, userData⟩

/-- The six-octet concatenation header with an 8-bit reference. -/
def concatHeader (concatReference partCount sequence : UInt8) : Bytes :=
  [0x05, 0x00, 0x03, concatReference, partCount, sequence]

/-- One round of the loop of `build_concatenated_submissions`. -/
def concatenatedSubmission (timestamp : ℕ) (counter : UInt64) (recipient : Str) (scAddress : Bytes)
    (fullText : Str) (partCount : UInt8) (gsm7 : Bool) (entry : Str × ℕ) :
    Except SmsEncodingError MoSmsSubmission := do
  let concatReference := UInt8.ofNat (counter.toNat % 256)
  let sequence ← tryU8 .textTooLong (entry.2 + 1)
  let reference := concatReference + (sequence - 1)
  let encoded ← encodePart gsm7 (concatHeader concatReference partCount sequence) entry.1
  let tpdu ← buildSmsSubmitTpduEncoded recipient reference 0x41 encoded
  let body ← rpDataBody reference scAddress tpdu
  .ok {
    traceId := smsIdentifier "ims-sms-trace-" timestamp counter
    messageId := smsIdentifier "ims-sms-" timestamp counter
    rpMessageReference := reference
    partIndex := sequence
    partCount := partCount
    body := body
    bodyBytes := body.length
    textUtf16Units := (encodeUtf16 fullText).length }

/-- `build_concatenated_submissions`; the counter advances by the part count as
soon as that is known to fit. -/
def buildConcatenatedSubmissions (timestamp : ℕ) (counter : UInt64)
    (recipient serviceCenter fullText : Str) (parts : List Str) (gsm7 : Bool) :
    Except SmsEncodingError (List MoSmsSubmission) × UInt64 :=
  match tryU8 SmsEncodingError.textTooLong parts.length with
  | .error e => (.error e, counter)
  | .ok partCount =>
    if partCount < 2 then (.error .textTooLong, counter)
    else
      (do
        let scAddress ← encodeAddressValue serviceCenter
        parts.zipIdx.mapM
          (concatenatedSubmission timestamp counter recipient scAddress fullText partCount gsm7),
        counter + UInt64.ofNat partCount.toNat)

/-- `build_mo_submissions`; the second component is the counter after the call. -/
def buildMoSubmissions (timestamp : ℕ) (counter : UInt64) (recipient text serviceCenter : Str) :
    Except SmsEncodingError (List MoSmsSubmission) × UInt64 :=
  let text := trimLineEnd text
  let single :=
    let r := buildSinglePartMoSubmission timestamp counter recipient text serviceCenter
    (r.1.map ([·]), r.2)
  if (trim recipient).isEmpty then (.error .emptyRecipient, counter)
  else if text.isEmpty then (.error .emptyText, counter)
  else
    match gsm7Septets text with
    | some septets =>
      if septets.length ≤ 160 then single
      else
        match splitGsm7Text text 153 with
        | .error e => (.error e, counter)
        | .ok parts =>
          buildConcatenatedSubmissions timestamp counter recipient serviceCenter text parts true
    | none =>
      if (encodeUtf16 text).length ≤ 70 then single
      else
        match splitUcs2Text text 67 with
        | .error e => (.error e, counter)
        | .ok parts =>
          buildConcatenatedSubmissions timestamp counter recipient serviceCenter text parts false

end SimMaster
