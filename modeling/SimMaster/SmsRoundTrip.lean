import SimMaster.SmsSubmit
import SimMaster.SmsUserData

/-!
# The submission round trip

A submission is read back from its octets alone: the RP-DATA envelope gives the
TPDU, the TPDU gives coding scheme, user data length and user data, and the
decoders of `SmsUserData` give the text. `ReadsAs` says what one submission
carries; `buildMoSubmissions_round_trip` says that the parts of a message carry,
in order, exactly the text that was submitted.
-/

namespace SimMaster

open Rust List Except

/-! ## Reading a submission -/

/-- The fields of an SMS-SUBMIT TPDU a receiver needs for the text. -/
structure SubmitView : Type where
  firstOctet : UInt8
  reference : UInt8
  dcs : UInt8
  udl : UInt8
  userData : Bytes
  deriving DecidableEq

/-- The TPDU inside an RP-DATA body: behind the originator length octet and the
length-prefixed service centre. -/
def submitTpdu : Bytes → Option Bytes
  | _ :: _ :: _ :: scLength :: rest =>
    match rest.drop scLength.toNat with
    | tpduLength :: tpdu => some (tpdu.take tpduLength.toNat)
    | [] => none
  | _ => none

/-- The fields behind the destination address of a TPDU. -/
def readSubmit : Bytes → Option SubmitView
  | firstOctet :: reference :: digits :: rest =>
    match rest.drop (1 + addressValueOctets digits.toNat) with
    | _ :: dcs :: udl :: userData => some ⟨firstOctet, reference, dcs, udl, userData⟩
    | _ => none
  | _ => none

/-- The user data header of a TPDU whose first octet announces one. -/
def SubmitView.header (v : SubmitView) : Except SmsEncodingError SmsUserDataHeader :=
  if v.firstOctet &&& 0x40 ≠ 0 then parseUserDataHeader v.userData else .ok .empty

/-- The text of a TPDU: GSM 7-bit for coding scheme 0, UCS-2 for 8. -/
def SubmitView.text (v : SubmitView) : Except SmsEncodingError Str := do
  let header ← v.header
  if v.dcs = 0x00 then .ok (decodeGsm7UserData v.userData v.udl.toNat header.headerOctets)
  else if v.dcs = 0x08 then
    let payload := (v.userData.take v.udl.toNat).drop header.headerOctets
    decodeUcs2Text payload payload.length
  else .error .bodyTooLong

/-- The user data length counts what it should: header and text septets in the
GSM 7-bit alphabet, octets in UCS-2. -/
def SubmitView.Counted (v : SubmitView) (headerOctets : ℕ) (part : Str) : Prop :=
  (v.dcs = 0x00 ∧ ∃ septets, gsm7Septets part = some septets ∧
      v.udl.toNat = divCeil (headerOctets * 8) 7 + septets.length) ∨
    (v.dcs = 0x08 ∧ v.udl.toNat = v.userData.length)

/-- Submission `index` (from zero) of `count` carries `part`. -/
structure ReadsAs (count index : ℕ) (submission : MoSmsSubmission) (part : Str) : Prop where
  /-- the parts are numbered from one -/
  partIndex : submission.partIndex.toNat = index + 1
  partCount : submission.partCount.toNat = count
  /-- the octets read back to the part, behind a header that repeats the numbering -/
  reads : ∃ tpdu v header, submitTpdu submission.body = some tpdu ∧ readSubmit tpdu = some v ∧
    v.header = .ok header ∧ v.text = .ok part ∧ v.userData.length ≤ 140 ∧
    v.Counted header.headerOctets part ∧
    header.segment.sequence.toNat = index + 1 ∧ header.segment.total.toNat = count ∧
    (1 < count → header.headerOctets = 6)

/-- Decoding the submissions of a message one after another. -/
def decodeSubmissions (submissions : List MoSmsSubmission) : Option Str :=
  (submissions.mapM fun (submission : MoSmsSubmission) => do
    let tpdu ← submitTpdu submission.body
    let v ← readSubmit tpdu
    v.text.toOption).map List.flatten

/-! ## The envelope -/

variable {body : Bytes}

theorem pushLenPrefixed_eq_ok {out value : Bytes} (h : pushLenPrefixed out value = .ok body) :
    ∃ len : UInt8, len.toNat = value.length ∧ body = out ++ [len] ++ value := by
  obtain ⟨len, hlen, h⟩ := bind_eq_ok.mp h
  exact ⟨len, (tryU8_eq_ok hlen).2, (ok.inj h).symm⟩

variable {reference : UInt8} {scAddress tpdu : Bytes}

/-- The envelope hands back the TPDU that was put in. -/
theorem submitTpdu_rpDataBody
    (h : rpDataBody reference scAddress tpdu = .ok body) : submitTpdu body = some tpdu := by
  obtain ⟨front, hfront, h⟩ := bind_eq_ok.mp h
  obtain ⟨scLength, hsc, rfl⟩ := pushLenPrefixed_eq_ok hfront
  obtain ⟨tpduLength, htpdu, rfl⟩ := pushLenPrefixed_eq_ok h
  simp [submitTpdu, hsc, htpdu]

variable {recipient : Str} {encoded : EncodedSubmitUserData}

/-- A TPDU reads back to the user data it was built from. -/
theorem readSubmit_buildSmsSubmitTpduEncoded {firstOctet : UInt8}
    (h : buildSmsSubmitTpduEncoded recipient reference firstOctet encoded = .ok tpdu) :
    readSubmit tpdu =
      some ⟨firstOctet, reference, encoded.dcs, encoded.userDataLength, encoded.userData⟩ := by
  obtain ⟨destination, hdest, h⟩ := bind_eq_ok.mp h
  obtain ⟨normalized, hnorm, h⟩ := bind_eq_ok.mp h
  obtain ⟨digits, hdigits, h⟩ := bind_eq_ok.mp h
  obtain rfl := ok.inj h
  have hlen : 1 + addressValueOctets digits.toNat = destination.length := by
    rw [(tryU8_eq_ok hdigits).2, length_encodeAddressValue hnorm hdest, addressValueOctets]
  simp [readSubmit, hlen]

/-! ## User data of a single submission -/

variable {text : Str}

theorem encodeUcs2UserData_eq_ok {userData : Bytes}
    (h : encodeUcs2UserData text = .ok userData) : userData = beBytes (encodeUtf16 text) := by
  simp only [encodeUcs2UserData] at h
  split at h
  · cases h
  · split at h
    · cases h
    · exact (ok.inj h).symm

variable {v : SubmitView}

/-- A first octet without the header bit announces no header. -/
theorem SubmitView.header_of_plain (h : v.firstOctet = 0x01) : v.header = .ok .empty := by
  rw [SubmitView.header, h]
  exact if_neg (by decide)

/-- A first octet with the header bit has its header parsed. -/
theorem SubmitView.header_of_udhi (h : v.firstOctet = 0x41) :
    v.header = parseUserDataHeader v.userData := by
  rw [SubmitView.header, h]
  exact if_pos (by decide)

/-- What `encode_submit_user_data` produces reads back to the text, with the
length it declares. -/
theorem encodeSubmitUserData_reads (hne : text ≠ []) (h : encodeSubmitUserData text = .ok encoded)
    (hfirst : v.firstOctet = 0x01) (hdcs : v.dcs = encoded.dcs)
    (hudl : v.udl = encoded.userDataLength) (hdata : v.userData = encoded.userData) :
    v.text = .ok text ∧ v.userData.length ≤ 140 ∧ v.Counted 0 text := by
  have hheader := SubmitView.header_of_plain hfirst
  unfold encodeSubmitUserData encodeGsm7UserData at h
  cases hs : gsm7Septets text with
  | some septets =>
    simp only [hs] at h
    split at h
    · cases h
    · next hle =>
      obtain ⟨udl, hlen, h⟩ := bind_eq_ok.mp h
      obtain rfl := ok.inj h
      dsimp only at hdcs hudl hdata
      rw [← hudl] at hlen
      obtain ⟨-, hlen⟩ := tryU8_eq_ok hlen
      have hsne : septets ≠ [] := by
        rintro rfl
        exact hne (gsm7Text_gsm7Septets hs).symm
      have htext : decodeGsm7UserData v.userData v.udl.toNat 0 = text := by
        rw [decodeGsm7UserData, if_pos rfl, decodeGsm7Text, hlen, hdata]
        refine decodeGsm7TextFromBitOffset_writeSeptets hs hsne ?_ (fun k _ => by simp)
        rw [length_replicate, divCeil]
        omega
      refine ⟨?_, ?_, Or.inl ⟨hdcs, septets, hs, ?_⟩⟩
      · simp [SubmitView.text, hheader, bind, Except.bind, hdcs, SmsUserDataHeader.empty, htext]
      · rw [hdata, length_writeSeptets, length_replicate, divCeil]
        omega
      · rw [hlen, divCeil]
        omega
  | none =>
    simp only [hs] at h
    obtain ⟨userData, hud, h⟩ := bind_eq_ok.mp h
    split at h
    · cases h
    · next hle =>
      obtain ⟨udl, hlen, h⟩ := bind_eq_ok.mp h
      obtain rfl := ok.inj h
      dsimp only at hdcs hudl hdata
      rw [← hudl] at hlen
      obtain ⟨-, hlen⟩ := tryU8_eq_ok hlen
      have hsame : v.udl.toNat = v.userData.length := by rw [hlen, hdata]
      refine ⟨?_, by rw [hdata]; omega, Or.inr ⟨hdcs, hsame⟩⟩
      have htext := decodeUcs2Text_beBytes text
      rw [← encodeUcs2UserData_eq_ok hud, ← hdata] at htext
      simp [SubmitView.text, hheader, bind, Except.bind, hdcs, SmsUserDataHeader.empty,
        hsame, htext]

/-! ## User data of a concatenated part -/

variable {concatReference partCount sequence : UInt8}

/-- The concatenation header in front of user data is parsed to its own fields. -/
theorem parseUserDataHeader_concatHeader
    (hcount : partCount ≠ 0) (hseq : sequence ≠ 0) (hle : sequence ≤ partCount) (rest : Bytes) :
    parseUserDataHeader (concatHeader concatReference partCount sequence ++ rest) =
      .ok ⟨⟨some (UInt16.ofNat concatReference.toNat), sequence, partCount⟩, 6⟩ := by
  have hlen : ¬ (concatHeader concatReference partCount sequence ++ rest).length <
      1 + (0x05 : UInt8).toNat := by
    simp [concatHeader]
  simp only [concatHeader, cons_append, nil_append] at hlen ⊢
  rw [parseUserDataHeader, if_neg hlen]
  simp [scanElements, readElement, hcount, hseq, hle, bind, Except.bind]

variable {udh : Bytes}

/-- Past the header the stream a part is packed into is clear. -/
theorem bit_append_replicate {n k : ℕ} (h : 8 * udh.length ≤ k) :
    BitStream.bit (udh ++ replicate n 0) k = false := by
  have hk : udh.length ≤ k / 8 := by omega
  unfold BitStream.bit
  rw [getD_append_right _ _ _ _ hk]
  by_cases hn : k / 8 - udh.length < n <;> simp [hn]

/-- Packing behind a header leaves the header's octets alone. -/
theorem packGsm7WithUdh_header (hudh : udh.length = 6) (septets : Bytes) :
    ∃ rest, packGsm7WithUdh udh septets = udh ++ rest := by
  have hlen : (packGsm7WithUdh udh septets).length =
      6 + (divCeil (49 + septets.length * 7) 8 - 6) := by
    simp [packGsm7WithUdh, hudh, divCeil]
  refine ⟨(packGsm7WithUdh udh septets).drop 6, ?_⟩
  have htake : (packGsm7WithUdh udh septets).take 6 = udh := by
    apply ext_getElem
    · rw [length_take, hlen, hudh]
      omega
    · intro j h₁ h₂
      rw [getElem_take]
      apply BitStream.getElem_eq_of_bit _ h₂
      intro i hi
      simp only [packGsm7WithUdh, hudh]
      rw [bit_writeSeptets_lt septets (by simp [hudh, divCeil]; omega) (by simp [divCeil]; omega)]
      have hd : (8 * j + i) / 8 < udh.length := by omega
      simp only [BitStream.bit]
      rw [getD_append _ _ _ _ hd]
  conv_lhs => rw [← take_append_drop 6 (packGsm7WithUdh udh septets), htake]

variable {gsm7 : Bool} {part : Str}

/-- What `encodePart` produces behind a concatenation header reads back to the
part, with the length it declares. -/
theorem encodePart_reads (hne : part ≠ []) (hcount : partCount ≠ 0)
    (hseq : sequence ≠ 0) (hle : sequence ≤ partCount)
    (hfit : if gsm7 then (part.map gsm7Width).sum ≤ 153 else (part.map lenUtf16).sum ≤ 67)
    (h : encodePart gsm7 (concatHeader concatReference partCount sequence) part = .ok encoded)
    (hfirst : v.firstOctet = 0x41) (hdcs : v.dcs = encoded.dcs)
    (hudl : v.udl = encoded.userDataLength) (hdata : v.userData = encoded.userData) : v.header =
        .ok ⟨⟨some (UInt16.ofNat concatReference.toNat), sequence, partCount⟩, 6⟩ ∧
      v.text = .ok part ∧ v.userData.length ≤ 140 ∧ v.Counted 6 part := by
  have hudh : (concatHeader concatReference partCount sequence).length = 6 := rfl
  have hheader : ∀ rest, v.userData = concatHeader concatReference partCount sequence ++ rest →
      v.header = .ok ⟨⟨some (UInt16.ofNat concatReference.toNat), sequence, partCount⟩, 6⟩ := by
    intro rest hrest
    rw [SubmitView.header_of_udhi hfirst, hrest, parseUserDataHeader_concatHeader hcount hseq hle]
  cases gsm7 with
  | true =>
    simp only [encodePart, if_true] at h
    simp only [if_true] at hfit
    cases hs : gsm7Septets part with
    | none =>
      rw [hs] at h
      cases h
    | some septets =>
      simp only [hs] at h
      obtain ⟨udl, hlen, h⟩ := bind_eq_ok.mp h
      obtain rfl := ok.inj h
      dsimp only at hdcs hudl hdata
      rw [← hudl] at hlen
      obtain ⟨-, hlen⟩ := tryU8_eq_ok hlen
      rw [← length_gsm7Septets hs] at hfit
      have hsne : septets ≠ [] := by
        rintro rfl
        exact hne (gsm7Text_gsm7Septets hs).symm
      have hpos : 0 < septets.length := length_pos_of_ne_nil hsne
      obtain ⟨rest, hrest⟩ := packGsm7WithUdh_header hudh septets
      have htext : decodeGsm7UserData v.userData v.udl.toNat 6 = part := by
        have hseven : divCeil (6 * 8) 7 = 7 := rfl
        rw [decodeGsm7UserData, if_neg (by decide)]
        simp only [hseven]
        rw [if_neg (by omega), hlen, Nat.add_sub_cancel_left, hdata]
        -- the text starts at bit 49: one fill bit behind the 48-bit header
        simp only [packGsm7WithUdh, hudh, hseven]
        refine decodeGsm7TextFromBitOffset_writeSeptets hs hsne ?_ fun k hk => ?_
        · simp [hudh, divCeil]
          omega
        · exact bit_append_replicate (by omega)
      refine ⟨hheader rest (hdata.trans hrest), ?_, ?_, Or.inl ⟨hdcs, septets, hs, hlen⟩⟩
      · simp [SubmitView.text, hheader rest (hdata.trans hrest), bind, Except.bind, hdcs, htext]
      · rw [hdata]
        simp [packGsm7WithUdh, hudh, divCeil]
        omega
  | false =>
    simp only [Bool.false_eq_true, if_false] at h hfit
    obtain ⟨udl, hlen, h⟩ := bind_eq_ok.mp h
    obtain rfl := ok.inj h
    dsimp only at hdcs hudl hdata
    rw [← hudl] at hlen
    obtain ⟨-, hlen⟩ := tryU8_eq_ok hlen
    have hsame : v.udl.toNat = v.userData.length := by rw [hlen, hdata]
    have hdrop : v.userData.drop 6 = beBytes (encodeUtf16 part) := by
      rw [hdata]
      exact drop_left' hudh
    refine ⟨hheader _ hdata, ?_, ?_, Or.inr ⟨hdcs, hsame⟩⟩
    · have htext := decodeUcs2Text_beBytes part
      rw [← hdrop] at htext
      simp [SubmitView.text, hheader _ hdata, bind, Except.bind, hdcs, hsame] at htext ⊢
      exact htext
    · rw [hdata, length_append, hudh, length_beBytes, length_encodeUtf16]
      omega

/-! ## Splitting

The loop keeps: what was closed, what is open and what is still to come make up
the text; the open part's width is the running count; closed parts are nonempty
and within the limit. -/

theorem splitText_spec {width : Char → Except SmsEncodingError ℕ} {w : Char → ℕ} {max : ℕ}
    (hwidth : ∀ ch n, width ch = .ok n → n = w ch) (hmax : ∀ ch, w ch ≤ max) :
    ∀ {text : Str} {parts : List Str} {current : Str} {used : ℕ} {out : List Str},
      used = (current.map w).sum → used ≤ max → (∀ p ∈ parts, p ≠ [] ∧ (p.map w).sum ≤ max) →
      splitText width max parts current used text = .ok out →
      out.flatten = parts.flatten ++ current ++ text ∧ ∀ p ∈ out, p ≠ [] ∧ (p.map w).sum ≤ max := by
  intro text
  induction text with
  | nil =>
    intro parts current used out hused hle hparts h
    obtain rfl := ok.inj h
    cases current with
    | nil => exact ⟨by simp, by simpa using hparts⟩
    | cons c cs =>
      refine ⟨by simp, ?_⟩
      intro p hp
      rcases mem_append.mp hp with hp | hp
      · exact hparts p hp
      · obtain rfl := mem_singleton.mp hp
        exact ⟨by simp, by omega⟩
  | cons ch rest ih =>
    intro parts current used out hused hle hparts h
    obtain ⟨n, hn, h⟩ := bind_eq_ok.mp h
    obtain rfl := hwidth ch n hn
    split at h
    · -- the character opens a new part
      next hfull =>
      have hcur : current ≠ [] := by
        rintro rfl
        simp at hfull
      have hclosed : ∀ p ∈ parts ++ [current], p ≠ [] ∧ (p.map w).sum ≤ max := by
        intro p hp
        rcases mem_append.mp hp with hp | hp
        · exact hparts p hp
        · obtain rfl := mem_singleton.mp hp
          exact ⟨hcur, by omega⟩
      obtain ⟨hflat, hout⟩ := ih (by simp) (hmax ch) hclosed h
      exact ⟨by simpa using hflat, hout⟩
    · -- the character still fits
      next hfits =>
      have hroom : used + w ch ≤ max := by
        by_contra hover
        refine hfits ⟨by omega, ?_⟩
        cases current with
        | nil =>
          have := hmax ch
          simp at hused
          omega
        | cons c cs => simp
      obtain ⟨hflat, hout⟩ := ih (by simp [hused]) hroom hparts h
      exact ⟨by simpa using hflat, hout⟩

variable {parts : List Str}

theorem splitGsm7Text_spec (h : splitGsm7Text text 153 = .ok parts) :
    parts.flatten = text ∧ ∀ p ∈ parts, p ≠ [] ∧ (p.map gsm7Width).sum ≤ 153 := by
  have hwidth : ∀ ch n, (if (gsm7BasicValue ch).isSome then Except.ok 1
      else if (gsm7ExtensionValue ch).isSome then .ok 2
      else .error SmsEncodingError.textTooLong) = .ok n → n = gsm7Width ch := by
    intro ch n hn
    split at hn
    · next hb => rw [gsm7Width, if_pos hb, ← ok.inj hn]
    · next hb =>
      split at hn
      · rw [gsm7Width, if_neg hb, ← ok.inj hn]
      · cases hn
  have hmax : ∀ ch, gsm7Width ch ≤ 153 := by
    intro ch
    unfold gsm7Width
    split <;> omega
  simpa using splitText_spec hwidth hmax rfl (by decide) (by simp) h

theorem splitUcs2Text_spec (h : splitUcs2Text text 67 = .ok parts) :
    parts.flatten = text ∧ ∀ p ∈ parts, p ≠ [] ∧ (p.map lenUtf16).sum ≤ 67 := by
  have hmax : ∀ ch, lenUtf16 ch ≤ 67 := by
    intro ch
    unfold lenUtf16
    split <;> omega
  simpa using splitText_spec (fun ch n hn => (ok.inj hn).symm) hmax rfl (by decide)
    (by simp) h

/-! ## Messages -/

variable {timestamp : ℕ} {counter : UInt64} {serviceCenter : Str} {submission : MoSmsSubmission}

/-- A single submission carries the whole text. -/
theorem singlePartMoSubmission_reads (hne : text ≠ [])
    (h : singlePartMoSubmission timestamp counter recipient text serviceCenter = .ok submission) :
    ReadsAs 1 0 submission text := by
  obtain ⟨tpdu, htpdu, h⟩ := bind_eq_ok.mp h
  obtain ⟨scAddress, -, h⟩ := bind_eq_ok.mp h
  obtain ⟨body, hbody, h⟩ := bind_eq_ok.mp h
  obtain rfl := ok.inj h
  obtain ⟨encoded, hencoded, htpdu⟩ := bind_eq_ok.mp htpdu
  obtain ⟨htext, hfit, hcounted⟩ := encodeSubmitUserData_reads hne hencoded
    (v := ⟨0x01, _, encoded.dcs, encoded.userDataLength, encoded.userData⟩) rfl rfl rfl rfl
  exact {
    partIndex := rfl
    partCount := rfl
    reads := ⟨tpdu, _, .empty, submitTpdu_rpDataBody hbody,
      readSubmit_buildSmsSubmitTpduEncoded htpdu, SubmitView.header_of_plain rfl, htext, hfit,
      hcounted, rfl, rfl, fun h => absurd h (by decide)⟩ }

variable {fullText : Str}

/-- One round of the concatenation loop carries its part. -/
theorem concatenatedSubmission_reads {index : ℕ} (hne : part ≠ [])
    (hindex : index < partCount.toNat)
    (hfit : if gsm7 then (part.map gsm7Width).sum ≤ 153 else (part.map lenUtf16).sum ≤ 67)
    (h : concatenatedSubmission timestamp counter recipient scAddress fullText partCount gsm7
      (part, index) = .ok submission) : ReadsAs partCount.toNat index submission part := by
  obtain ⟨sequence, hsequence, h⟩ := bind_eq_ok.mp h
  obtain ⟨encoded, hencoded, h⟩ := bind_eq_ok.mp h
  obtain ⟨tpdu, htpdu, h⟩ := bind_eq_ok.mp h
  obtain ⟨body, hbody, h⟩ := bind_eq_ok.mp h
  obtain rfl := ok.inj h
  obtain ⟨-, hseq⟩ := tryU8_eq_ok hsequence
  have hcount0 : partCount ≠ 0 := by
    rintro rfl
    exact absurd hindex (by simp)
  have hseq0 : sequence ≠ 0 := by
    rintro rfl
    simp at hseq
  have hle : sequence ≤ partCount := by
    rw [UInt8.le_iff_toNat_le, hseq]
    exact hindex
  obtain ⟨hheader, htext, hlen, hcounted⟩ := encodePart_reads hne hcount0 hseq0 hle hfit hencoded
    (v := ⟨0x41, _, encoded.dcs, encoded.userDataLength, encoded.userData⟩) rfl rfl rfl rfl
  exact {
    partIndex := hseq
    partCount := rfl
    reads := ⟨tpdu, _, _, submitTpdu_rpDataBody hbody,
      readSubmit_buildSmsSubmitTpduEncoded htpdu, hheader, htext, hlen, hcounted, hseq, rfl,
      fun _ => rfl⟩ }

/-- The parts of a message and the submissions that carry them, in order. -/
def Carries (submissions : List MoSmsSubmission) (parts : List Str) : Prop :=
  parts.length = submissions.length ∧
    ∀ i (h₁ : i < submissions.length) (h₂ : i < parts.length),
      ReadsAs submissions.length i submissions[i] parts[i]

variable {counter' : UInt64}

theorem buildSinglePartMoSubmission_carries
    (h : buildSinglePartMoSubmission timestamp counter recipient text serviceCenter =
      (.ok submission, counter')) : Carries [submission] [trimLineEnd text] := by
  simp only [buildSinglePartMoSubmission] at h
  split at h
  · cases (Prod.ext_iff.mp h).1
  · split at h
    · cases (Prod.ext_iff.mp h).1
    · next hne =>
      have hread := singlePartMoSubmission_reads (by simpa using hne) (Prod.ext_iff.mp h).1
      refine ⟨rfl, fun i h₁ h₂ => ?_⟩
      obtain rfl : i = 0 := by simpa using h₁
      exact hread

variable {submissions : List MoSmsSubmission}

theorem buildConcatenatedSubmissions_carries (hparts : ∀ p ∈ parts, p ≠ [] ∧
      if gsm7 then (p.map gsm7Width).sum ≤ 153 else (p.map lenUtf16).sum ≤ 67)
    (h : buildConcatenatedSubmissions timestamp counter recipient serviceCenter fullText parts
      gsm7 = (.ok submissions, counter')) : Carries submissions parts := by
  unfold buildConcatenatedSubmissions at h
  split at h
  · cases (Prod.ext_iff.mp h).1
  · next partCount hcount =>
    split at h
    · cases (Prod.ext_iff.mp h).1
    · obtain ⟨scAddress, -, hloop⟩ := bind_eq_ok.mp (Prod.ext_iff.mp h).1
      have hall := forall₂_of_mapM_eq_ok hloop
      have hlen : parts.length = submissions.length := by simpa using hall.length_eq
      obtain ⟨-, hcount⟩ := tryU8_eq_ok hcount
      refine ⟨hlen, fun i h₁ h₂ => ?_⟩
      have hround := hall.get (by simpa using h₂) h₁
      simp only [get_eq_getElem, getElem_zipIdx, Nat.zero_add] at hround
      obtain ⟨hne, hfit⟩ := hparts _ (getElem_mem h₂)
      have hread := concatenatedSubmission_reads hne (by omega) hfit hround
      rwa [hcount, hlen] at hread

/-- Trimming line ends twice is trimming them once. -/
theorem trimLineEnd_trimLineEnd (text : Str) : trimLineEnd (trimLineEnd text) = trimLineEnd text :=
  rdropWhile_idempotent _ _

/-- Every message that is built carries its text, split in order over its parts. -/
theorem buildMoSubmissions_carries
    (h : buildMoSubmissions timestamp counter recipient text serviceCenter =
      (.ok submissions, counter')) :
    ∃ parts, parts.flatten = trimLineEnd text ∧ Carries submissions parts := by
  have hsingle : ∀ c', (((buildSinglePartMoSubmission timestamp counter recipient
      (trimLineEnd text) serviceCenter).1.map ([·]) : Except SmsEncodingError _), c') =
        (.ok submissions, counter') →
      ∃ parts, parts.flatten = trimLineEnd text ∧ Carries submissions parts := by
    intro c' hs
    cases hr : (buildSinglePartMoSubmission timestamp counter recipient
        (trimLineEnd text) serviceCenter).1 with
    | error e =>
      rw [hr] at hs
      cases (Prod.ext_iff.mp hs).1
    | ok submission =>
      rw [hr] at hs
      obtain rfl := ok.inj (Prod.ext_iff.mp hs).1
      refine ⟨[trimLineEnd text], by simp, ?_⟩
      have hcarries := buildSinglePartMoSubmission_carries (Prod.ext hr rfl)
      rwa [trimLineEnd_trimLineEnd] at hcarries
  simp only [buildMoSubmissions] at h
  split at h
  · cases (Prod.ext_iff.mp h).1
  split at h
  · cases (Prod.ext_iff.mp h).1
  split at h
  · -- the GSM 7-bit alphabet has the text
    split at h
    · exact hsingle _ h
    · split at h
      · cases (Prod.ext_iff.mp h).1
      · next parts hsplit =>
        obtain ⟨hflat, hparts⟩ := splitGsm7Text_spec hsplit
        exact ⟨parts, hflat, buildConcatenatedSubmissions_carries (by simpa using hparts) h⟩
  · -- UCS-2
    split at h
    · exact hsingle _ h
    · split at h
      · cases (Prod.ext_iff.mp h).1
      · next parts hsplit =>
        obtain ⟨hflat, hparts⟩ := splitUcs2Text_spec hsplit
        exact ⟨parts, hflat, buildConcatenatedSubmissions_carries (by simpa using hparts) h⟩

/-- Decoding submissions in order gives the parts they carry, joined. -/
theorem Carries.decodeSubmissions_eq
    (h : Carries submissions parts) : decodeSubmissions submissions = some parts.flatten := by
  obtain ⟨hlen, hread⟩ := h
  have hmap : (submissions.mapM fun (submission : MoSmsSubmission) => do
      let tpdu ← submitTpdu submission.body
      let v ← readSubmit tpdu
      v.text.toOption) = some parts := by
    apply mapM_eq_some_of_forall₂
    refine List.forall₂_iff_get.mpr ⟨hlen.symm, fun i h₁ h₂ => ?_⟩
    obtain ⟨tpdu, v, header, htpdu, hv, -, htext, -⟩ := (hread i h₁ h₂).reads
    simp [htpdu, hv, htext, Except.toOption]
  rw [decodeSubmissions, hmap, Option.map_some]

/-- **The submission round trip**: the submissions of a message are numbered one
to `n` with the same count, each part fits its user data and declares its length,
and decoding them in order gives the text without its trailing line ends. -/
theorem buildMoSubmissions_round_trip {timestamp : ℕ} {counter counter' : UInt64}
    {recipient text serviceCenter : Str} {submissions : List MoSmsSubmission}
    (h : buildMoSubmissions timestamp counter recipient text serviceCenter =
      (.ok submissions, counter')) :
    decodeSubmissions submissions = some (trimLineEnd text) ∧
      ∃ parts, parts.flatten = trimLineEnd text ∧ Carries submissions parts := by
  obtain ⟨parts, hflat, hcarries⟩ := buildMoSubmissions_carries h
  exact ⟨by rw [hcarries.decodeSubmissions_eq, hflat], parts, hflat, hcarries⟩

/-- Seventy-one Cyrillic letters are one too many for a single submission. -/
theorem buildMoSubmissions_round_trip_two_parts :
    let r := buildMoSubmissions 0 255 "+12".toList (replicate 71 '\u0416') "34".toList
    ∃ submissions, r = (.ok submissions, 257) ∧ submissions.length = 2 ∧
      decodeSubmissions submissions = some (replicate 71 '\u0416') := by
  intro r
  have hlen : r.1.toOption.map List.length = some 2 := by decide +kernel
  have hcounter : r.2 = 257 := by decide +kernel
  have htrim : trimLineEnd (replicate 71 '\u0416') = replicate 71 '\u0416' := by
    decide +kernel
  obtain ⟨submissions, hok, hlen⟩ := Option.map_eq_some_iff.mp hlen
  have hr : r = (.ok submissions, 257) := by
    cases h : r.1 with
    | error e =>
      rw [h] at hok
      cases hok
    | ok s =>
      rw [h] at hok
      obtain rfl := Option.some.inj hok
      exact Prod.ext h hcounter
  refine ⟨submissions, hr, hlen, ?_⟩
  rw [← htrim]
  exact (buildMoSubmissions_round_trip hr).1

end SimMaster
