import SimMaster.SmsRoundTrip
import SimMaster.SmsRpData

/-!
# References of submissions

Every submission has a reference, in its RP-DATA envelope and in the TPDU enclosed. The parts of a
message take consecutive values of the process-wide counter, modulo 256, so the references of
messages that take 256 values or fewer together are pairwise different (`references_nodup`). The
PDUs for a modem are the TPDUs behind their service centre, with the bit set that asks for a status
report (`submissionPdu_enclosed`).
-/

namespace SimMaster.MoReferences

open Rust List Except

/-- `build_modem_submit_pdus` for one submission; an index out of range is an outcome of its own,
`none`. -/
def submissionPdu (body : Bytes) : Except (Option SmsEncodingError) Bytes := do
  let origin : UInt8 ← okOr (some .bodyTooLong) body[2]?
  let offset := 3 + origin.toNat
  let scLength ← okOr (some .bodyTooLong) body[offset]?
  let offset := offset + 1
  let sc ← okOr (some .bodyTooLong) (getRange body offset (offset + scLength.toNat))
  let offset := offset + scLength.toNat
  let tpduLength ← okOr (some .bodyTooLong) body[offset]?
  let offset := offset + 1
  let tpdu ← okOr (some .bodyTooLong) (getRange body offset (offset + tpduLength.toNat))
  let pdu := scLength :: (sc ++ tpdu)
  let first ← okOr none pdu[1 + scLength.toNat]?
  .ok (pdu.set (1 + scLength.toNat) (first ||| 0x20))

/-- `build_modem_submit_pdus`; the second component is the counter after the call. -/
def buildModemSubmitPdus (timestamp : ℕ) (counter : UInt64) (recipient text smsc : Str) :
    Except (Option SmsEncodingError) (List Bytes) × UInt64 :=
  let r := buildMoSubmissions timestamp counter recipient text smsc
  (do
    let submissions ← r.1.mapError some
    submissions.mapM fun submission => submissionPdu submission.body, r.2)

/-- The length of the TPDU that is told to the modem. -/
def modemTpduLength (pdu : Bytes) : Option ℕ := do
  let scLength ← pdu.head?
  if 1 + scLength.toNat ≤ pdu.length then some (pdu.length - (1 + scLength.toNat)) else none

/-! ## Envelopes -/

/-- The envelope of the submission: the service centre, and a TPDU with the same reference that asks
for no report. -/
structure Enclosed (submission : MoSmsSubmission) (scAddress : Bytes) (first : UInt8)
    (rest : Bytes) : Prop where
  body : submission.body = [0x00, submission.rpMessageReference, 0x00] ++
    (lengthPrefixed scAddress ++ lengthPrefixed (first :: submission.rpMessageReference :: rest))
  scFits : scAddress.length ≤ 255
  fits : (first :: submission.rpMessageReference :: rest).length ≤ 255
  noReport : first &&& 0x20 = 0

theorem pushLenPrefixed_lengthPrefixed {out value body : Bytes}
    (h : pushLenPrefixed out value = .ok body) :
    value.length ≤ 255 ∧ body = out ++ lengthPrefixed value := by
  obtain ⟨len, hlen, rfl⟩ := pushLenPrefixed_eq_ok h
  have hlt := len.toNat_lt
  refine ⟨by omega, ?_⟩
  rw [lengthPrefixed, ← hlen, UInt8.ofNat_toNat, append_assoc]
  rfl

variable {recipient : Str} {first : UInt8} {tpdu : Bytes}

theorem buildSmsSubmitTpduEncoded_head {reference : UInt8} {encoded : EncodedSubmitUserData}
    (h : buildSmsSubmitTpduEncoded recipient reference first encoded = .ok tpdu) :
    ∃ rest, tpdu = first :: reference :: rest := by
  obtain ⟨destination, -, h⟩ := bind_eq_ok.mp h
  obtain ⟨normalized, -, h⟩ := bind_eq_ok.mp h
  obtain ⟨digits, -, h⟩ := bind_eq_ok.mp h
  obtain rfl := ok.inj h
  exact ⟨_, rfl⟩

variable {submission : MoSmsSubmission} {scAddress : Bytes}

theorem enclosed_of_rpDataBody
    (hbody : rpDataBody submission.rpMessageReference scAddress tpdu = .ok submission.body)
    (htpdu : ∃ rest, tpdu = first :: submission.rpMessageReference :: rest)
    (hfirst : first &&& 0x20 = 0) : ∃ rest, Enclosed submission scAddress first rest := by
  obtain ⟨rest, rfl⟩ := htpdu
  obtain ⟨front, hfront, hbody⟩ := bind_eq_ok.mp hbody
  obtain ⟨hsc, rfl⟩ := pushLenPrefixed_lengthPrefixed hfront
  obtain ⟨hfits, hbody⟩ := pushLenPrefixed_lengthPrefixed hbody
  exact ⟨rest, by rw [hbody, append_assoc], hsc, hfits, hfirst⟩

/-- A range that stands behind so many octets. -/
theorem getRange_behind {data front value back : Bytes} (h : data = front ++ (value ++ back))
    {i j : ℕ} (hi : i = front.length) (hj : j = i + value.length) :
    getRange data i j = some value := by
  subst h hi hj
  rw [getRange, if_pos ⟨Nat.le_add_right _ _, by simp only [length_append]; omega⟩,
    drop_left, Nat.add_sub_cancel_left, take_left]

theorem getElem?_behind {data front back : Bytes} {b : UInt8} (h : data = front ++ b :: back)
    {i : ℕ} (hi : i = front.length) : data[i]? = some b := by
  subst h hi
  rw [getElem?_append_right le_rfl, Nat.sub_self]
  rfl

/-- **The PDU of a submission.** It has the TPDU behind the service centre, with the bit for a
status report set, and the length told to the modem is the TPDU's. -/
theorem submissionPdu_enclosed {rest : Bytes} (h : Enclosed submission scAddress first rest) :
    submissionPdu submission.body = .ok (lengthPrefixed scAddress ++
      (first ||| 0x20) :: submission.rpMessageReference :: rest) ∧
    modemTpduLength (lengthPrefixed scAddress ++
      (first ||| 0x20) :: submission.rpMessageReference :: rest) =
        some (first :: submission.rpMessageReference :: rest).length := by
  obtain ⟨hbody, hsc, hfits, -⟩ := h
  rw [hbody]
  generalize submission.rpMessageReference = reference at hfits ⊢
  generalize htpdu : first :: reference :: rest = tpdu at hfits ⊢
  have hscNat : (UInt8.ofNat scAddress.length).toNat = scAddress.length :=
    UInt8.toNat_ofNat_of_lt' (Nat.lt_succ_of_le hsc)
  have htpduNat : (UInt8.ofNat tpdu.length).toNat = tpdu.length :=
    UInt8.toNat_ofNat_of_lt' (Nat.lt_succ_of_le hfits)
  constructor
  · generalize hbody : [0x00, reference, 0x00] ++
      (lengthPrefixed scAddress ++ lengthPrefixed tpdu) = body
    have hfront : body = [0x00, reference, 0x00, UInt8.ofNat scAddress.length] ++
        (scAddress ++ UInt8.ofNat tpdu.length :: tpdu) := hbody.symm
    have horigin : body[2]? = some 0 := by rw [hfront]; rfl
    have hscLength : body[3 + (0 : UInt8).toNat]? = some (UInt8.ofNat scAddress.length) := by
      rw [hfront]
      rfl
    have hscRange : getRange body (3 + (0 : UInt8).toNat + 1)
        (3 + (0 : UInt8).toNat + 1 + scAddress.length) = some scAddress :=
      getRange_behind hfront rfl rfl
    have htpduLength : body[3 + (0 : UInt8).toNat + 1 + scAddress.length]? =
        some (UInt8.ofNat tpdu.length) :=
      getElem?_behind (hfront.trans (append_assoc _ _ _).symm)
        (by rw [length_append]; rfl)
    have htpduRange : getRange body (3 + (0 : UInt8).toNat + 1 + scAddress.length + 1)
        (3 + (0 : UInt8).toNat + 1 + scAddress.length + 1 + tpdu.length) = some tpdu := by
      refine @getRange_behind body ([0x00, reference, 0x00, UInt8.ofNat scAddress.length] ++
        scAddress ++ [UInt8.ofNat tpdu.length]) tpdu [] ?_ _ _ ?_ rfl
      · rw [hfront, append_nil, append_assoc, append_assoc, singleton_append]
      · rw [length_append, length_append]
        rfl
    have hpdu : UInt8.ofNat scAddress.length :: (scAddress ++ tpdu) =
        (UInt8.ofNat scAddress.length :: scAddress) ++ first :: reference :: rest := by
      rw [htpdu, cons_append]
    have hfirst : (UInt8.ofNat scAddress.length :: (scAddress ++ tpdu))[1 + scAddress.length]? =
        some first := getElem?_behind hpdu (Nat.add_comm 1 _)
    have hset : (UInt8.ofNat scAddress.length :: (scAddress ++ tpdu)).set (1 + scAddress.length)
        (first ||| 0x20) = lengthPrefixed scAddress ++ (first ||| 0x20) :: reference :: rest := by
      rw [Nat.add_comm, set_cons_succ, ← htpdu, set_append_right _ _ le_rfl, Nat.sub_self]
      rfl
    rw [submissionPdu, horigin, okOr_some, ok_bind]
    dsimp only
    rw [hscLength, okOr_some, ok_bind, hscNat, hscRange, okOr_some, ok_bind,
      htpduLength, okOr_some, ok_bind, htpduNat, htpduRange, okOr_some, ok_bind,
      hfirst, okOr_some, ok_bind, hset]
  · have hlen : (lengthPrefixed scAddress ++ (first ||| 0x20) :: reference :: rest).length =
        1 + scAddress.length + tpdu.length := by
      rw [← htpdu, lengthPrefixed, length_append, length_cons, length_cons,
        length_cons, length_cons, length_cons]
      omega
    have hhead : (lengthPrefixed scAddress ++ (first ||| 0x20) :: reference :: rest).head? =
        some (UInt8.ofNat scAddress.length) := rfl
    rw [modemTpduLength, hhead, Option.bind_eq_bind, Option.bind_some, hscNat, hlen,
      if_pos (by omega), Nat.add_sub_cancel_left]

/-! ## References -/

/-- The reference of a value that is so many behind the counter. -/
def referenceAt (counter : UInt64) (i : ℕ) : UInt8 := UInt8.ofNat (counter.toNat + i)

variable {timestamp : ℕ} {counter : UInt64}

theorem singlePartMoSubmission_enclosed {text serviceCenter : Str}
    (h : singlePartMoSubmission timestamp counter recipient text serviceCenter = .ok submission) :
    (∃ scAddress first rest, Enclosed submission scAddress first rest) ∧
      submission.rpMessageReference = referenceAt counter 0 := by
  obtain ⟨tpdu, htpdu, h⟩ := bind_eq_ok.mp h
  obtain ⟨scAddress, -, h⟩ := bind_eq_ok.mp h
  obtain ⟨body, hbody, h⟩ := bind_eq_ok.mp h
  obtain rfl := ok.inj h
  obtain ⟨encoded, -, htpdu⟩ := bind_eq_ok.mp htpdu
  refine ⟨⟨scAddress, 0x01, enclosed_of_rpDataBody hbody (buildSmsSubmitTpduEncoded_head htpdu)
    (by decide)⟩, ?_⟩
  apply UInt8.toNat_inj.mp
  rw [referenceAt, UInt8.toNat_ofNat', UInt8.toNat_ofNat', Nat.add_zero, Nat.mod_mod]

theorem concatenatedSubmission_enclosed {fullText : Str} {partCount : UInt8} {gsm7 : Bool}
    {entry : Str × ℕ}
    (h : concatenatedSubmission timestamp counter recipient scAddress fullText partCount gsm7
      entry = .ok submission) : (∃ scAddress first rest, Enclosed submission scAddress first rest) ∧
      submission.rpMessageReference = referenceAt counter entry.2 := by
  obtain ⟨sequence, hsequence, h⟩ := bind_eq_ok.mp h
  obtain ⟨encoded, -, h⟩ := bind_eq_ok.mp h
  obtain ⟨tpdu, htpdu, h⟩ := bind_eq_ok.mp h
  obtain ⟨body, hbody, h⟩ := bind_eq_ok.mp h
  obtain rfl := ok.inj h
  refine ⟨⟨scAddress, 0x41, enclosed_of_rpDataBody hbody (buildSmsSubmitTpduEncoded_head htpdu)
    (by decide)⟩, ?_⟩
  obtain ⟨hlt, hnat⟩ := tryU8_eq_ok hsequence
  have hone : (sequence - 1).toNat = entry.2 := by
    rw [UInt8.toNat_sub, hnat]
    change (2 ^ 8 - 1 + (entry.2 + 1)) % 2 ^ 8 = entry.2
    omega
  apply UInt8.toNat_inj.mp
  rw [referenceAt, UInt8.toNat_ofNat', UInt8.toNat_add, UInt8.toNat_ofNat', hone]
  omega

/-- What a call takes from the counter: as many values as the message has parts, each the reference
of its part. -/
structure Takes (counter counter' : UInt64)
    (result : Except SmsEncodingError (List MoSmsSubmission)) (n : ℕ) : Prop where
  fits : n ≤ 255
  advances : counter' = counter + UInt64.ofNat n
  parts : ∀ submissions, result = .ok submissions → submissions.length = n ∧
    submissions.map MoSmsSubmission.rpMessageReference =
      (range n).map (referenceAt counter) ∧
    ∀ submission ∈ submissions, ∃ scAddress first rest, Enclosed submission scAddress first rest

theorem takes_nothing (counter : UInt64) (error : SmsEncodingError) :
    Takes counter counter (.error error) 0 :=
  ⟨Nat.zero_le _, (UInt64.add_zero _).symm, fun _ h => by cases h⟩

theorem buildSinglePartMoSubmission_takes (timestamp : ℕ) (counter : UInt64)
    (recipient text serviceCenter : Str) : ∃ n, Takes counter
      (buildSinglePartMoSubmission timestamp counter recipient text serviceCenter).2
      ((buildSinglePartMoSubmission timestamp counter recipient text serviceCenter).1.map ([·]))
      n := by
  rw [buildSinglePartMoSubmission]
  split
  · exact ⟨0, takes_nothing counter _⟩
  · split
    · exact ⟨0, takes_nothing counter _⟩
    · refine ⟨1, by decide, rfl, fun submissions h => ?_⟩
      cases hs : singlePartMoSubmission timestamp counter recipient (trimLineEnd text)
          serviceCenter with
      | error error =>
        rw [hs] at h
        cases h
      | ok submission =>
        rw [hs] at h
        obtain rfl := ok.inj h
        obtain ⟨henclosed, hreference⟩ := singlePartMoSubmission_enclosed hs
        exact ⟨rfl, congrArg ([·]) hreference, forall_mem_singleton.mpr henclosed⟩

theorem buildConcatenatedSubmissions_takes (timestamp : ℕ) (counter : UInt64)
    (recipient serviceCenter fullText : Str) (parts : List Str) (gsm7 : Bool) : ∃ n, Takes counter
      (buildConcatenatedSubmissions timestamp counter recipient serviceCenter fullText parts gsm7).2
      (buildConcatenatedSubmissions timestamp counter recipient serviceCenter fullText parts
        gsm7).1 n := by
  rw [buildConcatenatedSubmissions]
  cases hcount : tryU8 SmsEncodingError.textTooLong parts.length with
  | error error => exact ⟨0, takes_nothing counter _⟩
  | ok partCount =>
    dsimp only
    split
    · exact ⟨0, takes_nothing counter _⟩
    · obtain ⟨hlt, hnat⟩ := tryU8_eq_ok hcount
      refine ⟨parts.length, by omega, by rw [hnat], fun submissions h => ?_⟩
      obtain ⟨scAddress, -, hloop⟩ := bind_eq_ok.mp h
      have hall := forall₂_of_mapM_eq_ok hloop
      have hlen : submissions.length = parts.length := by
        rw [← hall.length_eq, length_zipIdx]
      refine ⟨hlen, ?_, fun submission hmem => ?_⟩
      · refine ext_getElem (by simp [hlen]) fun i h₁ h₂ => ?_
        have hi : i < submissions.length := by simpa using h₁
        have hround := hall.get (i := i) (by simpa [hlen] using hi) hi
        simpa using (concatenatedSubmission_enclosed hround).2
      · obtain ⟨i, hi, rfl⟩ := getElem_of_mem hmem
        have hround := hall.get (i := i) (by simpa [hlen] using hi) hi
        exact (concatenatedSubmission_enclosed hround).1

/-- **What a message takes.** -/
theorem buildMoSubmissions_takes (timestamp : ℕ) (counter : UInt64)
    (recipient text serviceCenter : Str) :
    ∃ n, Takes counter (buildMoSubmissions timestamp counter recipient text serviceCenter).2
      (buildMoSubmissions timestamp counter recipient text serviceCenter).1 n := by
  rw [buildMoSubmissions]
  split
  · exact ⟨0, takes_nothing counter _⟩
  split
  · exact ⟨0, takes_nothing counter _⟩
  split
  · split
    · exact buildSinglePartMoSubmission_takes ..
    · split
      · exact ⟨0, takes_nothing counter _⟩
      · exact buildConcatenatedSubmissions_takes ..
  · split
    · exact buildSinglePartMoSubmission_takes ..
    · split
      · exact ⟨0, takes_nothing counter _⟩
      · exact buildConcatenatedSubmissions_takes ..

/-! ## Runs of messages -/

/-- A message that is built, for either leg. -/
structure MoMessage where
  timestamp : ℕ
  recipient : Str
  text : Str
  serviceCenter : Str

/-- The submissions of the message, and the counter after the call. -/
def MoMessage.build (message : MoMessage) (counter : UInt64) :
    Except SmsEncodingError (List MoSmsSubmission) × UInt64 :=
  buildMoSubmissions message.timestamp counter message.recipient message.text message.serviceCenter

/-- How many values some messages take from the counter, those that fail included. -/
def taken : UInt64 → List MoMessage → ℕ
  | _, [] => 0
  | counter, message :: rest =>
    ((message.build counter).2 - counter).toNat + taken (message.build counter).2 rest

/-- The references of the messages, in order. -/
def references : UInt64 → List MoMessage → List UInt8
  | _, [] => []
  | counter, message :: rest =>
    ((message.build counter).1.toOption.getD []).map MoSmsSubmission.rpMessageReference ++
      references (message.build counter).2 rest

theorem referenceAt_add (counter : UInt64) (n i : ℕ) :
    referenceAt (counter + UInt64.ofNat n) i = referenceAt counter (n + i) := by
  apply UInt8.toNat_inj.mp
  rw [referenceAt, referenceAt, UInt8.toNat_ofNat', UInt8.toNat_ofNat', UInt64.toNat_add,
    UInt64.toNat_ofNat']
  omega

/-- The references are among those of the values taken, in their order. -/
theorem references_sublist (counter : UInt64) (messages : List MoMessage) :
    (references counter messages).Sublist
      ((range (taken counter messages)).map (referenceAt counter)) := by
  induction messages generalizing counter with
  | nil => exact Sublist.refl []
  | cons message rest ih =>
    obtain ⟨n, hfits, hnext, hparts⟩ := buildMoSubmissions_takes message.timestamp counter
      message.recipient message.text message.serviceCenter
    change (message.build counter).2 = counter + UInt64.ofNat n at hnext
    have htaken : ((message.build counter).2 - counter).toNat = n := by
      rw [hnext, UInt64.add_comm, UInt64.add_sub_cancel, UInt64.toNat_ofNat']
      omega
    have hrest := ih (message.build counter).2
    have hshift : (range (taken (message.build counter).2 rest)).map
        (referenceAt (message.build counter).2) =
          ((range (taken (message.build counter).2 rest)).map (n + ·)).map
            (referenceAt counter) := by
      rw [map_map]
      refine map_congr_left fun i _ => ?_
      rw [hnext, referenceAt_add]
      rfl
    rw [references, taken, htaken, range_add, map_append, ← hshift]
    refine Sublist.append ?_ hrest
    cases hresult : (message.build counter).1 with
    | error error => exact nil_sublist _
    | ok submissions =>
      obtain ⟨-, hreferences, -⟩ := hparts submissions hresult
      change (submissions.map MoSmsSubmission.rpMessageReference).Sublist _
      rw [hreferences]

theorem referenceAt_nodup (counter : UInt64) {n : ℕ} (h : n ≤ 256) :
    ((range n).map (referenceAt counter)).Nodup := by
  refine Nodup.map_on (fun i hi j hj heq => ?_) nodup_range
  have hi := mem_range.mp hi
  have hj := mem_range.mp hj
  have hnat := congrArg UInt8.toNat heq
  rw [referenceAt, referenceAt, UInt8.toNat_ofNat', UInt8.toNat_ofNat'] at hnat
  omega

/-- **References.** Those of messages that take 256 values or fewer together are pairwise
different. -/
theorem references_nodup {messages : List MoMessage}
    (h : taken counter messages ≤ 256) : (references counter messages).Nodup :=
  (references_sublist counter messages).nodup (referenceAt_nodup counter h)

/-- The PDU for the modem: the service centre, the TPDU of the submission with only the bit for a
status report changed, and the length of that TPDU. -/
def PduOf (submission : MoSmsSubmission) (pdu : Bytes) : Prop :=
  ∃ scAddress first rest, Enclosed submission scAddress first rest ∧
    pdu = lengthPrefixed scAddress ++ (first ||| 0x20) :: submission.rpMessageReference :: rest ∧
    modemTpduLength pdu = some (first :: submission.rpMessageReference :: rest).length

theorem mapM_submissionPdu {submissions : List MoSmsSubmission}
    (h : ∀ submission ∈ submissions, ∃ scAddress first rest,
      Enclosed submission scAddress first rest) :
    ∃ pdus, (submissions.mapM fun submission => submissionPdu submission.body) = .ok pdus ∧
      Forall₂ PduOf submissions pdus := by
  induction submissions with
  | nil => exact ⟨[], rfl, Forall₂.nil⟩
  | cons submission rest ih =>
    obtain ⟨hfirst, hrest⟩ := forall_mem_cons.mp h
    obtain ⟨scAddress, first, tail, henclosed⟩ := hfirst
    obtain ⟨pdus, hpdus, hall⟩ := ih hrest
    obtain ⟨hpdu, hlength⟩ := submissionPdu_enclosed henclosed
    refine ⟨_ :: pdus, ?_, Forall₂.cons ⟨scAddress, first, tail, henclosed, rfl, hlength⟩
      hall⟩
    rw [mapM_cons, hpdu, ok_bind, hpdus, ok_bind]
    rfl

/-- What is asked of a message that is built: its references stand in the envelopes and in the
TPDUs enclosed and are pairwise different, and the modem leg gets the same TPDUs. -/
structure Consistent (message : MoMessage) (counter : UInt64) (submissions : List MoSmsSubmission) :
    Prop where
  enclosed : ∀ submission ∈ submissions, ∃ scAddress first rest,
    Enclosed submission scAddress first rest
  distinct : (submissions.map MoSmsSubmission.rpMessageReference).Nodup
  pdus : ∃ pdus, buildModemSubmitPdus message.timestamp counter message.recipient message.text
      message.serviceCenter = (.ok pdus, (message.build counter).2) ∧
    Forall₂ PduOf submissions pdus

/-- **References of submissions.** Every message that is built is consistent, and messages that take
256 values or fewer from the counter together have no reference twice. -/
theorem references_consistent (counter : UInt64) :
    (∀ message : MoMessage, ∀ submissions, (message.build counter).1 = .ok submissions →
      Consistent message counter submissions) ∧
    ∀ messages, taken counter messages ≤ 256 → (references counter messages).Nodup := by
  refine ⟨fun message submissions h => ?_, fun messages => references_nodup⟩
  obtain ⟨n, hfits, -, hparts⟩ := buildMoSubmissions_takes message.timestamp counter
    message.recipient message.text message.serviceCenter
  obtain ⟨-, hreferences, henclosed⟩ := hparts submissions h
  obtain ⟨pdus, hpdus, hall⟩ := mapM_submissionPdu henclosed
  refine ⟨henclosed, ?_, pdus, ?_, hall⟩
  · rw [hreferences]
    exact referenceAt_nodup counter (by omega)
  · have hbuild : (buildMoSubmissions message.timestamp counter message.recipient message.text
      message.serviceCenter).1 = .ok submissions := h
    rw [buildModemSubmitPdus, hbuild]
    exact Prod.ext hpdus rfl

/-- Two messages of one part each. -/
def twoMessages : List MoMessage :=
  [⟨0, "+12".toList, "a".toList, "34".toList⟩, ⟨1, "56".toList, "b".toList, "34".toList⟩]

theorem references_consistent_twoMessages :
    (∃ submissions, ((⟨0, "+12".toList, "a".toList, "34".toList⟩ : MoMessage).build 255).1 =
      .ok submissions ∧ Consistent ⟨0, "+12".toList, "a".toList, "34".toList⟩ 255 submissions) ∧
    (references 255 twoMessages).Nodup := by
  refine ⟨?_, (references_consistent 255).2 twoMessages (by decide +kernel)⟩
  have hsome : ((⟨0, "+12".toList, "a".toList, "34".toList⟩ : MoMessage).build
      255).1.toOption.isSome = true := by decide +kernel
  cases h : ((⟨0, "+12".toList, "a".toList, "34".toList⟩ : MoMessage).build 255).1 with
  | error error =>
    rw [h] at hsome
    cases hsome
  | ok submissions => exact ⟨submissions, rfl, (references_consistent 255).1 _ submissions h⟩

end SimMaster.MoReferences
