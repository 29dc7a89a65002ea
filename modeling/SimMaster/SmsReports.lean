import SimMaster.Calendar
import SimMaster.NativeSmsPending

/-!
# Addresses and times of status reports

An address that the encoder writes reads back as the digits and the type of the number
(`decodeAddressValue_encode`), so a report about a message leads to the recipient the message was
recorded for (`recipientKey_written`). The times of a report are compared as texts in UTC; the texts
compare as the instants their octets name, time zones included (`not_lt_iff`).
-/

namespace SimMaster

open Rust CivilTime List Bool

/-! ## Digits -/

/-- The number as it is written: its digits, behind a plus if it is international. -/
def NormalizedAddressDigits.written (n : NormalizedAddressDigits) : Str :=
  (if n.international then ['+'] else []) ++ n.digits

/-- The address field of the number: its type, and its digits. -/
def NormalizedAddressDigits.addressValue (n : NormalizedAddressDigits) : Bytes :=
  (if n.international then 0x91 else 0x81) :: encodeSemiOctets n.digits

variable {number : Str} {n : NormalizedAddressDigits}

theorem encodeAddressValue_eq (h : normalizedAddressDigits number = .ok n) :
    encodeAddressValue number = .ok n.addressValue := by
  rw [encodeAddressValue, h, ok_bind]
  rfl

/-- The value of a digit. -/
def digitNat (ch : Char) : ℕ := ch.toNat - '0'.toNat

variable {ch : Char}

theorem isDigit_cases (h : isDigit ch) : ∃ n : Fin 10, ch = digit n := by
  rw [isDigit, and_eq_true, decide_eq_true_iff, decide_eq_true_iff] at h
  have hlow : 48 ≤ ch.toNat := h.1
  have hhigh : ch.toNat ≤ 57 := h.2
  refine ⟨⟨ch.toNat - 48, by omega⟩, ?_⟩
  rw [digit, Nat.add_sub_cancel' hlow, Char.ofNat_toNat]

theorem digit_facts (h : isDigit ch) :
    digitNat ch < 10 ∧ digitValue ch = UInt8.ofNat (digitNat ch) ∧
      semiOctetChar (digitNat ch) = ch ∧ ch ≠ '+' ∧ ch.utf8Size = 1 ∧ isWhitespace ch = false := by
  have hall : ∀ n : Fin 10, digitNat (digit n) < 10 ∧
      digitValue (digit n) = UInt8.ofNat (digitNat (digit n)) ∧
      semiOctetChar (digitNat (digit n)) = digit n ∧ digit n ≠ '+' ∧
      (digit n).utf8Size = 1 ∧ isWhitespace (digit n) = false := by
    decide +kernel
  obtain ⟨n, rfl⟩ := isDigit_cases h
  exact hall n

/-- The semi-octets of two digits, or of a digit and the filler. -/
theorem nibbles_pair {low high : ℕ} (hlow : low < 10) (hhigh : high < 16) :
    (UInt8.ofNat low ||| UInt8.ofNat high <<< 4).toNat % 16 = low ∧
      (UInt8.ofNat low ||| UInt8.ofNat high <<< 4).toNat / 16 = high := by
  have hall : ∀ low : Fin 10, ∀ high : Fin 16,
      (UInt8.ofNat low ||| UInt8.ofNat high <<< 4).toNat % 16 = low ∧
        (UInt8.ofNat low ||| UInt8.ofNat high <<< 4).toNat / 16 = high := by decide +kernel
  exact hall ⟨low, hlow⟩ ⟨high, hhigh⟩

/-- The semi-octets of an encoded number are its digits, with a filler behind an odd number of
them. -/
theorem nibbles_encodeSemiOctets : ∀ {digits : Str}, (∀ ch ∈ digits, isDigit ch) →
    nibbles (encodeSemiOctets digits) =
      digits.map digitNat ++ if digits.length % 2 = 0 then [] else [15]
  | [], _ => rfl
  | [first], h => by
    obtain ⟨hlt, hvalue, -⟩ := digit_facts (h first mem_cons_self)
    obtain ⟨hlow, hhigh⟩ := nibbles_pair hlt (by decide : 15 < 16)
    rw [← hvalue] at hlow hhigh
    change [(digitValue first ||| UInt8.ofNat 15 <<< 4).toNat % 16,
      (digitValue first ||| UInt8.ofNat 15 <<< 4).toNat / 16] = [digitNat first, 15]
    rw [hlow, hhigh]
  | first :: second :: rest, h => by
    obtain ⟨hfirst, hvalue, -⟩ := digit_facts (h first mem_cons_self)
    obtain ⟨hsecond, hvalue', -⟩ :=
      digit_facts (h second (mem_cons_of_mem _ mem_cons_self))
    have ih := @nibbles_encodeSemiOctets rest fun ch hch =>
      h ch (mem_cons_of_mem _ (mem_cons_of_mem _ hch))
    obtain ⟨hlow, hhigh⟩ := nibbles_pair hfirst (hsecond.trans (by decide))
    rw [← hvalue, ← hvalue'] at hlow hhigh
    rw [encodeSemiOctets, nibbles, flatMap_cons, hlow, hhigh]
    change [digitNat first, digitNat second] ++ nibbles (encodeSemiOctets rest) = _
    rw [ih, length_cons, length_cons, Nat.add_assoc, Nat.add_mod_right]
    rfl

variable {digits : Str}

theorem utf8Len_digits (h : ∀ ch ∈ digits, isDigit ch) : utf8Len digits = digits.length := by
  induction digits with
  | nil => rfl
  | cons ch rest ih =>
    obtain ⟨hch, hrest⟩ := forall_mem_cons.mp h
    rw [utf8Len, map_cons, sum_cons, (digit_facts hch).2.2.2.2.1]
    change 1 + utf8Len rest = _
    rw [ih hrest, length_cons, Nat.add_comm]

/-- No plus stands among digits. -/
theorem dropWhile_plus (h : ∀ ch ∈ digits, isDigit ch) (international : Bool) :
    ((if international then ['+'] else []) ++ digits).dropWhile (· = '+') = digits := by
  have hdigits : digits.dropWhile (· = '+') = digits := by
    cases digits with
    | nil => rfl
    | cons ch rest =>
      refine dropWhile_cons_of_neg fun heq => ?_
      exact (digit_facts (h ch mem_cons_self)).2.2.2.1 (of_decide_eq_true heq)
  cases international with
  | false => exact hdigits
  | true =>
    exact hdigits

/-- The loop of the reader takes all digits that it has room for. -/
theorem foldl_digits {n : ℕ} {international : Bool} {done rest : Str}
    (hdone : ∀ ch ∈ done, isDigit ch) (hrest : ∀ ch ∈ rest, isDigit ch)
    (hroom : done.length + rest.length ≤ n) : (rest.map digitNat).foldl (fun out nibble =>
        if n ≤ utf8Len (out.dropWhile (· = '+')) ∨ nibble = 0x0f then out
        else out ++ [semiOctetChar nibble])
      ((if international then ['+'] else []) ++ done) =
        (if international then ['+'] else []) ++ (done ++ rest) := by
  induction rest generalizing done with
  | nil => rw [append_nil]; rfl
  | cons ch rest ih =>
    obtain ⟨hch, hrest⟩ := forall_mem_cons.mp hrest
    obtain ⟨hlt, -, hchar, -⟩ := digit_facts hch
    rw [length_cons] at hroom
    have hdone' : ∀ c ∈ done ++ [ch], isDigit c := fun c hc =>
      (mem_append.mp hc).elim (hdone c) fun hc => mem_singleton.mp hc ▸ hch
    rw [map_cons, foldl_cons, dropWhile_plus hdone, utf8Len_digits hdone,
      if_neg (by omega), hchar, append_assoc,
      ih hdone' hrest (by rw [length_append, length_singleton]; omega),
      append_assoc, singleton_append]

/-- **Addresses.** What the encoder writes reads back as the number. -/
theorem decodeAddressValue_encode (n : NormalizedAddressDigits) :
    decodeAddressValue (if n.international then 0x91 else 0x81) (encodeSemiOctets n.digits)
      n.digits.length = n.written := by
  have halpha : addressTypeIsAlphanumeric (if n.international then 0x91 else 0x81) = false := by
    cases n.international <;> decide
  have hinternational : addressTypeIsInternational (if n.international then 0x91 else 0x81) =
      n.international := by
    cases n.international <;> decide
  rw [decodeAddressValue, halpha, if_neg Bool.false_ne_true, hinternational,
    nibbles_encodeSemiOctets n.numeric, foldl_append]
  have hloop := @foldl_digits n.digits.length n.international [] n.digits
    (fun _ h => absurd h not_mem_nil) n.numeric (Nat.zero_add _).le
  rw [append_nil, nil_append] at hloop
  rw [hloop, NormalizedAddressDigits.written]
  by_cases heven : n.digits.length % 2 = 0
  · rw [if_pos heven]
    rfl
  · rw [if_neg heven, foldl_cons, if_pos (Or.inr rfl)]
    rfl

theorem reportAddressValid_encode (n : NormalizedAddressDigits) :
    reportAddressValid n.digits.length (encodeSemiOctets n.digits) = true := by
  rw [reportAddressValid, nibbles_encodeSemiOctets n.numeric, all_eq_true]
  rintro ⟨nibble, index⟩ hmem
  have hget := mem_zipIdx_iff_getElem?.mp hmem
  by_cases hlt : index < n.digits.length
  · rw [getElem?_append_left (by rwa [length_map]), getElem?_map] at hget
    obtain ⟨ch, hch, rfl⟩ := Option.map_eq_some_iff.mp hget
    have hdigit := (digit_facts (n.numeric ch (mem_of_getElem? hch))).1
    simp only [not_eq_true', or_eq_false_iff, and_eq_false_iff,
      decide_eq_false_iff_not, beq_eq_false_iff_ne]
    exact ⟨Or.inr (by omega), Or.inl (by omega)⟩
  · rw [getElem?_append_right (by rw [length_map]; omega), length_map] at hget
    have hfiller : index = n.digits.length → nibble = 15 := by
      intro heq
      rw [heq, Nat.sub_self] at hget
      split at hget
      · cases hget
      · exact (Option.some.inj hget).symm
    simp only [not_eq_true', or_eq_false_iff, and_eq_false_iff,
      decide_eq_false_iff_not, beq_eq_false_iff_ne, bne_eq_false_iff_eq]
    refine ⟨Or.inl hlt, ?_⟩
    by_cases heq : index = n.digits.length
    · exact Or.inr (hfiller heq)
    · exact Or.inl heq

/-! ## Recorded recipients -/

theorem scanAddress_of_digits (h : ∀ ch ∈ digits, isDigit ch) (index : ℕ)
    (done : Str) (international : Bool) :
    scanAddress index done international digits = .ok (done ++ digits, international) := by
  induction digits generalizing index done with
  | nil => rw [append_nil]; rfl
  | cons ch rest ih =>
    obtain ⟨hch, hrest⟩ := forall_mem_cons.mp h
    rw [scanAddress, if_neg fun heq => (digit_facts hch).2.2.2.1 heq.1, if_pos hch, ih hrest,
      append_assoc, singleton_append]

theorem scanAddress_of_normalized {address : Str} (h : normalizedAddressDigits address = .ok n) :
    scanAddress 0 [] false (trim address) = .ok (n.digits, n.international) := by
  rw [normalizedAddressDigits] at h
  split at h
  · cases h
  · next digits international hscan =>
    split at h
    · obtain rfl := Except.ok.inj h
      exact hscan
    · cases h

theorem trim_of_digits (h : ∀ ch ∈ digits, isDigit ch) (plus : Bool) :
    trim ((if plus then ['+'] else []) ++ digits) = (if plus then ['+'] else []) ++ digits := by
  refine trim_of_all fun ch hch => ?_
  rcases mem_append.mp hch with hch | hch
  · cases plus with
    | false => exact absurd hch not_mem_nil
    | true =>
      rw [if_pos rfl, mem_singleton] at hch
      rw [hch]
      decide
  · exact (digit_facts (h ch hch)).2.2.2.2.2

variable {hashes : Hashes} {key : Str}

/-- A number that a message can be recorded for is digits, with or without a plus. -/
theorem recorded_cases (h : NativeSms.recipientKey hashes number = some key) :
    ∃ (plus : Bool) (digits : Str), number = (if plus then ['+'] else []) ++ digits ∧
      ∀ ch ∈ digits, isDigit ch := by
  have hdigits : ∀ digits : Str, ¬(digits.isEmpty = true ∨ 20 < utf8Len digits ∨
      (!digits.all isAsciiDigit) = true) → ∀ ch ∈ digits, isDigit ch := by
    intro digits hvalid ch hch
    have hall : digits.all isAsciiDigit = true := by
      by_contra hnot
      exact hvalid (Or.inr (Or.inr (by rw [eq_false_iff.mpr hnot]; rfl)))
    exact all_eq_true.mp hall ch hch
  rw [NativeSms.recipientKey.eq_def] at h
  dsimp only at h
  split at h
  · next rest =>
    rw [Option.ite_none_left_eq_some] at h
    exact ⟨true, rest, rfl, hdigits rest h.1⟩
  · rw [Option.ite_none_left_eq_some] at h
    exact ⟨false, number, rfl, hdigits number h.1⟩

/-- **Recipients.** A number that a message can be recorded for is written as it is. -/
theorem written_of_recorded (h : NativeSms.recipientKey hashes number = some key)
    (hn : normalizedAddressDigits number = .ok n) : n.written = number := by
  obtain ⟨plus, digits, rfl, hdigits⟩ := recorded_cases h
  have hscan := scanAddress_of_normalized hn
  rw [trim_of_digits hdigits] at hscan
  cases plus with
  | false =>
    rw [if_neg Bool.false_ne_true, nil_append, scanAddress_of_digits hdigits] at hscan
    obtain ⟨hd, hi⟩ := Prod.mk.inj (Except.ok.inj hscan)
    rw [NormalizedAddressDigits.written, ← hd, ← hi]
    rfl
  | true =>
    rw [if_pos rfl, singleton_append, scanAddress, if_pos ⟨rfl, rfl⟩,
      scanAddress_of_digits hdigits] at hscan
    obtain ⟨hd, hi⟩ := Prod.mk.inj (Except.ok.inj hscan)
    rw [NormalizedAddressDigits.written, ← hd, ← hi]
    rfl

/-! ## Times -/

/-- The local date and time that the octets of a timestamp name, and its offset. -/
def wireTime : Bytes → Option (Civil × ℤ)
  | [year, month, day, hour, minute, second, timezone] => do
    let year ← swappedBcd year
    let month ← swappedBcd month
    let day ← swappedBcd day
    let hour ← swappedBcd hour
    let minute ← swappedBcd minute
    let second ← swappedBcd second
    let offset ← timezoneSeconds timezone
    return (⟨if 90 ≤ year then 1900 + year else 2000 + year, month, day, hour, minute, second⟩,
      offset)
  | _ => none

/-- The instant that the octets of a timestamp name, in seconds since 1970. -/
def wireInstant (data : Bytes) : Option ℤ := (wireTime data).map fun time => time.1.seconds - time.2

/-- What `chrono` documents: a local time names the instant that is its offset earlier in UTC, and
an instant is printed as its date and time in UTC. -/
structure Chrono.Calendared (chrono : Chrono) : Prop where
  reads : ∀ offset (c : Civil) instant,
    chrono.withYmdAndHms offset c.year c.month c.day c.hour c.minute c.second = some instant →
      c.Valid ∧ chrono.timestamp instant = c.seconds - offset
  prints : ∀ instant, Civil.seconds ⟨0, 1, 1, 0, 0, 0⟩ ≤ chrono.timestamp instant →
    chrono.timestamp instant < Civil.seconds ⟨10000, 1, 1, 0, 0, 0⟩ →
      ∃ c : Civil, c.Valid ∧ c.FourDigits ∧ c.seconds = chrono.timestamp instant ∧
        chrono.toRfc3339 instant = c.text

variable {chrono : Chrono}

variable {data : Bytes} {text : Str}

theorem decodeServiceCenterTimestamp_wireTime
    (h : decodeServiceCenterTimestamp chrono data = some text) :
    ∃ c offset instant, wireTime data = some (c, offset) ∧
      chrono.withYmdAndHms offset c.year c.month c.day c.hour c.minute c.second = some instant ∧
      text = chrono.toRfc3339 instant := by
  rw [decodeServiceCenterTimestamp.eq_def] at h
  split at h
  · next year month day hour minute second timezone =>
    simp only [Option.bind_eq_bind, Option.bind_eq_some_iff] at h
    obtain ⟨year', hyear, month', hmonth, day', hday, hour', hhour, minute', hminute, second',
      hsecond, offset, hoffset, instant, hinstant, htext⟩ := h
    refine ⟨⟨_, month', day', hour', minute', second'⟩, offset, instant, ?_, hinstant,
      (Option.some.inj htext).symm⟩
    rw [wireTime, hyear, hmonth, hday, hhour, hminute, hsecond, hoffset]
    rfl
  · cases h

/-- The years that two digits name, and the offsets that an octet names. -/
theorem wireTime_bounds {c : Civil} {offset : ℤ} (h : wireTime data = some (c, offset)) :
    1990 ≤ c.year ∧ c.year < 2100 ∧ -86400 < offset ∧ offset < 86400 := by
  rw [wireTime.eq_def] at h
  split at h
  · simp only [Option.bind_eq_bind, Option.bind_eq_some_iff] at h
    obtain ⟨year, hyear, month, -, day, -, hour, -, minute, -, second, -, seconds, hoffset, h⟩ := h
    obtain ⟨hc, ho⟩ := Prod.ext_iff.mp (Option.some.inj h)
    have hlt := swappedBcd_lt hyear
    have hyears : c.year = if 90 ≤ year then 1900 + (year : ℤ) else 2000 + year :=
      (congrArg Civil.year hc).symm
    have hseconds : -86400 < seconds ∧ seconds < 86400 := by
      rw [timezoneSeconds] at hoffset
      split at hoffset
      · cases hoffset
      · obtain rfl := Option.some.inj hoffset
        split <;> omega
    change seconds = offset at ho
    rw [hyears, ← ho]
    refine ⟨?_, ?_, hseconds⟩ <;> split <;> omega
  · cases h

/-- A decoded timestamp is the text of a date in UTC that has the instant of the octets. -/
theorem decoded_text (hchrono : chrono.Calendared)
    (h : decodeServiceCenterTimestamp chrono data = some text) :
    ∃ c : Civil, c.Valid ∧ c.FourDigits ∧ text = c.text ∧ wireInstant data = some c.seconds := by
  obtain ⟨c, offset, instant, hwire, hinstant, rfl⟩ := decodeServiceCenterTimestamp_wireTime h
  obtain ⟨hlow, hhigh, hearly, hlate⟩ := wireTime_bounds hwire
  obtain ⟨hvalid, htimestamp⟩ := hchrono.reads offset c instant hinstant
  have hafter : Civil.seconds ⟨1989, 1, 1, 0, 0, 0⟩ < c.seconds :=
    Civil.seconds_lt ⟨by decide, by decide, by decide, by decide, by decide⟩
      (Or.inl (by change (1989 : ℤ) < c.year; omega))
  have hbefore : c.seconds < Civil.seconds ⟨2101, 1, 1, 0, 0, 0⟩ :=
    Civil.seconds_lt hvalid (Or.inl (by change c.year < (2101 : ℤ); omega))
  have hfirst : Civil.seconds ⟨0, 1, 1, 0, 0, 0⟩ + 86400 ≤ Civil.seconds ⟨1989, 1, 1, 0, 0, 0⟩ := by
    decide +kernel
  have hlast : Civil.seconds ⟨2101, 1, 1, 0, 0, 0⟩ + 86400 ≤
      Civil.seconds ⟨10000, 1, 1, 0, 0, 0⟩ := by
    decide +kernel
  obtain ⟨printed, hprinted, hdigits, hseconds, htext⟩ :=
    hchrono.prints instant (by omega) (by omega)
  refine ⟨printed, hprinted, hdigits, htext, ?_⟩
  rw [wireInstant, hwire, Option.map_some, hseconds, htimestamp]

/-- **Times.** The texts of two timestamps compare as the instants their octets name. -/
theorem lt_iff_wireInstant (hchrono : chrono.Calendared) {scts discharge : Bytes} {a b : Str}
    (ha : decodeServiceCenterTimestamp chrono scts = some a)
    (hb : decodeServiceCenterTimestamp chrono discharge = some b) :
    ∃ sent done, wireInstant scts = some sent ∧ wireInstant discharge = some done ∧
      (b < a ↔ done < sent) := by
  obtain ⟨c, hc, hcf, rfl, hsent⟩ := decoded_text hchrono ha
  obtain ⟨d, hd, hdf, rfl, hdone⟩ := decoded_text hchrono hb
  exact ⟨c.seconds, d.seconds, hsent, hdone, Civil.text_lt_iff hd hc hdf hcf⟩

/-! ## Reports -/

/-- The PDU of a report about a message to a number: its octets behind the service centre, with
nothing wrong but perhaps the order of its times. -/
structure StatusReportPdu (chrono : Chrono) (n : NormalizedAddressDigits) where
  pdu : Bytes
  first : UInt8
  reference : UInt8
  scts : Bytes
  discharge : Bytes
  status : UInt8
  tail : Bytes
  /-- the texts of the two times -/
  sctsText : Str
  dischargeText : Str
  isReport : first &&& 3 = 2
  aboutSubmit : first &&& 0x20 = 0
  sctsDecodes : decodeServiceCenterTimestamp chrono scts = some sctsText
  dischargeDecodes : decodeServiceCenterTimestamp chrono discharge = some dischargeText
  tailValid : reportTail tail = .ok ()
  tpdu : modemTpdu pdu = .ok (first :: reference :: UInt8.ofNat n.digits.length ::
    (n.addressValue ++ (scts ++ (discharge ++ status :: tail))))

theorem length_of_decodes
    (h : decodeServiceCenterTimestamp chrono data = some text) : data.length = 7 := by
  rw [decodeServiceCenterTimestamp.eq_def] at h
  split at h
  · rfl
  · cases h

/-- A range behind so many octets. -/
theorem getRange_middle {front value back : Bytes} {i j : ℕ} (hi : i = front.length)
    (hj : j = i + value.length) : getRange (front ++ (value ++ back)) i j = some value := by
  subst hi hj
  rw [getRange, if_pos ⟨Nat.le_add_right _ _, by simp only [length_append]; omega⟩,
    drop_left, Nat.add_sub_cancel_left, take_left]

/-- **Status reports.** The report is accepted just when it was discharged no earlier than the
message was sent, and names the number. -/
theorem parseModemStatusReport_report (hchrono : chrono.Calendared) (r : StatusReportPdu chrono n) :
    ∃ sent done, wireInstant r.scts = some sent ∧ wireInstant r.discharge = some done ∧
      parseModemStatusReport chrono r.pdu = if sent ≤ done then
          .ok ⟨r.reference, n.written, r.sctsText, r.dischargeText, r.status⟩
        else .error .bodyTooLong := by
  obtain ⟨sent, done, hsent, hdone, hlt⟩ :=
    lt_iff_wireInstant hchrono r.sctsDecodes r.dischargeDecodes
  refine ⟨sent, done, hsent, hdone, ?_⟩
  have hpos := length_pos_of_ne_nil n.nonempty
  have hshort := n.short
  have hnat : (UInt8.ofNat n.digits.length).toNat = n.digits.length :=
    UInt8.toNat_ofNat_of_lt' (lt_of_le_of_lt hshort (by decide))
  have hscts := length_of_decodes r.sctsDecodes
  have hdischarge := length_of_decodes r.dischargeDecodes
  have hstop : addressValueOctets n.digits.length = (encodeSemiOctets n.digits).length :=
    (length_encodeSemiOctets n.digits).symm
  have hdigits : ¬(r.first &&& 0x20 ≠ 0 ∨ UInt8.ofNat n.digits.length = 0 ∨
      20 < UInt8.ofNat n.digits.length ∨
      ¬((if n.international then (0x91 : UInt8) else 0x81) = 0x81 ∨
        (if n.international then (0x91 : UInt8) else 0x81) = 0x91)) := by
    rintro (h | h | h | h)
    · exact h r.aboutSubmit
    · rw [h] at hnat
      exact absurd hnat hpos.ne
    · rw [UInt8.lt_iff_toNat_lt, hnat] at h
      exact absurd h (Nat.not_lt.mpr hshort)
    · revert h
      cases n.international <;> decide
  rw [parseModemStatusReport, r.tpdu, ok_bind, NormalizedAddressDigits.addressValue, cons_append]
  dsimp only
  rw [if_neg (not_not.mpr r.isReport), if_neg hdigits, hnat, hstop]
  have haddress : getRange (encodeSemiOctets n.digits ++
      (r.scts ++ (r.discharge ++ r.status :: r.tail))) 0 (encodeSemiOctets n.digits).length =
        some (encodeSemiOctets n.digits) := by
    rw [getRange, if_pos ⟨Nat.zero_le _, by rw [length_append]; omega⟩, drop_zero,
      Nat.sub_zero, take_left]
  have hsctsRange : getRange (encodeSemiOctets n.digits ++
      (r.scts ++ (r.discharge ++ r.status :: r.tail))) (encodeSemiOctets n.digits).length
        ((encodeSemiOctets n.digits).length + 7) = some r.scts :=
    getRange_middle rfl (by rw [hscts])
  have hassoc : encodeSemiOctets n.digits ++ (r.scts ++ (r.discharge ++ r.status :: r.tail)) =
      (encodeSemiOctets n.digits ++ r.scts) ++ (r.discharge ++ r.status :: r.tail) :=
    (append_assoc _ _ _).symm
  have hlength : (encodeSemiOctets n.digits ++ r.scts).length =
      (encodeSemiOctets n.digits).length + 7 := by rw [length_append, hscts]
  have hdischargeRange : getRange (encodeSemiOctets n.digits ++
      (r.scts ++ (r.discharge ++ r.status :: r.tail))) ((encodeSemiOctets n.digits).length + 7)
        ((encodeSemiOctets n.digits).length + 14) = some r.discharge := by
    rw [hassoc]
    exact getRange_middle hlength.symm (by rw [hdischarge])
  have hstatus : (encodeSemiOctets n.digits ++
      (r.scts ++ (r.discharge ++ r.status :: r.tail)))[(encodeSemiOctets n.digits).length + 14]? =
        some r.status := by
    rw [hassoc, ← append_assoc, getElem?_append_right (by simp; omega)]
    simp [hscts, hdischarge]
  have htail : (encodeSemiOctets n.digits ++ (r.scts ++ (r.discharge ++ r.status :: r.tail))).drop
      ((encodeSemiOctets n.digits).length + 15) = r.tail := by
    have hall : encodeSemiOctets n.digits ++ (r.scts ++ (r.discharge ++ r.status :: r.tail)) =
        (encodeSemiOctets n.digits ++ (r.scts ++ (r.discharge ++ [r.status]))) ++ r.tail := by
      simp only [append_assoc, singleton_append]
    rw [hall]
    exact drop_left' (by
      simp only [length_append, length_singleton, hscts, hdischarge])
  rw [haddress, okOr_some, ok_bind, reportAddressValid_encode, hsctsRange, Option.bind_some,
    r.sctsDecodes, okOr_some, ok_bind, hdischargeRange, Option.bind_some, r.dischargeDecodes,
    okOr_some, ok_bind, hstatus, okOr_some, ok_bind, htail, r.tailValid]
  rw [Bool.not_true, if_neg Bool.false_ne_true, decodeAddressValue_encode]
  by_cases hle : sent ≤ done
  · rw [if_pos hle, if_neg fun h => absurd (hlt.mp h) (not_lt.mpr hle)]
    rfl
  · rw [if_neg hle, if_pos (hlt.mpr (not_le.mp hle))]
    rfl

/-- **Addresses and times of status reports.** For every number the encoder takes, its address field
reads back as the number; an accepted report about a message that was recorded names the recipient
it was recorded for; and a report is accepted just when its octets name an instant of discharge that
is not before the one of submission. -/
theorem status_report_round_trip {number : Str} {n : NormalizedAddressDigits}
    (hnumber : normalizedAddressDigits number = .ok n) :
    (∃ tonNpi address, encodeAddressValue number = .ok (tonNpi :: address) ∧
      decodeAddressValue tonNpi address n.digits.length = n.written ∧
      addressTypeIsInternational tonNpi = n.international) ∧
    ∀ chrono : Chrono, chrono.Calendared → ∀ r : StatusReportPdu chrono n,
      (∀ hashes key report, NativeSms.recipientKey hashes number = some key →
        parseModemStatusReport chrono r.pdu = .ok report →
          NativeSms.recipientKey hashes report.recipient = some key) ∧
      ∃ sent done, wireInstant r.scts = some sent ∧ wireInstant r.discharge = some done ∧
        parseModemStatusReport chrono r.pdu = if sent ≤ done then
            .ok ⟨r.reference, n.written, r.sctsText, r.dischargeText, r.status⟩
          else .error .bodyTooLong := by
  refine ⟨⟨_, _, encodeAddressValue_eq hnumber, decodeAddressValue_encode n, ?_⟩,
    fun chrono hchrono r => ?_⟩
  · cases n.international <;> decide
  · have hparse := parseModemStatusReport_report hchrono r
    refine ⟨fun hashes key report hkey hreport => ?_, hparse⟩
    obtain ⟨sent, done, -, -, hresult⟩ := hparse
    rw [hresult] at hreport
    split at hreport
    · obtain rfl := Except.ok.inj hreport
      dsimp only
      rw [written_of_recorded hkey hnumber, hkey]
    · cases hreport

/-- A calendar that knows noon in UTC and half past one an hour east of it, on one day. -/
def juneCalendar : Chrono where
  Instant := Bool
  parseFromRfc3339 text :=
    if text = "2026-06-01T12:00:00Z".toList then some false
    else if text = "2026-06-01T12:30:00Z".toList then some true
    else none
  timestamp late := if late then 1780317000 else 1780315200
  toRfc3339 late :=
    if late then "2026-06-01T12:30:00Z".toList else "2026-06-01T12:00:00Z".toList
  withYmdAndHms offset year month day hour minute second :=
    if offset = 0 ∧ (⟨year, month, day, hour, minute, second⟩ : Civil) = ⟨2026, 6, 1, 12, 0, 0⟩ then
      some false
    else if offset = 3600 ∧
        (⟨year, month, day, hour, minute, second⟩ : Civil) = ⟨2026, 6, 1, 13, 30, 0⟩ then
      some true
    else none

theorem juneCalendar_calendared : juneCalendar.Calendared := by
  have hnoon : Civil.Valid ⟨2026, 6, 1, 12, 0, 0⟩ :=
    ⟨by decide, by decide, by decide, by decide, by decide⟩
  have hlate : Civil.Valid ⟨2026, 6, 1, 12, 30, 0⟩ :=
    ⟨by decide, by decide, by decide, by decide, by decide⟩
  have heast : Civil.Valid ⟨2026, 6, 1, 13, 30, 0⟩ :=
    ⟨by decide, by decide, by decide, by decide, by decide⟩
  refine ⟨fun offset c instant h => ?_, fun instant _ _ => ?_⟩
  · change (if offset = 0 ∧ c = ⟨2026, 6, 1, 12, 0, 0⟩ then some false
      else if offset = 3600 ∧ c = ⟨2026, 6, 1, 13, 30, 0⟩ then some true else none) =
        some instant at h
    split at h
    · next heq =>
      obtain ⟨rfl, rfl⟩ := heq
      obtain rfl := Option.some.inj h
      exact ⟨hnoon, by decide +kernel⟩
    · split at h
      · next heq =>
        obtain ⟨rfl, rfl⟩ := heq
        obtain rfl := Option.some.inj h
        exact ⟨heast, by decide +kernel⟩
      · cases h
  · cases instant with
    | false => exact ⟨_, hnoon, ⟨by decide, by decide⟩, by decide +kernel, by decide +kernel⟩
    | true => exact ⟨_, hlate, ⟨by decide, by decide⟩, by decide +kernel, by decide +kernel⟩

def juneNumber : NormalizedAddressDigits :=
  ⟨['1', '2', '3', '4'], true, by decide, by decide,
    fun _ h => all_eq_true.mp (by decide : ['1', '2', '3', '4'].all isDigit = true) _ h⟩

/-- A report about a message to +1234, sent at noon and discharged half an hour later. -/
def juneReport : StatusReportPdu juneCalendar juneNumber where
  pdu := [0, 2, 7, 4, 0x91, 0x21, 0x43, 0x62, 0x60, 0x10, 0x21, 0, 0, 0,
    0x62, 0x60, 0x10, 0x31, 0x03, 0, 0x40, 0]
  first := 2
  reference := 7
  scts := [0x62, 0x60, 0x10, 0x21, 0, 0, 0]
  discharge := [0x62, 0x60, 0x10, 0x31, 0x03, 0, 0x40]
  status := 0
  tail := []
  sctsText := "2026-06-01T12:00:00Z".toList
  dischargeText := "2026-06-01T12:30:00Z".toList
  isReport := by decide
  aboutSubmit := by decide
  sctsDecodes := by decide +kernel
  dischargeDecodes := by decide +kernel
  tailValid := rfl
  tpdu := by decide +kernel

theorem status_report_round_trip_june :
    parseModemStatusReport juneCalendar juneReport.pdu = .ok ⟨7, "+1234".toList,
      "2026-06-01T12:00:00Z".toList, "2026-06-01T12:30:00Z".toList, 0⟩ := by
  have hnumber : normalizedAddressDigits "+1234".toList = .ok juneNumber := rfl
  obtain ⟨sent, done, hsent, hdone, hparse⟩ :=
    ((status_report_round_trip hnumber).2 juneCalendar juneCalendar_calendared juneReport).2
  have hnoon : wireInstant juneReport.scts = some 1780315200 := by decide +kernel
  have hlate : wireInstant juneReport.discharge = some 1780317000 := by decide +kernel
  rw [hnoon] at hsent
  rw [hlate] at hdone
  obtain rfl := Option.some.inj hsent
  obtain rfl := Option.some.inj hdone
  rw [hparse, if_pos (by decide)]
  rfl

end SimMaster
