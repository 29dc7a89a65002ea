import SimMaster.Text
import SimMaster.BitStream

/-!
# The GSM 7-bit alphabet and its packing

The default alphabet of TS 23.038 as `sms_codec.rs` tabulates it, the extension
table behind the escape septet, and the packing of septets into octets. A text
is first turned into septets (`gsm7Septets`), the septets are written at a bit
offset (`writeSeptets`), and the decoder reads septets back off the same bit
stream and undoes the escapes (`gsm7Text`). The two halves are inverse:
`gsm7Text_gsm7Septets` for the alphabet, `septetAt_writeSeptets` for the bits.
-/

namespace SimMaster

open Rust List

/-! ## Alphabet tables -/

/-- `gsm7_basic_char`. -/
def gsm7BasicChar (value : UInt8) : Char :=
  match value with
  | 0x00 => '@'
  | 0x01 => '\u00a3'
  | 0x02 => '$'
  | 0x03 => '\u00a5'
  | 0x04 => '\u00e8'
  | 0x05 => '\u00e9'
  | 0x06 => '\u00f9'
  | 0x07 => '\u00ec'
  | 0x08 => '\u00f2'
  | 0x09 => '\u00c7'
  | 0x0a => '\n'
  | 0x0b => '\u00d8'
  | 0x0c => '\u00f8'
  | 0x0d => '\r'
  | 0x0e => '\u00c5'
  | 0x0f => '\u00e5'
  | 0x10 => '\u0394'
  | 0x11 => '_'
  | 0x12 => '\u03a6'
  | 0x13 => '\u0393'
  | 0x14 => '\u039b'
  | 0x15 => '\u03a9'
  | 0x16 => '\u03a0'
  | 0x17 => '\u03a8'
  | 0x18 => '\u03a3'
  | 0x19 => '\u0398'
  | 0x1a => '\u039e'
  | 0x1c => '\u00c6'
  | 0x1d => '\u00e6'
  | 0x1e => '\u00df'
  | 0x1f => '\u00c9'
  | 0x40 => '\u00a1'
  | 0x5b => '\u00c4'
  | 0x5c => '\u00d6'
  | 0x5d => '\u00d1'
  | 0x5e => '\u00dc'
  | 0x5f => '\u00a7'
  | 0x60 => '\u00bf'
  | 0x7b => '\u00e4'
  | 0x7c => '\u00f6'
  | 0x7d => '\u00f1'
  | 0x7e => '\u00fc'
  | 0x7f => '\u00e0'
  | v =>
    if (0x20 ≤ v ∧ v ≤ 0x3f) ∨ (0x41 ≤ v ∧ v ≤ 0x5a) ∨ (0x61 ≤ v ∧ v ≤ 0x7a) then
      Char.ofNat v.toNat
    else ' '

/-- `gsm7_basic_value`. -/
def gsm7BasicValue (ch : Char) : Option UInt8 :=
  match ch with
  | '@' => some 0x00
  | '\u00a3' => some 0x01
  | '$' => some 0x02
  | '\u00a5' => some 0x03
  | '\u00e8' => some 0x04
  | '\u00e9' => some 0x05
  | '\u00f9' => some 0x06
  | '\u00ec' => some 0x07
  | '\u00f2' => some 0x08
  | '\u00c7' => some 0x09
  | '\n' => some 0x0a
  | '\u00d8' => some 0x0b
  | '\u00f8' => some 0x0c
  | '\r' => some 0x0d
  | '\u00c5' => some 0x0e
  | '\u00e5' => some 0x0f
  | '\u0394' => some 0x10
  | '_' => some 0x11
  | '\u03a6' => some 0x12
  | '\u0393' => some 0x13
  | '\u039b' => some 0x14
  | '\u03a9' => some 0x15
  | '\u03a0' => some 0x16
  | '\u03a8' => some 0x17
  | '\u03a3' => some 0x18
  | '\u0398' => some 0x19
  | '\u039e' => some 0x1a
  | '\u00c6' => some 0x1c
  | '\u00e6' => some 0x1d
  | '\u00df' => some 0x1e
  | '\u00c9' => some 0x1f
  | '\u00a1' => some 0x40
  | '\u00c4' => some 0x5b
  | '\u00d6' => some 0x5c
  | '\u00d1' => some 0x5d
  | '\u00dc' => some 0x5e
  | '\u00a7' => some 0x5f
  | '\u00bf' => some 0x60
  | '\u00e4' => some 0x7b
  | '\u00f6' => some 0x7c
  | '\u00f1' => some 0x7d
  | '\u00fc' => some 0x7e
  | '\u00e0' => some 0x7f
  | c =>
    if (' ' ≤ c ∧ c ≤ '?') ∨ ('A' ≤ c ∧ c ≤ 'Z') ∨ ('a' ≤ c ∧ c ≤ 'z') then
      some (UInt8.ofNat c.toNat)
    else none

/-- `gsm7_extension_char`. -/
def gsm7ExtensionChar (value : UInt8) : Option Char :=
  match value with
  | 0x0a => some '\u000c'
  | 0x14 => some '^'
  | 0x28 => some '{'
  | 0x29 => some '}'
  | 0x2f => some '\\'
  | 0x3c => some '['
  | 0x3d => some '~'
  | 0x3e => some ']'
  | 0x40 => some '|'
  | 0x65 => some '\u20ac'
  | _ => none

/-- `gsm7_extension_value`. -/
def gsm7ExtensionValue (ch : Char) : Option UInt8 :=
  match ch with
  | '\u000c' => some 0x0a
  | '^' => some 0x14
  | '{' => some 0x28
  | '}' => some 0x29
  | '\\' => some 0x2f
  | '[' => some 0x3c
  | '~' => some 0x3d
  | ']' => some 0x3e
  | '|' => some 0x40
  | '\u20ac' => some 0x65
  | _ => none

/-- The basic table below 128, where the two printable ranges carry their own
code: every entry decodes back. -/
theorem gsm7BasicValue_ascii :
    ((range 128).all fun n => (gsm7BasicValue (Char.ofNat n)).all fun v =>
      gsm7BasicChar v == Char.ofNat n && decide (v < 0x80) && v != 0x1b) = true := by
  decide +kernel

variable {ch : Char} {v : UInt8}

/-- A basic value decodes to its character, and is never the escape septet. -/
theorem gsm7BasicValue_spec (h : gsm7BasicValue ch = some v) :
    gsm7BasicChar v = ch ∧ v < 0x80 ∧ v ≠ 0x1b := by
  by_cases hlt : ch.toNat < 128
  · have hall := all_eq_true.mp gsm7BasicValue_ascii ch.toNat (mem_range.mpr hlt)
    rw [Char.ofNat_toNat, h] at hall
    simpa [and_assoc] using hall
  · unfold gsm7BasicValue at h
    split at h
    all_goals first
      | (obtain rfl := Option.some.inj h; exact ⟨rfl, by decide, by decide⟩)
      | skip
    -- the printable ranges lie below 128
    split at h
    · next hr =>
      simp only [Char.le_def, UInt32.le_iff_toNat_le] at hr
      simp at hr
      omega
    · cases h

theorem gsm7ExtensionValue_spec (h : gsm7ExtensionValue ch = some v) :
    gsm7ExtensionChar v = some ch ∧ v < 0x80 := by
  unfold gsm7ExtensionValue at h
  split at h
  all_goals first
    | (obtain rfl := Option.some.inj h; exact ⟨rfl, by decide⟩)
    | cases h

/-! ## Text and septets -/

/-- `gsm7_septets`: an extension character is an escape followed by its value. -/
def gsm7Septets : Str → Option Bytes
  | [] => some []
  | ch :: rest =>
    match gsm7BasicValue ch with
    | some value => (gsm7Septets rest).map (value :: ·)
    | none =>
      match gsm7ExtensionValue ch with
      | some value => (gsm7Septets rest).map fun septets => 0x1b :: value :: septets
      | none => none

/-- The character loop of `decode_gsm7_text_from_bit_offset`, over the septets
it reads; `escaped` is the loop's flag. -/
def gsm7Text (escaped : Bool) : Bytes → Str
  | [] => []
  | value :: rest =>
    if escaped then
      match gsm7ExtensionChar value with
      | some ch => ch :: gsm7Text false rest
      | none => gsm7Text false rest
    else if value = 0x1b then gsm7Text true rest
    else gsm7BasicChar value :: gsm7Text false rest

/-- How many septets a character takes. -/
def gsm7Width (ch : Char) : ℕ := if (gsm7BasicValue ch).isSome then 1 else 2

variable {septets : Bytes}

theorem gsm7Septets_cons {rest : Str} (h : gsm7Septets (ch :: rest) = some septets) :
    ∃ more, gsm7Septets rest = some more ∧
      ((∃ v, gsm7BasicValue ch = some v ∧ septets = v :: more) ∨
        ∃ v, gsm7BasicValue ch = none ∧ gsm7ExtensionValue ch = some v ∧
          septets = 0x1b :: v :: more) := by
  rw [gsm7Septets] at h
  split at h
  · next v hv =>
    obtain ⟨more, hmore, rfl⟩ := Option.map_eq_some_iff.mp h
    exact ⟨more, hmore, Or.inl ⟨v, hv, rfl⟩⟩
  · next hb =>
    split at h
    · next v hv =>
      obtain ⟨more, hmore, rfl⟩ := Option.map_eq_some_iff.mp h
      exact ⟨more, hmore, Or.inr ⟨v, hb, hv, rfl⟩⟩
    · cases h

/-- **The alphabet round trip**: decoding the septets of a text returns it. -/
theorem gsm7Text_gsm7Septets : ∀ {text : Str} {septets : Bytes}, gsm7Septets text = some septets →
      gsm7Text false septets = text := by
  intro text
  induction text with
  | nil =>
    intro septets h
    obtain rfl := Option.some.inj h
    rfl
  | cons ch rest ih =>
    intro septets h
    obtain ⟨more, hmore, ⟨v, hv, rfl⟩ | ⟨v, -, hv, rfl⟩⟩ := gsm7Septets_cons h
    · obtain ⟨hch, -, hne⟩ := gsm7BasicValue_spec hv
      rw [gsm7Text, if_neg (by decide), if_neg hne, hch, ih hmore]
    · obtain ⟨hch, -⟩ := gsm7ExtensionValue_spec hv
      rw [gsm7Text, if_neg (by decide), if_pos rfl, gsm7Text, if_pos rfl, hch]
      simp [ih hmore]

theorem gsm7Septets_lt : ∀ {text : Str} {septets : Bytes}, gsm7Septets text = some septets →
      ∀ v ∈ septets, v < 0x80 := by
  intro text
  induction text with
  | nil =>
    intro septets h
    obtain rfl := Option.some.inj h
    simp
  | cons ch rest ih =>
    intro septets h
    obtain ⟨more, hmore, ⟨v, hv, rfl⟩ | ⟨v, -, hv, rfl⟩⟩ := gsm7Septets_cons h
    · obtain ⟨-, hlt, -⟩ := gsm7BasicValue_spec hv
      simpa [hlt] using ih hmore
    · obtain ⟨-, hlt⟩ := gsm7ExtensionValue_spec hv
      simpa [hlt] using ih hmore

/-- The septet count is the sum of the characters' widths. -/
theorem length_gsm7Septets : ∀ {text : Str} {septets : Bytes}, gsm7Septets text = some septets →
      septets.length = (text.map gsm7Width).sum := by
  intro text
  induction text with
  | nil =>
    intro septets h
    obtain rfl := Option.some.inj h
    rfl
  | cons ch rest ih =>
    intro septets h
    obtain ⟨more, hmore, ⟨v, hv, rfl⟩ | ⟨v, hb, -, rfl⟩⟩ := gsm7Septets_cons h
    · simp [gsm7Width, hv, ih hmore, Nat.add_comm]
    · rw [length_cons, length_cons, ih hmore, map_cons, sum_cons, gsm7Width, hb]
      simp
      omega

/-! ## Septets and octets -/

/-- `write_septet`: `|=` each set bit of the septet into the stream. -/
def writeSeptet (out : Bytes) (bitIndex : ℕ) (septet : UInt8) : Bytes :=
  (range 7).foldl
    (fun out bit =>
      if septet.toNat.testBit bit then BitStream.setBit out (bitIndex + bit) else out) out

/-- The enumeration loop around `write_septet`: septet `index` goes to bit
`offset + 7 * index`. -/
def writeSeptets (out : Bytes) (offset : ℕ) : Bytes → Bytes
  | [] => out
  | septet :: rest => writeSeptets (writeSeptet out offset septet) (offset + 7) rest

/-- One loop round of `decode_gsm7_text_from_bit_offset`: the septet at a bit
index, from the octet it starts in and, when it straddles, the next one. -/
def septetAt (userData : Bytes) (bitIndex : ℕ) : UInt8 :=
  let byteIndex := bitIndex / 8
  let shift := bitIndex % 8
  let value := ((userData.getD byteIndex 0).toNat >>> shift) &&& 0x7f
  let value :=
    if 1 < shift ∧ byteIndex + 1 < userData.length then
      value ||| (((userData.getD (byteIndex + 1) 0).toNat <<< (8 - shift)) &&& 0x7f)
    else value
  UInt8.ofNat value

@[simp] theorem length_writeSeptet (out : Bytes) (bitIndex : ℕ) (septet : UInt8) :
    (writeSeptet out bitIndex septet).length = out.length :=
  BitStream.length_foldl_setBit

@[simp] theorem length_writeSeptets (septets : Bytes) :
    ∀ (out : Bytes) (offset : ℕ), (writeSeptets out offset septets).length = out.length := by
  induction septets with
  | nil => intro out offset; rfl
  | cons septet rest ih => intro out offset; rw [writeSeptets, ih, length_writeSeptet]

variable {out : Bytes} {bitIndex : ℕ}

/-- Writing a septet adds its seven bits at its place and nothing else. -/
theorem bit_writeSeptet (septet : UInt8) (h : bitIndex + 7 ≤ 8 * out.length) (k : ℕ) :
    BitStream.bit (writeSeptet out bitIndex septet) k = (BitStream.bit out k ||
        (decide (bitIndex ≤ k ∧ k < bitIndex + 7) && septet.toNat.testBit (k - bitIndex))) := by
  have hin : ∀ i ∈ range 7, bitIndex + i < 8 * out.length := by
    intro i hi
    have := mem_range.mp hi
    omega
  rw [writeSeptet, BitStream.bit_foldl_setBit hin]
  congr 1
  rw [Bool.eq_iff_iff]
  simp only [any_eq_true, mem_range, Bool.and_eq_true, decide_eq_true_eq]
  constructor
  · rintro ⟨i, hi, hbit, rfl⟩
    exact ⟨⟨by omega, by omega⟩, by rwa [Nat.add_sub_cancel_left]⟩
  · rintro ⟨⟨hle, hlt⟩, hbit⟩
    exact ⟨k - bitIndex, by omega, hbit, by omega⟩

/-- Bits before the offset are not touched. -/
theorem bit_writeSeptets_lt (septets : Bytes) :
    ∀ {out : Bytes} {offset : ℕ}, offset + 7 * septets.length ≤ 8 * out.length →
      ∀ {k : ℕ}, k < offset →
        BitStream.bit (writeSeptets out offset septets) k = BitStream.bit out k := by
  induction septets with
  | nil => intro out offset _ k _; rfl
  | cons septet rest ih =>
    intro out offset h k hk
    rw [length_cons] at h
    rw [writeSeptets, ih (by rw [length_writeSeptet]; omega) (by omega),
      bit_writeSeptet septet (by omega)]
    simp [show ¬ (offset ≤ k ∧ k < offset + 7) by omega]

/-- On a stream that is clear from the offset on, bit `i` of septet `j` is
stored at `offset + 7 * j + i`. -/
theorem bit_writeSeptets (septets : Bytes) :
    ∀ {out : Bytes} {offset : ℕ}, offset + 7 * septets.length ≤ 8 * out.length →
      (∀ k, offset ≤ k → BitStream.bit out k = false) →
      ∀ {j i : ℕ} (hj : j < septets.length), i < 7 →
        BitStream.bit (writeSeptets out offset septets) (offset + 7 * j + i) =
          septets[j].toNat.testBit i := by
  induction septets with
  | nil => intro out offset _ _ j i hj; cases hj
  | cons septet rest ih =>
    intro out offset h hclear j i hj hi
    rw [length_cons] at h
    have hroom : offset + 7 ≤ 8 * out.length := by omega
    have hrest : offset + 7 + 7 * rest.length ≤ 8 * (writeSeptet out offset septet).length := by
      rw [length_writeSeptet]
      omega
    rw [writeSeptets]
    cases j with
    | zero =>
      -- the septet just written: the later ones start behind it
      rw [bit_writeSeptets_lt rest hrest (by omega), bit_writeSeptet septet hroom,
        hclear _ (by omega)]
      simp [show offset + i - offset = i by omega, hi]
    | succ j =>
      have hclear' : ∀ k, offset + 7 ≤ k →
          BitStream.bit (writeSeptet out offset septet) k = false := by
        intro k hk
        rw [bit_writeSeptet septet hroom, hclear k (by omega)]
        simp [show ¬ (offset ≤ k ∧ k < offset + 7) by omega]
      have := ih hrest hclear' (j := j) (i := i) (by simpa using hj) hi
      rw [getElem_cons_succ, ← this]
      congr 1
      omega

/-- The seven bits `septetAt` returns are the seven bits of the stream there. -/
theorem testBit_septetAt {userData : Bytes} (h : bitIndex + 7 ≤ 8 * userData.length) (i : ℕ) :
    (septetAt userData bitIndex).toNat.testBit i =
      (decide (i < 7) && BitStream.bit userData (bitIndex + i)) := by
  have hmask : (0x7f : ℕ) = 2 ^ 7 - 1 := rfl
  have hlow : (userData.getD (bitIndex / 8) 0).toNat < 2 ^ 8 := UInt8.toNat_lt _
  have hfit : ∀ n : ℕ, n &&& 0x7f < 2 ^ 7 := fun n => by
    rw [hmask, Nat.and_two_pow_sub_one_eq_mod]
    exact Nat.mod_lt _ (by decide)
  unfold septetAt BitStream.bit
  by_cases hstraddle : 1 < bitIndex % 8 ∧ bitIndex / 8 + 1 < userData.length
  · simp only [if_pos hstraddle]
    have hlt := Nat.or_lt_two_pow (hfit ((userData.getD (bitIndex / 8) 0).toNat >>> (bitIndex % 8)))
      (hfit ((userData.getD (bitIndex / 8 + 1) 0).toNat <<< (8 - bitIndex % 8)))
    rw [UInt8.toNat_ofNat', Nat.mod_eq_of_lt (by omega), hmask]
    simp only [Nat.testBit_or, Nat.testBit_and, Nat.testBit_two_pow_sub_one, Nat.testBit_shiftRight,
      Nat.testBit_shiftLeft]
    by_cases hi : i < 7
    · by_cases hcross : bitIndex % 8 + i < 8
      · -- still in the first octet
        have hd : (bitIndex + i) / 8 = bitIndex / 8 := by omega
        have hm : (bitIndex + i) % 8 = bitIndex % 8 + i := by omega
        simp [hd, hm, hi, show ¬ 8 - bitIndex % 8 ≤ i by omega]
      · -- carried over into the next octet
        have hd : (bitIndex + i) / 8 = bitIndex / 8 + 1 := by omega
        have hm : (bitIndex + i) % 8 = i - (8 - bitIndex % 8) := by omega
        have hzero : (userData.getD (bitIndex / 8) 0).toNat.testBit (bitIndex % 8 + i) = false :=
          Nat.testBit_lt_two_pow (lt_of_lt_of_le hlow
            (Nat.pow_le_pow_right (by decide) (by omega)))
        rw [hzero, hd, hm]
        simp [hi, show 8 - bitIndex % 8 ≤ i by omega]
    · simp [hi]
  · simp only [if_neg hstraddle]
    have hlt := hfit ((userData.getD (bitIndex / 8) 0).toNat >>> (bitIndex % 8))
    rw [UInt8.toNat_ofNat', Nat.mod_eq_of_lt (by omega), hmask]
    simp only [Nat.testBit_and, Nat.testBit_two_pow_sub_one, Nat.testBit_shiftRight]
    by_cases hi : i < 7
    · have hd : (bitIndex + i) / 8 = bitIndex / 8 := by omega
      have hm : (bitIndex + i) % 8 = bitIndex % 8 + i := by omega
      simp [hd, hm, hi]
    · simp [hi]

/-- **The packing round trip**: septets written to a clear stream are read back. -/
theorem septetAt_writeSeptets {offset : ℕ} (hroom : offset + 7 * septets.length ≤ 8 * out.length)
    (hclear : ∀ k, offset ≤ k → BitStream.bit out k = false) (hlt : ∀ v ∈ septets, v < 0x80) {j : ℕ}
    (hj : j < septets.length) :
    septetAt (writeSeptets out offset septets) (offset + j * 7) = septets[j] := by
  apply UInt8.toNat.inj
  apply Nat.eq_of_testBit_eq
  intro i
  have hin : offset + j * 7 + 7 ≤ 8 * (writeSeptets out offset septets).length := by
    rw [length_writeSeptets]
    omega
  rw [testBit_septetAt hin]
  by_cases hi : i < 7
  · rw [Nat.mul_comm j 7, bit_writeSeptets septets hroom hclear hj hi]
    simp [hi]
  · have hv : septets[j].toNat < 2 ^ 7 := by
      have := hlt _ (getElem_mem hj)
      exact this
    rw [Nat.testBit_lt_two_pow (lt_of_lt_of_le hv (Nat.pow_le_pow_right (by decide) (by omega)))]
    simp [hi]

end SimMaster
