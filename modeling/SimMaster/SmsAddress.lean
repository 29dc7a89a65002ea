import SimMaster.SmsAlphabet

/-!
# SMS addresses

The address half of `sms_codec.rs`: a dialled number is cut down to its digits
and the international flag, and written as a type-of-address octet followed by
semi-octets. An address that was normalized carries the facts the builders rely
on (one to twenty decimal digits) in its type.
-/

namespace SimMaster

open Rust List

/-- `SmsEncodingError`. -/
inductive SmsEncodingError : Type where
  | emptyRecipient
  | emptyText
  | invalidAddress
  | textTooLong
  | bodyTooLong
  deriving DecidableEq

/-! ## Normalization -/

/-- `'0'..='9'`. -/
def isDigit (ch : Char) : Bool := '0' ≤ ch && ch ≤ '9'

/-- The character loop of `normalized_address_digits`, with the digits and the
flag gathered so far. -/
def scanAddress (index : ℕ) (digits : Str) (international : Bool) :
    Str → Except SmsEncodingError (Str × Bool)
  | [] => .ok (digits, international)
  | ch :: rest =>
    if ch = '+' ∧ index = 0 then scanAddress (index + 1) digits true rest
    else if isDigit ch then scanAddress (index + 1) (digits ++ [ch]) international rest
    else if ch = ' ' ∨ ch = '-' ∨ ch = '(' ∨ ch = ')' then
      scanAddress (index + 1) digits international rest
    else .error .invalidAddress

variable {address : Str}

/-- Only digits are ever gathered. -/
theorem scanAddress_digits : ∀ {index : ℕ} {digits : Str} {international : Bool} {r : Str × Bool},
      (∀ ch ∈ digits, isDigit ch) → scanAddress index digits international address = .ok r →
      ∀ ch ∈ r.1, isDigit ch := by
  induction address with
  | nil =>
    intro index digits international r hd h
    obtain rfl := Except.ok.inj h
    exact hd
  | cons ch rest ih =>
    intro index digits international r hd h
    rw [scanAddress] at h
    split at h
    · exact ih hd h
    · split at h
      · next hch =>
        refine ih ?_ h
        intro c hc
        rcases mem_append.mp hc with hc | hc
        · exact hd c hc
        · rwa [mem_singleton.mp hc]
      · split at h
        · exact ih hd h
        · cases h

/-- `NormalizedAddressDigits`: one to twenty decimal digits and the flag of a
leading `+`. -/
structure NormalizedAddressDigits : Type where
  /-- the digits, separators removed -/
  digits : Str
  /-- the address started with `+` -/
  international : Bool
  /-- there is a digit -/
  nonempty : digits ≠ []
  /-- the digits fit the address field -/
  short : digits.length ≤ 20
  /-- nothing but digits was kept -/
  numeric : ∀ ch ∈ digits, isDigit ch

/-- `normalized_address_digits`. -/
def normalizedAddressDigits (address : Str) : Except SmsEncodingError NormalizedAddressDigits :=
  match h : scanAddress 0 [] false (trim address) with
  | .error e => .error e
  | .ok (digits, international) =>
    if hd : digits ≠ [] ∧ digits.length ≤ 20 then
      .ok ⟨digits, international, hd.1, hd.2, scanAddress_digits (by simp) h⟩
    else .error .invalidAddress

/-! ## Semi-octets -/

/-- `digit - b'0'`. -/
def digitValue (ch : Char) : UInt8 := UInt8.ofNat (ch.toNat - '0'.toNat)

/-- `encode_semi_octets`: two digits an octet, low nibble first, `0xf` as filler. -/
def encodeSemiOctets : Str → Bytes
  | [] => []
  | [first] => [digitValue first ||| ((0x0f : UInt8) <<< 4)]
  | first :: second :: rest =>
    (digitValue first ||| (digitValue second <<< 4)) :: encodeSemiOctets rest

theorem length_encodeSemiOctets : ∀ digits : Str,
    (encodeSemiOctets digits).length = divCeil digits.length 2
  | [] => rfl
  | [_] => by simp [encodeSemiOctets, divCeil]
  | _ :: _ :: rest => by
      have ih := length_encodeSemiOctets rest
      simp only [encodeSemiOctets, length_cons, divCeil] at ih ⊢
      omega

/-- `encode_address_value`: type of address, then the semi-octets. -/
def encodeAddressValue (address : Str) : Except SmsEncodingError Bytes := do
  let normalized ← normalizedAddressDigits address
  .ok ((if normalized.international then 0x91 else 0x81) :: encodeSemiOctets normalized.digits)

theorem length_encodeAddressValue {value : Bytes}
    {normalized : NormalizedAddressDigits} (hn : normalizedAddressDigits address = .ok normalized)
    (h : encodeAddressValue address = .ok value) :
    value.length = 1 + divCeil normalized.digits.length 2 := by
  rw [encodeAddressValue, hn] at h
  obtain rfl := Except.ok.inj h
  rw [length_cons, length_encodeSemiOctets, Nat.add_comm]

/-- `address_value_octets`. -/
def addressValueOctets (addressLengthSemiOctets : ℕ) : ℕ := divCeil addressLengthSemiOctets 2

end SimMaster
