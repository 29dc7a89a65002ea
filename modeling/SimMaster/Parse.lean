import SimMaster.Text

/-!
# Rust's parsing primitives

Searching, splitting, integer parsing and UTF-8 decoding as the standard library does them, over the
lists of `Text.lean`. The searches come with the facts about growing inputs that a reader of a byte
stream needs: the first occurrence of a pattern stays where it is when more input arrives.
-/

namespace Rust

open List Option

/-! ## Searching -/

section Searching

variable {α : Type*} [DecidableEq α]

/-- `windows(pat.len()).position(|w| w == pat)` for a nonempty pattern. -/
def findSub (pat : List α) : List α → Option ℕ
  | [] => none
  | b :: bs => if pat <+: b :: bs then some 0 else (findSub pat bs).map (· + 1)

variable {pat xs : List α} {i : ℕ}

theorem findSub_le (h : findSub pat xs = some i) : i + pat.length ≤ xs.length := by
  induction xs generalizing i with
  | nil => cases h
  | cons b bs ih =>
    rw [findSub] at h
    split at h
    next hp =>
      obtain rfl := some.inj h
      have := hp.length_le
      omega
    next =>
      obtain ⟨j, hj, rfl⟩ := map_eq_some_iff.1 h
      have := ih hj
      rw [length_cons]
      omega

/-- An occurrence found stays the first one when the input grows. -/
theorem findSub_append (h : findSub pat xs = some i)
    (ys : List α) : findSub pat (xs ++ ys) = some i := by
  induction xs generalizing i with
  | nil => cases h
  | cons b bs ih =>
    rw [findSub] at h
    rw [cons_append, findSub]
    split at h
    next hp =>
      rw [if_pos (hp.trans (by rw [← cons_append]; exact prefix_append _ _))]
      exact h
    next hp =>
      obtain ⟨j, hj, rfl⟩ := map_eq_some_iff.1 h
      have hlen := findSub_le hj
      rw [ih hj, if_neg]
      · rfl
      · -- the pattern fits into the old input, so it would have been found there
        intro hp'
        rw [← cons_append] at hp'
        exact hp (prefix_of_prefix_length_le hp' (prefix_append _ _) (by simp; omega))

theorem findSub_eq_none_iff (hpat : pat ≠ []) (xs : List α) :
    findSub pat xs = none ↔ ¬ pat <:+: xs := by
  induction xs with
  | nil => simp [findSub, hpat]
  | cons b bs ih =>
    rw [findSub, infix_cons_iff, not_or]
    split
    next hp => simp [hp]
    next hp => rw [map_eq_none_iff, ih]; exact ⟨fun h => ⟨hp, h⟩, fun h => h.2⟩

theorem prefix_drop_of_findSub (h : findSub pat xs = some i) : pat <+: xs.drop i := by
  induction xs generalizing i with
  | nil => cases h
  | cons b bs ih =>
    rw [findSub] at h
    split at h
    next hp =>
      obtain rfl := some.inj h
      exact hp
    next =>
      obtain ⟨j, hj, rfl⟩ := map_eq_some_iff.1 h
      exact ih hj

/-- A pattern that first occurs in the grown input ends in the part that was added. -/
theorem lt_of_findSub_append {ys : List α} (hpat : pat ≠ [])
    (hnone : findSub pat xs = none) (h : findSub pat (xs ++ ys) = some i) :
    xs.length < i + pat.length := by
  by_contra hle
  have hp := prefix_drop_of_findSub h
  rw [drop_append_of_le_length (by omega)] at hp
  have hp' : pat <+: xs.drop i :=
    prefix_of_prefix_length_le hp (prefix_append _ _) (by rw [length_drop]; omega)
  exact (findSub_eq_none_iff hpat xs).1 hnone (hp'.isInfix.trans (drop_suffix i xs).isInfix)

end Searching

/-! ## Splitting -/

/-- `str::split_once` at a character. -/
def splitOnce (sep : Char) : Str → Option (Str × Str)
  | [] => none
  | c :: rest =>
    if c = sep then some ([], rest) else (splitOnce sep rest).map fun (a, b) => (c :: a, b)

/-- `str::split_inclusive` at a character: each piece keeps the separator that ends it. -/
def splitInclusive (sep : Char) : Str → List Str
  | [] => []
  | c :: rest =>
    if c = sep then [c] :: splitInclusive sep rest
    else match splitInclusive sep rest with
      | [] => [[c]]
      | piece :: pieces => (c :: piece) :: pieces

/-- `str::lines`: pieces ended by a line feed, without it and a carriage return before it. -/
def lines (s : Str) : List Str :=
  (splitInclusive '\n' s).map fun line =>
    if line.getLast? = some '\n' then
      let line := line.dropLast
      if line.getLast? = some '\r' then line.dropLast else line
    else line

/-- `str::rsplit_once` at a character. -/
def rsplitOnce (sep : Char) (s : Str) : Option (Str × Str) :=
  (splitOnce sep s.reverse).map fun (a, b) => (b.reverse, a.reverse)

/-- `str::split` at the characters of a class; there is always a first piece. -/
def splitBy (p : Char → Bool) : Str → List Str
  | [] => [[]]
  | c :: rest =>
    if p c then [] :: splitBy p rest
    else match splitBy p rest with
      | [] => [[c]]
      | piece :: pieces => (c :: piece) :: pieces

/-- `str::split("\r\n")`. -/
def splitCrlf : Str → List Str
  | [] => [[]]
  | '\r' :: '\n' :: rest => [] :: splitCrlf rest
  | c :: rest =>
    match splitCrlf rest with
    | [] => [[c]]
    | piece :: pieces => (c :: piece) :: pieces

/-- `str::split_ascii_whitespace`. -/
def splitAsciiWhitespace (s : Str) : List Str :=
  (splitBy (fun c => c = ' ' || c = '\t' || c = '\n' || c = '\r' || c.toNat = 0x0c) s).filter
    fun piece => !piece.isEmpty

/-- `str::len`: the number of octets in UTF-8. -/
def utf8Len (s : Str) : ℕ := (s.map fun c => c.utf8Size).sum

/-- `str::to_ascii_lowercase`. -/
def toAsciiLowercase (s : Str) : Str := s.map Char.toLower

/-- `str::eq_ignore_ascii_case`. -/
def eqIgnoreAsciiCase (a b : Str) : Bool := toAsciiLowercase a == toAsciiLowercase b

/-! ## Character classes -/

/-- `char::is_ascii_alphabetic`. -/
def isAsciiAlphabetic (c : Char) : Bool := ('a' ≤ c && c ≤ 'z') || ('A' ≤ c && c ≤ 'Z')

/-- `char::is_ascii_alphanumeric`. -/
def isAsciiAlphanumeric (c : Char) : Bool := isAsciiAlphabetic c || ('0' ≤ c && c ≤ '9')

/-- `char::is_ascii_hexdigit`. -/
def isAsciiHexdigit (c : Char) : Bool :=
  ('0' ≤ c && c ≤ '9') || ('a' ≤ c && c ≤ 'f') || ('A' ≤ c && c ≤ 'F')

/-- `char::is_control`: the category Cc. -/
def isControl (c : Char) : Bool := c.toNat < 32 || (127 ≤ c.toNat && c.toNat < 160)

/-- `char::is_ascii`. -/
def isAscii (c : Char) : Bool := c.toNat < 128

/-! ## Integers -/

/-- `char::is_ascii_digit`. -/
def isAsciiDigit (c : Char) : Bool := '0' ≤ c && c ≤ '9'

/-- The value of a string of decimal digits. -/
def digitsValue (digits : Str) : ℕ := digits.foldl (fun n c => 10 * n + (c.toNat - '0'.toNat)) 0

/-- The plus sign that `str::parse` allows before the digits. -/
def stripPlus : Str → Str
  | '+' :: rest => rest
  | s => s

/-- `str::parse` for an unsigned type with the largest value `max`: digits after an optional plus
sign, refused on overflow. -/
def parseUnsigned (max : ℕ) (s : Str) : Option ℕ :=
  let digits := stripPlus s
  if digits ≠ [] ∧ digits.all isAsciiDigit ∧ digitsValue digits ≤ max then some (digitsValue digits)
  else none

/-- `usize::MAX` of the 64-bit targets. -/
def usizeMax : ℕ := 2 ^ 64 - 1

/-- `u32::MAX`. -/
def u32Max : ℕ := 2 ^ 32 - 1

theorem parseUnsigned_le {max : ℕ} {s : Str} {n : ℕ} (h : parseUnsigned max s = some n) :
    n ≤ max := by
  simp only [parseUnsigned] at h
  split at h
  next hs =>
    obtain rfl := some.inj h
    exact hs.2.2
  next => cases h

/-! ## UTF-8 -/

/-- `0x80..=0xBF`. -/
def isContinuation (b : UInt8) : Bool := 0x80 ≤ b && b ≤ 0xbf

/-- The second octets that may follow a lead octet of three or four octets: no overlong forms, no
surrogates, nothing past U+10FFFF. -/
def isSecond (lead second : UInt8) : Bool :=
  if lead = 0xe0 then 0xa0 ≤ second && second ≤ 0xbf
  else if lead = 0xed then 0x80 ≤ second && second ≤ 0x9f
  else if lead = 0xf0 then 0x90 ≤ second && second ≤ 0xbf
  else if lead = 0xf4 then 0x80 ≤ second && second ≤ 0x8f
  else isContinuation second

/-- The low six bits of a continuation octet. -/
def continuationBits (b : UInt8) : ℕ := b.toNat % 64

/-- One step of the decoder at the lead octet `b` with `tail` after it: the character, or `none` for
an invalid sequence, and how many octets of `tail` belong to it. An invalid sequence takes the
longest start of a valid one. -/
def utf8Step (b : UInt8) (tail : Bytes) : Option Char × ℕ :=
  if b < 0x80 then (some (Char.ofNat b.toNat), 0)
  else if 0xc2 ≤ b ∧ b ≤ 0xdf then
    match tail with
    | b1 :: _ =>
      if isContinuation b1 then
        (some (Char.ofNat (b.toNat % 32 * 64 + continuationBits b1)), 1)
      else (none, 0)
    | [] => (none, 0)
  else if 0xe0 ≤ b ∧ b ≤ 0xef then
    match tail with
    | b1 :: tail' =>
      if isSecond b b1 then
        match tail' with
        | b2 :: _ =>
          if isContinuation b2 then
            (some (Char.ofNat ((b.toNat % 16 * 64 + continuationBits b1) * 64 +
              continuationBits b2)), 2)
          else (none, 1)
        | [] => (none, 1)
      else (none, 0)
    | [] => (none, 0)
  else if 0xf0 ≤ b ∧ b ≤ 0xf4 then
    match tail with
    | b1 :: tail' =>
      if isSecond b b1 then
        match tail' with
        | b2 :: tail'' =>
          if isContinuation b2 then
            match tail'' with
            | b3 :: _ =>
              if isContinuation b3 then
                (some (Char.ofNat (((b.toNat % 8 * 64 + continuationBits b1) * 64 +
                  continuationBits b2) * 64 + continuationBits b3)), 3)
              else (none, 2)
            | [] => (none, 2)
          else (none, 1)
        | [] => (none, 1)
      else (none, 0)
    | [] => (none, 0)
  else (none, 0)

/-- The characters and invalid sequences of `data`, in order. -/
def utf8Chars (data : Bytes) : List (Option Char) :=
  go data.length data
where
  go : ℕ → Bytes → List (Option Char)
    | 0, _ | _, [] => []
    | fuel + 1, b :: tail =>
      let (c, used) := utf8Step b tail
      c :: go fuel (tail.drop used)

/-- `str::from_utf8`. -/
def fromUtf8 (data : Bytes) : Option Str := (utf8Chars data).mapM id

/-- `String::from_utf8_lossy`: one replacement character for each invalid sequence. -/
def fromUtf8Lossy (data : Bytes) : Str := (utf8Chars data).map (·.getD (Char.ofNat 0xfffd))

/-- The octets of one character. -/
def utf8Octets (c : Char) : Bytes :=
  let n := c.toNat
  if n < 0x80 then [UInt8.ofNat n]
  else if n < 0x800 then [UInt8.ofNat (0xc0 + n / 64), UInt8.ofNat (0x80 + n % 64)]
  else if n < 0x10000 then
    [UInt8.ofNat (0xe0 + n / 4096), UInt8.ofNat (0x80 + n / 64 % 64), UInt8.ofNat (0x80 + n % 64)]
  else
    [UInt8.ofNat (0xf0 + n / 262144), UInt8.ofNat (0x80 + n / 4096 % 64),
      UInt8.ofNat (0x80 + n / 64 % 64), UInt8.ofNat (0x80 + n % 64)]

/-- `str::as_bytes`. -/
def asBytes (s : Str) : Bytes := s.flatMap utf8Octets

example : fromUtf8Lossy [0x41, 0xe2, 0x82, 0xac, 0xff, 0xf0, 0x9f, 0x41] =
    ['A', '€', Char.ofNat 0xfffd, Char.ofNat 0xfffd, 'A'] := by
  decide

end Rust
