import SimMaster.Parse

/-!
# IP addresses as text

`Ipv6Addr::from_str` and the `Display` of `IpAddr`, which the SIP code uses to check and to write
hosts. A parser takes the input that is left and gives a value with the input after it; a parser
that fails has consumed nothing.
-/

namespace Rust

/-- `std::net::IpAddr`. -/
inductive IpAddr where
  | v4 (a b c d : UInt8)
  | v6 (groups : Vector UInt16 8)
  deriving DecidableEq

/-- `std::net::SocketAddr`. -/
inductive SocketAddr where
  | v4 (a b c d : UInt8) (port : UInt16)
  | v6 (groups : Vector UInt16 8) (port : UInt16) (flowinfo scopeId : UInt32)
  deriving DecidableEq

/-- `Ipv6Addr::to_ipv4_mapped`: the address that `::ffff:a.b.c.d` stands for. -/
def Ipv6Addr.toIpv4Mapped (groups : Vector UInt16 8) : Option (UInt8 × UInt8 × UInt8 × UInt8) :=
  if groups[0] = 0 ∧ groups[1] = 0 ∧ groups[2] = 0 ∧ groups[3] = 0 ∧ groups[4] = 0 ∧
      groups[5] = 0xffff then
    some ((groups[6] >>> 8).toUInt8, groups[6].toUInt8, (groups[7] >>> 8).toUInt8,
      groups[7].toUInt8)
  else none

/-! ## Parsing -/

/-- The value of a digit of a radix up to 16. -/
def toDigit (radix : ℕ) (c : Char) : Option ℕ :=
  let value := if '0' ≤ c && c ≤ '9' then some (c.toNat - '0'.toNat)
    else if 'a' ≤ c && c ≤ 'f' then some (c.toNat - 'a'.toNat + 10)
    else if 'A' ≤ c && c ≤ 'F' then some (c.toNat - 'A'.toNat + 10)
    else none
  value.filter (· < radix)

/-- `Parser::read_number`: at most `maxDigits` digits, a number up to `max`. -/
def readNumber (radix maxDigits max : ℕ) (allowZeroPrefix : Bool) (s : Str) : Option (ℕ × Str) :=
  let digits := s.takeWhile fun c => (toDigit radix c).isSome
  let value := digits.foldl (fun n c => radix * n + (toDigit radix c).getD 0) 0
  if digits.length = 0 ∨ maxDigits < digits.length then none
  else if !allowZeroPrefix && s.head? == some '0' && 1 < digits.length then none
  else if max < value then none
  else some (value, s.drop digits.length)

/-- `Parser::read_separator`: the separator stands before every item but the first. -/
def readSeparator {α : Type} (sep : Char) (index : ℕ) (inner : Str → Option (α × Str)) (s : Str) :
    Option (α × Str) :=
  if index = 0 then inner s
  else match s with
    | c :: rest => if c = sep then inner rest else none
    | [] => none

/-- `Parser::read_ipv4_addr`. -/
def readIpv4 (s : Str) : Option ((ℕ × ℕ × ℕ × ℕ) × Str) := do
  let octet := readNumber 10 3 255 false
  let (a, s) ← readSeparator '.' 0 octet s
  let (b, s) ← readSeparator '.' 1 octet s
  let (c, s) ← readSeparator '.' 2 octet s
  let (d, s) ← readSeparator '.' 3 octet s
  some ((a, b, c, d), s)

/-- `read_groups` from position `i` of `limit` groups: the number of groups read, whether they end
with an embedded IPv4 address, and the input after them. -/
def readGroups (limit : ℕ) : ℕ → ℕ → Str → ℕ × Bool × Str
  | 0, i, s => (i, false, s)
  | fuel + 1, i, s =>
    match if i < limit - 1 then readSeparator ':' i readIpv4 s else none with
    | some (_, rest) => (i + 2, true, rest)
    | none =>
      match readSeparator ':' i (readNumber 16 4 0xffff true) s with
      | some (_, rest) => readGroups limit fuel (i + 1) rest
      | none => (i, false, s)

/-- Whether `str::parse::<Ipv6Addr>` succeeds. -/
def isIpv6 (s : Str) : Bool :=
  match readGroups 8 8 0 s with
  | (headSize, headIpv4, rest) =>
    if headSize = 8 then rest.isEmpty
    else if headIpv4 then false
    else match rest with
      | ':' :: ':' :: rest =>
        let limit := 8 - (headSize + 1)
        let (_, _, rest) := readGroups limit limit 0 rest
        rest.isEmpty
      | _ => false

example : isIpv6 "2001:db8::1".toList ∧ isIpv6 "::ffff:192.0.2.1".toList ∧
    ¬ isIpv6 "1::2::3".toList ∧ ¬ isIpv6 "1:2:3:4:5:6:7".toList := by
  decide

/-! ## Display -/

/-- `format!("{n}")`. -/
def decimal (n : ℕ) : Str := Nat.toDigits 10 n

theorem isDigit_of_mem_decimal {n : ℕ} {c : Char} (h : c ∈ decimal n) : c.isDigit = true :=
  Nat.isDigit_of_mem_toDigits (by omega) (by omega) h

/-- The groups joined by colons. -/
def formatGroups (groups : List ℕ) : Str :=
  (groups.map hex).intersperse [':'] |>.flatten

/-- The first longest run of zero groups, as its start and length: `cur` is the run that ends
before the group at `i`, `best` the longest seen. -/
def longestZeros : ℕ → ℕ × ℕ → ℕ × ℕ → List ℕ → ℕ × ℕ
  | _, _, best, [] => best
  | i, cur, best, g :: rest =>
    if g = 0 then
      let cur := if cur.2 = 0 then (i, 1) else (cur.1, cur.2 + 1)
      longestZeros (i + 1) cur (if best.2 < cur.2 then cur else best) rest
    else longestZeros (i + 1) (0, 0) best rest

/-- `Display` of `Ipv4Addr`. -/
def formatIpv4 (a b c d : ℕ) : Str :=
  decimal a ++ ['.'] ++ decimal b ++ ['.'] ++ decimal c ++ ['.'] ++ decimal d

/-- `Display` of `Ipv6Addr`. -/
def formatIpv6 (groups : List ℕ) : Str :=
  match groups with
  | [0, 0, 0, 0, 0, 0xffff, ab, cd] =>
    "::ffff:".toList ++ formatIpv4 (ab / 256) (ab % 256) (cd / 256) (cd % 256)
  | _ =>
    let zeros := longestZeros 0 (0, 0) (0, 0) groups
    if 1 < zeros.2 then
      formatGroups (groups.take zeros.1) ++ "::".toList ++
        formatGroups (groups.drop (zeros.1 + zeros.2))
    else formatGroups groups

example : formatIpv6 [0x2001, 0xdb8, 0, 0, 1, 0, 0, 1] = "2001:db8::1:0:0:1".toList := by
  decide

end Rust
