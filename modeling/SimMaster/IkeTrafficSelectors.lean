import SimMaster.IkeCodec
import SimMaster.IpAddr

/-!
# Traffic selectors

The traffic selector payload as it is built for a request, and the summary of the one that comes
back. The length of a selector counts its own eight octets where it is written, and does not where
it is read: the reader looks for eight octets more than there are. `summaryAgrees_iff` says what
becomes of that: only a payload without selectors is read as it was written.

The reader takes octets and ranges that may not be there. `none` stands for such a read, and
`summarizeTrafficSelectors_isSome` says that there is none.
-/

namespace SimMaster

open Rust
open List hiding Vector

/-- `TS_IPV4_ADDR_RANGE`. -/
def tsIpv4AddrRange : UInt8 := 7

/-- `TS_IPV6_ADDR_RANGE`. -/
def tsIpv6AddrRange : UInt8 := 8

/-! ## Building -/

/-- `push_ipv4_selector`. -/
def pushIpv4Selector (body : Bytes) : Bytes :=
  body ++ [tsIpv4AddrRange] ++ [0] ++ be 2 16 ++ be 2 0 ++ be 2 0xffff ++ [0, 0, 0, 0] ++
    [255, 255, 255, 255]

/-- `push_ipv6_selector`. -/
def pushIpv6Selector (body : Bytes) : Bytes :=
  body ++ [tsIpv6AddrRange] ++ [0] ++ be 2 40 ++ be 2 0 ++ be 2 0xffff ++ replicate 16 0 ++
    replicate 16 0xff

/-- `requests_ipv4`. -/
def requestsIpv4 (ipStack : String) : Bool :=
  ipStack == "ipv4" || ipStack == "ipv4v6" || ipStack == "dual" || ipStack == "dual_stack"

/-- `requests_ipv6`. -/
def requestsIpv6 (ipStack : String) : Bool :=
  ipStack == "ipv6" || ipStack == "ipv4v6" || ipStack == "dual" || ipStack == "dual_stack"

/-- `u8::saturating_add` of one. -/
def countSelector (count : UInt8) : UInt8 := if count = 255 then 255 else count + 1

/-- `build_traffic_selector_payload`. -/
def buildTrafficSelectorPayload (payloadType : IkePayloadType) (ipStack : String) : IkePayload :=
  let (selectors, selectorCount) := (([], 0) : Bytes × UInt8)
  let (selectors, selectorCount) := if requestsIpv4 ipStack then
    (pushIpv4Selector selectors, countSelector selectorCount) else (selectors, selectorCount)
  let (selectors, selectorCount) := if requestsIpv6 ipStack then
    (pushIpv6Selector selectors, countSelector selectorCount) else (selectors, selectorCount)
  let (selectors, selectorCount) := if selectors.isEmpty then
    (pushIpv4Selector selectors, 1) else (selectors, selectorCount)
  { payloadType, critical := false, body := [selectorCount] ++ [0, 0, 0] ++ selectors }

/-! ## Reading -/

/-- `type=`. -/
def typeLabel : Str := "type=".toList

/-- ` proto=`. -/
def protoLabel : Str := " proto=".toList

/-- ` ports=`. -/
def portsLabel : Str := " ports=".toList

/-- ` addrs=`. -/
def addrsLabel : Str := " addrs=".toList

/-- ` bytes`. -/
def bytesLabel : Str := " bytes".toList

/-- `format_address`. -/
def formatAddress (bytes : Bytes) (tsType : UInt8) : Option Str :=
  if tsType = 7 ∧ 4 ≤ bytes.length then do
    let a : UInt8 ← bytes[0]?
    let b : UInt8 ← bytes[1]?
    let c : UInt8 ← bytes[2]?
    let d : UInt8 ← bytes[3]?
    return decimal a.toNat ++ ['.'] ++ decimal b.toNat ++ ['.'] ++ decimal c.toNat ++ ['.'] ++
      decimal d.toNat
  else if tsType = 8 ∧ 16 ≤ bytes.length then do
    let octets ← getRange bytes 0 16
    return ['['] ++ [':'].intercalate (octets.map fun byte => hexLower [byte]) ++ [']']
  else some (decimal bytes.length ++ bytesLabel)

/-- The text of one selector. -/
def selectorText (tsType protocol : UInt8) (startPort endPort : ℕ) (start finish : Str) : Str :=
  typeLabel ++ decimal tsType.toNat ++ protoLabel ++ decimal protocol.toNat ++ portsLabel ++
    decimal startPort ++ ['-'] ++ decimal endPort ++ addrsLabel ++ start ++ ['-'] ++ finish

/-- The loop of `summarize_traffic_selectors`. -/
def summarizeSelectors : ℕ → Bytes → Option (List Str)
  | 0, _ => some []
  | count + 1, input =>
    if input.length < 8 then some []
    else do
      let tsType ← input[0]?
      let protocol ← input[1]?
      let length := fromBe [← input[2]?, ← input[3]?]
      let startPort := fromBe [← input[4]?, ← input[5]?]
      let endPort := fromBe [← input[6]?, ← input[7]?]
      if length < 4 ∨ input.length < 8 + length then
        return []
      let addressBytes ← getRange input 8 (8 + (length - 4))
      let half := addressBytes.length / 2
      let start ← formatAddress (← getRange addressBytes 0 half) tsType
      let finish ← formatAddress (← getFrom addressBytes (addressBytes.length / 2)) tsType
      let selectors ← summarizeSelectors count (← getFrom input (8 + length))
      return selectorText tsType protocol startPort endPort start finish :: selectors

/-- `summarize_traffic_selectors`. -/
def summarizeTrafficSelectors (body : Bytes) : Option (Option (List Str)) :=
  if body.length < 4 then some none
  else do
    let count : UInt8 ← body[0]?
    let selectors ← summarizeSelectors count.toNat (← getFrom body 4)
    return some selectors

/-! ## Lists of selectors -/

/-- The two kinds of ranges. -/
inductive SelectorFamily where
  | ipv4
  | ipv6
  deriving DecidableEq

/-- The type of a selector. -/
def SelectorFamily.tsType : SelectorFamily → UInt8
  | .ipv4 => tsIpv4AddrRange
  | .ipv6 => tsIpv6AddrRange

/-- The octets of an address. -/
def SelectorFamily.addressLen : SelectorFamily → ℕ
  | .ipv4 => 4
  | .ipv6 => 16

/-- The text of an address. -/
def SelectorFamily.addressText : SelectorFamily → Bytes → Str
  | .ipv4, octets => ['.'].intercalate (octets.map fun byte => decimal byte.toNat)
  | .ipv6, octets => ['['] ++ [':'].intercalate (octets.map fun byte => hexLower [byte]) ++ [']']

/-- A range of addresses and ports. -/
structure TrafficSelector where
  family : SelectorFamily
  protocol : UInt8
  startPort : UInt16
  endPort : UInt16
  start : Vector UInt8 family.addressLen
  finish : Vector UInt8 family.addressLen

namespace TrafficSelector

/-- The octets of a selector, in the layout of the builder. -/
def octets (selector : TrafficSelector) : Bytes :=
  [selector.family.tsType, selector.protocol] ++ be 2 (8 + 2 * selector.family.addressLen) ++
    be 2 selector.startPort.toNat ++ be 2 selector.endPort.toNat ++ selector.start.toList ++
    selector.finish.toList

/-- The line of the summary for a selector. -/
def text (selector : TrafficSelector) : Str :=
  selectorText selector.family.tsType selector.protocol selector.startPort.toNat
    selector.endPort.toNat (selector.family.addressText selector.start.toList)
    (selector.family.addressText selector.finish.toList)

/-- All addresses and ports of a family. -/
def any (family : SelectorFamily) : TrafficSelector where
  family
  protocol := 0
  startPort := 0
  endPort := 0xffff
  start := Vector.replicate _ 0
  finish := Vector.replicate _ 0xff

end TrafficSelector

/-- The body of a payload with these selectors, in the layout of the builder. -/
def trafficSelectorBody (selectors : List TrafficSelector) : Bytes :=
  (selectors.foldl (fun count _ => countSelector count) 0) :: [0, 0, 0] ++
    selectors.flatMap TrafficSelector.octets

/-- The selectors the builder puts into a payload. -/
def requestedSelectors (ipStack : String) : List TrafficSelector :=
  let requested := (if requestsIpv4 ipStack then [TrafficSelector.any .ipv4] else []) ++
    (if requestsIpv6 ipStack then [TrafficSelector.any .ipv6] else [])
  if requested.isEmpty then [TrafficSelector.any .ipv4] else requested

theorem requestedSelectors_ne_nil (ipStack : String) : requestedSelectors ipStack ≠ [] := by
  rw [requestedSelectors]
  cases requestsIpv4 ipStack <;> cases requestsIpv6 ipStack <;> exact cons_ne_nil _ _

/-- What the builder builds is the body of a list of selectors. -/
theorem buildTrafficSelectorPayload_body (payloadType : IkePayloadType) (ipStack : String) :
    (buildTrafficSelectorPayload payloadType ipStack).body =
      trafficSelectorBody (requestedSelectors ipStack) := by
  rw [buildTrafficSelectorPayload, requestedSelectors]
  cases requestsIpv4 ipStack <;> cases requestsIpv6 ipStack <;> rfl

theorem TrafficSelector.length_octets (selector : TrafficSelector) :
    selector.octets.length = 8 + 2 * selector.family.addressLen := by
  simp only [octets, length_append, length_cons, length_nil, length_be,
    Vector.length_toList]
  omega

/-! ## What the reader reads -/

/-- An address of the right length is written as such. -/
theorem formatAddress_of_length {family : SelectorFamily} {bytes : Bytes}
    (h : bytes.length = family.addressLen) :
    formatAddress bytes family.tsType = some (family.addressText bytes) := by
  cases family with
  | ipv4 =>
    obtain ⟨a, b, c, d, rfl⟩ : ∃ a b c d, bytes = [a, b, c, d] := length_eq_four.mp h
    simp [formatAddress, SelectorFamily.tsType, tsIpv4AddrRange, SelectorFamily.addressText,
      List.intercalate]
  | ipv6 =>
    have hlen : bytes.length = 16 := h
    rw [formatAddress, if_neg (fun hboth => absurd hboth.1 (by decide)), if_pos ⟨rfl, hlen.ge⟩,
      getRange, if_pos ⟨Nat.zero_le _, hlen.ge⟩]
    rw [drop_zero, Nat.sub_zero, ← hlen, take_length]
    rfl

/-- Whatever is too short for an address is only counted. -/
theorem formatAddress_cases (bytes : Bytes) (tsType : UInt8) :
    ∃ text, formatAddress bytes tsType = some text ∧
      ((tsType = 7 ∧ 4 ≤ bytes.length) ∨ (tsType = 8 ∧ 16 ≤ bytes.length) ∨
        text = decimal bytes.length ++ bytesLabel) := by
  rw [formatAddress]
  split
  · next h =>
    have h0 : bytes[0]? = some bytes[0] := List.getElem?_eq_getElem (by omega)
    have h1 : bytes[1]? = some bytes[1] := List.getElem?_eq_getElem (by omega)
    have h2 : bytes[2]? = some bytes[2] := List.getElem?_eq_getElem (by omega)
    have h3 : bytes[3]? = some bytes[3] := List.getElem?_eq_getElem (by omega)
    rw [h0, h1, h2, h3]
    exact ⟨_, rfl, .inl h⟩
  · split
    · next h =>
      rw [getRange, if_pos ⟨Nat.zero_le _, h.2⟩]
      exact ⟨_, rfl, .inr (.inl h)⟩
    · exact ⟨_, rfl, .inr (.inr rfl)⟩

/-- A line of the summary for a selector whose two addresses are the octets given. -/
def LineOf (addressBytes : Bytes) (line : Str) : Prop :=
  ∃ tsType protocol startPort endPort start finish,
    formatAddress (addressBytes.take (addressBytes.length / 2)) tsType = some start ∧
    formatAddress (addressBytes.drop (addressBytes.length / 2)) tsType = some finish ∧
    line = selectorText tsType protocol startPort endPort start finish

variable {count : ℕ} {input : Bytes}

/-- One selector, where there is one to read: the eight octets in front do not count as part of its
length. -/
theorem summarizeSelectors_step (hlen : 8 ≤ input.length) :
    summarizeSelectors (count + 1) input = some [] ∨
    ∃ (addressBytes : Bytes) (line : Str), LineOf addressBytes line ∧
      12 + addressBytes.length ≤ input.length ∧ summarizeSelectors (count + 1) input =
        (summarizeSelectors count (input.drop (12 + addressBytes.length))).map (line :: ·) := by
  have hget : ∀ i < 8, input[i]? = some (input.getD i 0) := by
    intro i hi
    rw [getD_eq_getElem?_getD, List.getElem?_eq_getElem (by omega), Option.getD_some]
  rw [summarizeSelectors, if_neg (not_lt.mpr hlen), hget 0 (by omega), hget 1 (by omega),
    hget 2 (by omega), hget 3 (by omega), hget 4 (by omega), hget 5 (by omega), hget 6 (by omega),
    hget 7 (by omega)]
  simp only [Option.bind_eq_bind, Option.bind_some]
  generalize fromBe [input.getD 2 0, input.getD 3 0] = length
  by_cases hshort : length < 4 ∨ input.length < 8 + length
  · left
    exact if_pos hshort
  · right
    obtain ⟨hmin, hfits⟩ : 4 ≤ length ∧ 8 + length ≤ input.length := by omega
    have haddresses :
        getRange input 8 (8 + (length - 4)) = some (slice input 8 (8 + (length - 4))) :=
      if_pos ⟨by omega, by omega⟩
    have hlength : (slice input 8 (8 + (length - 4))).length = length - 4 := by
      rw [length_slice (by omega)]
      omega
    obtain ⟨addressBytes, haddressBytes⟩ :
        ∃ addressBytes, addressBytes = slice input 8 (8 + (length - 4)) := ⟨_, rfl⟩
    rw [← haddressBytes] at haddresses hlength
    obtain ⟨start, hstart, -⟩ := formatAddress_cases
      (addressBytes.take (addressBytes.length / 2)) (input.getD 0 0)
    obtain ⟨finish, hfinish, -⟩ := formatAddress_cases
      (addressBytes.drop (addressBytes.length / 2)) (input.getD 0 0)
    have hfirst : getRange addressBytes 0 (addressBytes.length / 2) =
        some (addressBytes.take (addressBytes.length / 2)) := if_pos ⟨Nat.zero_le _, by omega⟩
    have hsecond : getFrom addressBytes (addressBytes.length / 2) =
        some (addressBytes.drop (addressBytes.length / 2)) := if_pos (by omega)
    have hrest : getFrom input (8 + length) = some (input.drop (12 + addressBytes.length)) := by
      rw [getFrom, if_pos hfits, hlength, show 12 + (length - 4) = 8 + length by omega]
    refine ⟨addressBytes, _, ⟨input.getD 0 0, input.getD 1 0,
      fromBe [input.getD 4 0, input.getD 5 0], fromBe [input.getD 6 0, input.getD 7 0],
      start, finish, hstart, hfinish, rfl⟩, by omega, ?_⟩
    refine (if_neg hshort).trans ?_
    simp only [haddresses, hfirst, hsecond, hstart, hfinish, hrest, Option.bind_some]
    cases summarizeSelectors count (input.drop (12 + addressBytes.length)) with
    | none => rfl
    | some selectors => rfl

/-- **The reader stays within its input.** -/
theorem summarizeSelectors_isSome (count : ℕ) (input : Bytes) :
    (summarizeSelectors count input).isSome = true := by
  induction count generalizing input with
  | zero => rfl
  | succ count ih =>
    by_cases hlen : input.length < 8
    · rw [summarizeSelectors, if_pos hlen]
      rfl
    · rcases summarizeSelectors_step (not_lt.mp hlen) with h | ⟨addressBytes, line, -, -, h⟩
      · rw [h]
        rfl
      · rw [h, Option.isSome_map]
        exact ih _

theorem summarizeTrafficSelectors_isSome (body : Bytes) :
    (summarizeTrafficSelectors body).isSome = true := by
  by_cases hlen : body.length < 4
  · rw [summarizeTrafficSelectors, if_pos hlen]
    rfl
  · obtain ⟨count, hcount⟩ : ∃ count, body[0]? = some count :=
      ⟨_, List.getElem?_eq_getElem (by omega)⟩
    have hselectors : getFrom body 4 = some (body.drop 4) := if_pos (not_lt.mp hlen)
    obtain ⟨selectors, hread⟩ := Option.isSome_iff_exists.mp
      (summarizeSelectors_isSome count.toNat (body.drop 4))
    rw [summarizeTrafficSelectors, if_neg hlen, hcount, hselectors]
    simp only [Option.bind_eq_bind, Option.bind_some, hread]
    rfl

/-! ## Lines of the summary -/

variable {n : ℕ}

theorem decimal_inj {m : ℕ} (h : decimal m = decimal n) : m = n := by
  have hvalue := congrArg (fun digits => Nat.ofDigitChars 10 digits 0) h
  simpa [decimal] using hvalue

theorem count_decimal (n : ℕ) : (decimal n).count 'y' = 0 :=
  count_eq_zero.mpr fun h => absurd (isDigit_of_mem_decimal h) (by decide)

theorem count_hexLower (bytes : Bytes) : (hexLower bytes).count 'y' = 0 := by
  have hdigit : ∀ n < 16, Nat.digitChar n ≠ 'y' := by decide
  refine count_eq_zero.mpr fun h => ?_
  obtain ⟨b, -, h⟩ := mem_flatMap.mp h
  have hlt := b.toNat_lt
  rcases mem_cons.mp h with h | h
  · exact hdigit _ (by omega) h.symm
  · exact hdigit _ (by omega) (mem_singleton.mp h).symm

theorem count_intercalate {sep : Char} (hsep : sep ≠ 'y') {f : UInt8 → Str}
    (hf : ∀ b, (f b).count 'y' = 0) (octets : Bytes) :
    ([sep].intercalate (octets.map f)).count 'y' = 0 := by
  induction octets with
  | nil => rfl
  | cons b octets ih =>
    cases octets with
    | nil => rw [map_singleton, intercalate_singleton, hf]
    | cons b' octets =>
      rw [map_cons, map_cons, intercalate_cons_cons, count_append,
        count_append, hf, ← map_cons, ih, count_singleton, beq_eq_false_iff_ne.mpr hsep]
      rfl

theorem count_addressText (family : SelectorFamily) (octets : Bytes) :
    (family.addressText octets).count 'y' = 0 := by
  cases family with
  | ipv4 =>
    exact count_intercalate (show '.' ≠ 'y' by decide) (fun b => count_decimal b.toNat) octets
  | ipv6 =>
    have hgroups := count_intercalate (show ':' ≠ 'y' by decide) (fun b =>
      count_hexLower [b]) octets
    rw [SelectorFamily.addressText, count_append, count_append, hgroups]
    decide

/-- The type stands in front of the first blank. -/
theorem takeWhile_selectorText (tsType protocol : UInt8) (startPort endPort : ℕ)
    (start finish : Str) :
    ((selectorText tsType protocol startPort endPort start finish).drop 5).takeWhile (· ≠ ' ') =
      decimal tsType.toNat := by
  have htype : typeLabel = ['t', 'y', 'p', 'e', '='] := by decide +kernel
  have hproto : protoLabel = [' ', 'p', 'r', 'o', 't', 'o', '='] := by decide +kernel
  have hdigits : ∀ c ∈ decimal tsType.toNat, (c ≠ ' ') = true := by
    intro c hc
    have hdigit := isDigit_of_mem_decimal hc
    simp only [ne_eq, eq_iff_iff, iff_true]
    rintro rfl
    exact absurd hdigit (by decide)
  rw [selectorText, htype, hproto]
  simp only [append_assoc, cons_append, nil_append, drop_succ_cons,
    drop_zero]
  rw [takeWhile_append_of_pos (by simpa using hdigits), takeWhile_cons_of_neg (by simp),
    append_nil]

/-- A line has one `y`, and one more for each address that was only counted. -/
theorem count_selectorText (tsType protocol : UInt8) (startPort endPort : ℕ) (start finish : Str) :
    (selectorText tsType protocol startPort endPort start finish).count 'y' =
      1 + start.count 'y' + finish.count 'y' := by
  simp only [selectorText, count_append, count_decimal]
  have htype : typeLabel.count 'y' = 1 := by decide +kernel
  have hproto : protoLabel.count 'y' = 0 := by decide +kernel
  have hports : portsLabel.count 'y' = 0 := by decide +kernel
  have haddrs : addrsLabel.count 'y' = 0 := by decide +kernel
  have hdash : ['-'].count 'y' = 0 := by decide
  omega

/-- A line that counts no address was read of two addresses. -/
theorem LineOf.fits {addressBytes : Bytes} {selector : TrafficSelector}
    (h : LineOf addressBytes selector.text) :
    2 * selector.family.addressLen ≤ addressBytes.length := by
  obtain ⟨tsType, protocol, startPort, endPort, start, finish, hstart, hfinish, htext⟩ := h
  rw [TrafficSelector.text] at htext
  have htype : selector.family.tsType = tsType := by
    have hfront := congrArg (fun line => (line.drop 5).takeWhile (· ≠ ' ')) htext
    rw [takeWhile_selectorText, takeWhile_selectorText] at hfront
    exact UInt8.toNat_inj.mp (decimal_inj hfront)
  have hcount := congrArg (count 'y') htext
  rw [count_selectorText, count_selectorText, count_addressText, count_addressText] at hcount
  have hbytes : ∀ n, (decimal n ++ bytesLabel).count 'y' = 1 := by
    intro n
    have hword : bytesLabel.count 'y' = 1 := by decide +kernel
    rw [count_append, count_decimal, hword]
  have hfull : ∀ {bytes : Bytes} {text : Str}, formatAddress bytes tsType = some text →
      text.count 'y' = 0 → selector.family.addressLen ≤ bytes.length := by
    intro bytes text htext hzero
    obtain ⟨text', htext', hcases⟩ := formatAddress_cases bytes tsType
    obtain rfl := Option.some.inj (htext.symm.trans htext')
    rw [← htype] at hcases
    rcases hcases with ⟨hseven, hlen⟩ | ⟨height, hlen⟩ | hcounted
    · cases hfamily : selector.family with
      | ipv4 => exact hlen
      | ipv6 =>
        rw [hfamily] at hseven
        exact absurd hseven (by decide)
    · cases hfamily : selector.family with
      | ipv4 =>
        rw [hfamily] at height
        exact absurd height (by decide)
      | ipv6 => exact hlen
    · rw [hcounted, hbytes] at hzero
      exact absurd hzero (by decide)
  have hfirst := hfull hstart (by omega)
  rw [length_take] at hfirst
  omega

/-- The lines of selectors are only found in an input that is longer than the selectors. -/
theorem length_of_summarizeSelectors {selectors : List TrafficSelector}
    (h : summarizeSelectors count input = some (selectors.map TrafficSelector.text)) :
    (selectors.flatMap TrafficSelector.octets).length + 4 * selectors.length ≤ input.length := by
  induction selectors generalizing count input with
  | nil => simp
  | cons selector selectors ih =>
    cases count with
    | zero => exact nomatch h
    | succ count =>
      by_cases hlen : input.length < 8
      · rw [summarizeSelectors, if_pos hlen] at h
        exact nomatch h
      · rcases summarizeSelectors_step (not_lt.mp hlen) with hstop |
          ⟨addressBytes, line, hline, hfits, hstep⟩
        · exact nomatch hstop.symm.trans h
        · obtain ⟨lines, hlines, hcons⟩ := Option.map_eq_some_iff.mp (hstep.symm.trans h)
          obtain ⟨rfl, rfl⟩ := hcons
          have hrest := ih hlines
          have hselector := hline.fits
          rw [length_drop] at hrest
          rw [flatMap_cons, length_append, selector.length_octets, length_cons]
          omega

/-! ## Agreement -/

/-- The payload with these selectors is summarized as these selectors. -/
def SummaryAgrees (selectors : List TrafficSelector) : Prop :=
  summarizeTrafficSelectors (trafficSelectorBody selectors) =
    some (some (selectors.map TrafficSelector.text))

/-- A payload without selectors is read as it was written, and no other one is. -/
theorem summaryAgrees_iff (selectors : List TrafficSelector) :
    SummaryAgrees selectors ↔ selectors = [] := by
  constructor
  · intro h
    obtain ⟨count, hbody⟩ : ∃ count, trafficSelectorBody selectors =
        count :: 0 :: 0 :: 0 :: selectors.flatMap TrafficSelector.octets := ⟨_, rfl⟩
    have hlen : ¬(trafficSelectorBody selectors).length < 4 := by
      rw [hbody]
      simp only [length_cons]
      omega
    rw [SummaryAgrees, summarizeTrafficSelectors, if_neg hlen] at h
    obtain ⟨first, hfirst, h⟩ := Option.bind_eq_some_iff.mp h
    obtain ⟨rest, hrest, h⟩ := Option.bind_eq_some_iff.mp h
    obtain ⟨lines, hlines, h⟩ := Option.bind_eq_some_iff.mp h
    obtain rfl := Option.some.inj (Option.some.inj h)
    rw [getFrom, if_pos (not_lt.mp hlen), hbody] at hrest
    obtain rfl := Option.some.inj hrest
    have hlength := length_of_summarizeSelectors hlines
    refine eq_nil_of_length_eq_zero ?_
    simp only [drop_succ_cons, drop_zero] at hlength
    omega
  · rintro rfl
    rfl

/-- **Traffic selectors.** The summary reads back the selectors of a payload if and only if there
are none, although it would write each address as such; the builder always puts some in; and the
summary reads nothing outside of the payload. -/
theorem trafficSelectors_agree_iff (selectors : List TrafficSelector) (family : SelectorFamily)
    (address : Vector UInt8 family.addressLen) (payloadType : IkePayloadType) (ipStack : String)
    (body : Bytes) : (SummaryAgrees selectors ↔ selectors = []) ∧
    formatAddress address.toList family.tsType = some (family.addressText address.toList) ∧
    (buildTrafficSelectorPayload payloadType ipStack).body =
      trafficSelectorBody (requestedSelectors ipStack) ∧ requestedSelectors ipStack ≠ [] ∧
    (summarizeTrafficSelectors body).isSome = true := by
  refine ⟨summaryAgrees_iff selectors, ?_, ?_, requestedSelectors_ne_nil ipStack,
    summarizeTrafficSelectors_isSome body⟩
  · exact formatAddress_of_length (Vector.length_toList)
  · exact buildTrafficSelectorPayload_body payloadType ipStack

/-- The payload of a request for IPv4 is read as if it had no selector. -/
theorem ipv4_selector_unread : (buildTrafficSelectorPayload .trafficSelectorInitiator "ipv4").body =
        trafficSelectorBody [TrafficSelector.any .ipv4] ∧
      summarizeTrafficSelectors (trafficSelectorBody [TrafficSelector.any .ipv4]) = some (some []) ∧
      ¬SummaryAgrees [TrafficSelector.any .ipv4] := by
  have hread : summarizeTrafficSelectors (trafficSelectorBody [TrafficSelector.any .ipv4]) =
      some (some []) := by
    decide +kernel
  refine ⟨by decide +kernel, hread, fun h => ?_⟩
  exact nomatch Option.some.inj (Option.some.inj (hread.symm.trans h))

end SimMaster
