import SimMaster.Stun

/-!
# STUN messages

A message is a header and a chain of attributes, each padded to a multiple of four octets
(`StunAttribute`). `binding_response` reads the chain with offsets into the packet; `readChain` says
what it makes of the attributes themselves, and `stunAttributes_eq_some` that the two agree and that
a packet that is not ignored is tiled by its attributes.

Every access of `binding_response` to the packet is in range: `bindingResponseChecked` is the same
function with accesses that can fail, and it never does.
-/

namespace SimMaster

open Rust
open List hiding Vector

/-! ## Checked accesses -/

/-- `xorMappedAddress` with checked accesses. -/
def xorMappedAddressChecked (id data : Bytes) : Option (Option Rust.SocketAddr) := do
  let family ← data[1]?
  let _port ← getRange data 2 4
  if family = 1 ∧ data.length = 8 then
    let _octets ← getRange data 4 8
    let _mask ← getRange (COOKIE ++ id) 0 4
    return xorMappedAddress id data
  else if family = 2 ∧ data.length = 20 then
    let _octets ← getRange data 4 20
    let _mask ← getRange (COOKIE ++ id) 0 16
    return xorMappedAddress id data
  else return none

/-- What the loop has found: the mapped address and the error code. -/
abbrev StunFound := Option Rust.SocketAddr × Option ℕ

/-- One attribute behind `before`; `last` tells whether the packet ends with it. -/
def stunAttribute (id before : Bytes) (last : Bool) (attr : ℕ) (data : Bytes) :
    StunFound → Option StunFound
  | (mapped, errorCode) =>
    if attr = 0x0020 then
      if mapped.isSome || data.length < 4 then none
      else (xorMappedAddress id data).map fun addr => (some addr, errorCode)
    else if attr = 0x8028 then
      if data.length ≠ 4 ∨ ¬last ∨ data ≠ fingerprint before then none else some (mapped, errorCode)
    else if attr = 0x0009 then
      let hundreds := data.getD 2 0
      let units := data.getD 3 0
      if data.length < 4 ∨ errorCode.isSome ∨ hundreds &&& 0xf8 ≠ 0 ∨ hundreds < 3 ∨ 6 < hundreds ∨
          99 < units then
        none
      else some (mapped, some (hundreds.toNat * 100 + units.toNat))
    else if attr = 0x0001 ∨ attr = 0x000a ∨ 0x8000 ≤ attr then some (mapped, errorCode)
    else none

/-- `stunAttribute` with checked accesses. -/
def stunAttributeChecked (id packet : Bytes) (offset : ℕ) (last : Bool) (attr : ℕ) (data : Bytes) :
    StunFound → Option (Option StunFound)
  | (mapped, errorCode) =>
    if attr = 0x0020 then
      if mapped.isSome || data.length < 4 then some none
      else (xorMappedAddressChecked id data).map fun addr => addr.map fun addr =>
        (some addr, errorCode)
    else if attr = 0x8028 then
      if data.length ≠ 4 ∨ ¬last then some none
      else (getRange packet 0 offset).map fun before =>
        if data ≠ fingerprint before then none else some (mapped, errorCode)
    else if attr = 0x0009 then
      if data.length < 4 ∨ errorCode.isSome then some none
      else
        (data[2]?).bind fun hundreds =>
        (data[3]?).map fun units =>
        if hundreds &&& 0xf8 ≠ 0 ∨ hundreds < 3 ∨ 6 < hundreds ∨ 99 < units then none
        else some (mapped, some (hundreds.toNat * 100 + units.toNat))
    else if attr = 0x0001 ∨ attr = 0x000a ∨ 0x8000 ≤ attr then some (some (mapped, errorCode))
    else some none

/-- The loop with checked accesses; `none` without fuel. -/
def stunAttributesChecked (packet id : Bytes) : ℕ → ℕ → StunFound → Option (Option StunFound)
  | 0, _, _ => none
  | fuel + 1, offset, found =>
    if packet.length ≤ offset then some (some found)
    else if packet.length < offset + 4 then some none
    else
      (getRange packet offset (offset + 2)).bind fun attr =>
      (getRange packet (offset + 2) (offset + 4)).bind fun len =>
      let len := fromBe len
      let paddedEnd := offset + 4 + (len + 3) / 4 * 4
      if packet.length < paddedEnd then some none
      else
        (getRange packet (offset + 4) (offset + 4 + len)).bind fun data =>
        (stunAttributeChecked id packet offset (paddedEnd = packet.length) (fromBe attr)
          data found).bind
          fun
            | some found => stunAttributesChecked packet id fuel paddedEnd found
            | none => some none

/-- `bindingResponse` with checked accesses; `none` is an access out of range, or no answer. -/
def bindingResponseChecked (packet id : Bytes) : Option StunResponse :=
  if packet.length < 20 then some .ignore
  else do
    let cookie ← getRange packet 4 8
    let packetId ← getRange packet 8 20
    let size ← getRange packet 2 4
    let kind ← getRange packet 0 2
    let size := fromBe size
    let kind := fromBe kind
    if cookie ≠ COOKIE ∨ packetId ≠ id then return .ignore
    else if size % 4 ≠ 0 ∨ size + 20 ≠ packet.length then return .ignore
    else if kind ≠ 0x0101 ∧ kind ≠ 0x0111 then return .ignore
    else
      match ← stunAttributesChecked packet id (packet.length + 1) 20 (none, none) with
      | none => return .ignore
      | some (mapped, errorCode) =>
        if kind = 0x0111 then return if errorCode.isSome then .error else .ignore
        else return match mapped with
          | some addr => .mapped addr
          | none => .ignore

variable {data : Bytes} {i : ℕ}

theorem getElem?_eq_getD (h : i < data.length) : data[i]? = some (data.getD i 0) := by
  rw [getD_eq_getElem?_getD, List.getElem?_eq_getElem h]
  rfl

variable {id : Bytes}

theorem xorMappedAddressChecked_eq (hid : id.length = 12) (hdata : 4 ≤ data.length) :
    xorMappedAddressChecked id data = some (xorMappedAddress id data) := by
  have hmask : (COOKIE ++ id).length = 16 := by rw [length_append, hid]; rfl
  rw [xorMappedAddressChecked, getElem?_eq_getD (by omega), getRange_eq (by omega) hdata]
  simp only [Option.bind_eq_bind, Option.bind_some]
  split_ifs with hv4 hv6
  · rw [getRange_eq (by omega) (by omega), getRange_eq (by omega) (by omega)]
    rfl
  · rw [getRange_eq (by omega) (by omega), getRange_eq (by omega) (by omega)]
    rfl
  · rw [xorMappedAddress]
    simp only [hv4, hv6, if_false]
    rfl

/-- The loop is one attribute after the other. -/
theorem stunAttributes_succ (packet id : Bytes) (fuel offset : ℕ) (found : StunFound) :
    stunAttributes packet id (fuel + 1) offset found.1 found.2 =
      if packet.length ≤ offset then some found else if packet.length < offset + 4 then none else
        let len := fromBe (slice packet (offset + 2) (offset + 4))
        let paddedEnd := offset + 4 + (len + 3) / 4 * 4
        if packet.length < paddedEnd then none
        else (stunAttribute id (packet.take offset) (paddedEnd = packet.length)
            (fromBe (slice packet offset (offset + 2)))
              (slice packet (offset + 4) (offset + 4 + len))
            found).bind fun found => stunAttributes packet id fuel paddedEnd found.1 found.2 := by
  rw [stunAttributes]
  split
  case isTrue => rfl
  case isFalse =>
    split
    case isTrue => rfl
    case isFalse =>
      dsimp only
      split
      case isTrue => rfl
      case isFalse hpadded =>
        generalize fromBe (slice packet offset (offset + 2)) = attr
        generalize hlen : fromBe (slice packet (offset + 2) (offset + 4)) = len at *
        have hdata : (slice packet (offset + 4) (offset + 4 + len)).length = len := by
          rw [length_slice (by omega)]
          omega
        generalize slice packet (offset + 4) (offset + 4 + len) = data at *
        rw [stunAttribute, hdata]
        simp only [decide_eq_true_eq]
        split_ifs
        all_goals
          first
          | rfl
          | cases xorMappedAddress id data <;> rfl

variable {packet : Bytes} {offset : ℕ}

theorem stunAttributeChecked_eq {attr : ℕ} (last : Bool)
    (hid : id.length = 12) (hoffset : offset ≤ packet.length) (found : StunFound) :
    stunAttributeChecked id packet offset last attr data found =
      some (stunAttribute id (packet.take offset) last attr data found) := by
  rw [stunAttributeChecked, stunAttribute]
  split
  case isTrue =>
    split
    case isTrue => rfl
    case isFalse hdata =>
      rw [xorMappedAddressChecked_eq hid (by simp at hdata; omega)]
      rfl
  case isFalse =>
    split
    case isTrue =>
      by_cases hplace : data.length ≠ 4 ∨ ¬last = true
      · rw [if_pos hplace, if_pos (hplace.imp_right Or.inl)]
      · have hbefore : slice packet 0 offset = packet.take offset := rfl
        obtain ⟨hlen, hlast⟩ := not_or.mp hplace
        rw [if_neg hplace, getRange_eq (Nat.zero_le _) hoffset, Option.map_some, hbefore]
        simp only [hlen, hlast, false_or]
    case isFalse =>
      split
      case isTrue =>
        split
        case isTrue hrefused =>
          rw [if_pos (hrefused.imp_right Or.inl)]
        case isFalse haccepted =>
          obtain ⟨hlen, herror⟩ := not_or.mp haccepted
          rw [getElem?_eq_getD (by omega), getElem?_eq_getD (by omega)]
          simp [hlen, herror]
      case isFalse => split <;> rfl

theorem stunAttributesChecked_eq (hid : id.length = 12) {fuel : ℕ}
    (found : StunFound) (hfuel : packet.length ≤ offset + 4 * fuel) :
    stunAttributesChecked packet id (fuel + 1) offset found =
      some (stunAttributes packet id fuel offset found.1 found.2) := by
  induction fuel generalizing offset found with
  | zero =>
    rw [stunAttributesChecked, if_pos (by omega), stunAttributes]
  | succ fuel ih =>
    rw [stunAttributesChecked, stunAttributes_succ]
    split
    case isTrue => rfl
    case isFalse =>
      split
      case isTrue => rfl
      case isFalse =>
        rw [getRange_eq (by omega) (by omega), getRange_eq (by omega) (by omega)]
        simp only [Option.bind_some]
        split
        case isTrue => rfl
        case isFalse =>
          rw [getRange_eq (by omega) (by omega), Option.bind_some,
            stunAttributeChecked_eq _ hid (by omega), Option.bind_some]
          cases stunAttribute id (packet.take offset) _ _ _ found with
          | none => rfl
          | some found => exact ih found (by omega)

/-- No access is out of range, and there is always an answer. -/
theorem bindingResponseChecked_eq (hid : id.length = 12) :
    bindingResponseChecked packet id = some (bindingResponse packet id) := by
  rw [bindingResponseChecked, bindingResponse]
  by_cases hshort : packet.length < 20
  · simp [hshort]
  · rw [if_neg hshort, getRange_eq (by omega) (by omega), getRange_eq (by omega) (by omega),
      getRange_eq (by omega) (by omega), getRange_eq (by omega) (by omega),
      stunAttributesChecked_eq hid _ (by omega)]
    simp only [Option.bind_eq_bind, Option.bind_some, hshort, false_or]
    split_ifs
    all_goals
      first
      | rfl
      | cases stunAttributes packet id packet.length 20 none none <;> rfl

/-! ## The chain -/

/-- An attribute as it stands in a message. -/
structure StunAttr where
  kind : ℕ
  value : Bytes
  padding : Bytes
  kind_lt : kind < 65536
  value_lt : value.length < 65536
  padded : value.length + padding.length = (value.length + 3) / 4 * 4

namespace StunAttr

def encode (a : StunAttr) : Bytes := be 2 a.kind ++ be 2 a.value.length ++ a.value ++ a.padding

theorem length_encode (a : StunAttr) : a.encode.length = 4 + (a.value.length + 3) / 4 * 4 := by
  have hpadded := a.padded
  rw [encode, length_append, length_append, length_append, length_be, length_be]
  omega

/-- The loop at an attribute. -/
theorem reads {rest : Bytes} {a : StunAttr} (h : packet.drop offset = a.encode ++ rest) :
    packet.length = offset + 4 + (a.value.length + 3) / 4 * 4 + rest.length ∧
      fromBe (slice packet offset (offset + 2)) = a.kind ∧
      fromBe (slice packet (offset + 2) (offset + 4)) = a.value.length ∧
      slice packet (offset + 4) (offset + 4 + a.value.length) = a.value ∧
      packet.take (offset + 4 + (a.value.length + 3) / 4 * 4) = packet.take offset ++ a.encode ∧
      packet.drop (offset + 4 + (a.value.length + 3) / 4 * 4) = rest := by
  have hlen := congrArg List.length h
  rw [length_drop, length_append, a.length_encode] at hlen
  have hcat : a.encode ++ rest =
      be 2 a.kind ++ (be 2 a.value.length ++ (a.value ++ (a.padding ++ rest))) := by
    simp [encode]
  have hdrop : ∀ n, packet.drop (offset + n) = (a.encode ++ rest).drop n := by
    intro n
    rw [← h, drop_drop]
  have hslice : ∀ i j, slice packet (offset + i) (offset + j) = slice (a.encode ++ rest) i j := by
    intro i j
    rw [slice, slice, hdrop, Nat.add_sub_add_left]
  have hkind := a.kind_lt
  have hvalue := a.value_lt
  refine ⟨by omega, ?_, ?_, ?_, ?_, ?_⟩
  · have hfirst : slice packet offset (offset + 2) = slice (a.encode ++ rest) 0 2 := hslice 0 2
    rw [hfirst, hcat, slice, drop_zero, take_left' (length_be 2 _), fromBe_be (by omega)]
  · rw [hslice 2 4, hcat, slice, drop_left' (length_be 2 _), take_left' (length_be 2 _),
      fromBe_be (by omega)]
  · rw [Nat.add_assoc, hslice 4 (4 + a.value.length), hcat, ← append_assoc, slice,
      drop_left' (by rw [length_append, length_be, length_be]), Nat.add_sub_cancel_left,
      take_left]
  · rw [Nat.add_assoc, take_add, h, take_left' a.length_encode]
  · rw [Nat.add_assoc, hdrop, drop_left' a.length_encode]

/-- The attribute that the loop reads. -/
theorem exists_encode {len : ℕ} (hlen : fromBe (slice packet (offset + 2) (offset + 4)) = len)
    (hpadded : offset + 4 + (len + 3) / 4 * 4 ≤ packet.length) :
    ∃ a : StunAttr, packet.drop offset =
      a.encode ++ packet.drop (offset + 4 + (len + 3) / 4 * 4) ∧ a.value.length = len := by
  have hheader : ∀ i, i + 2 ≤ packet.length → fromBe (slice packet i (i + 2)) < 65536 ∧
      be 2 (fromBe (slice packet i (i + 2))) = slice packet i (i + 2) := by
    intro i hi
    have hlength : (slice packet i (i + 2)).length = 2 := by
      rw [length_slice hi, Nat.add_sub_cancel_left]
    have hlt := fromBe_lt (slice packet i (i + 2))
    have hbe := be_fromBe (slice packet i (i + 2))
    rw [hlength] at hlt hbe
    exact ⟨hlt, hbe⟩
  obtain ⟨hkind, hkindBe⟩ := hheader offset (by omega)
  have hsecond : fromBe (slice packet (offset + 2) (offset + 4)) < 65536 ∧
      be 2 (fromBe (slice packet (offset + 2) (offset + 4))) =
        slice packet (offset + 2) (offset + 4) :=
    hheader (offset + 2) (by omega)
  have hvalue : (slice packet (offset + 4) (offset + 4 + len)).length = len := by
    rw [length_slice (by omega), Nat.add_sub_cancel_left]
  have hpadding : (slice packet (offset + 4 + len) (offset + 4 + (len + 3) / 4 * 4)).length =
      (len + 3) / 4 * 4 - len := by
    rw [length_slice hpadded]
    omega
  refine ⟨⟨fromBe (slice packet offset (offset + 2)), slice packet (offset + 4) (offset + 4 + len),
    slice packet (offset + 4 + len) (offset + 4 + (len + 3) / 4 * 4), hkind, by omega, by omega⟩,
    ?_, hvalue⟩
  rw [encode]
  dsimp only
  rw [hvalue, ← hlen, hkindBe, hsecond.2, hlen, append_assoc, append_assoc, append_assoc,
    slice_append_drop _ (by omega), slice_append_drop _ (by omega), slice_append_drop _ (by omega),
    slice_append_drop _ (by omega)]

end StunAttr

/-- What the loop makes of attributes behind `before`. -/
def readChain (id : Bytes) : (before : Bytes) → List StunAttr → StunFound → Option StunFound
  | _, [], found => some found
  | before, a :: rest, found =>
    (stunAttribute id before rest.isEmpty a.kind a.value found).bind
      (readChain id (before ++ a.encode) rest)

theorem isEmpty_eq {attrs : List StunAttr} {n : ℕ} (hn : n ≤ packet.length)
    (h : packet.drop n = attrs.flatMap StunAttr.encode) :
    attrs.isEmpty = decide (n = packet.length) := by
  have hlen := congrArg List.length h
  rw [length_drop] at hlen
  cases attrs with
  | nil => exact (decide_eq_true (by rw [flatMap_nil, length_nil] at hlen; omega)).symm
  | cons a attrs =>
    rw [flatMap_cons, length_append, a.length_encode] at hlen
    exact (decide_eq_false (by omega)).symm

variable {found r : StunFound}

/-- Where nothing is left. -/
theorem readChain_end (hend : packet.length ≤ offset) :
    (∃ attrs : List StunAttr, packet.drop offset = attrs.flatMap StunAttr.encode ∧
      readChain id (packet.take offset) attrs found = some r) ↔ some found = some r := by
  rw [drop_of_length_le hend]
  constructor
  · rintro ⟨attrs, hattrs, hread⟩
    cases attrs with
    | nil => exact hread
    | cons a attrs =>
      have hlen := congrArg List.length hattrs
      rw [flatMap_cons, length_append, a.length_encode, length_nil] at hlen
      omega
  · intro hfound
    exact ⟨[], rfl, hfound⟩

/-- A packet gives an answer just when it is tiled by attributes that do. -/
theorem stunAttributes_eq_some {packet id : Bytes} {fuel offset : ℕ} {found r : StunFound}
    (hoffset : offset ≤ packet.length) (hfuel : packet.length ≤ offset + 4 * fuel) :
    stunAttributes packet id fuel offset found.1 found.2 = some r ↔
      ∃ attrs : List StunAttr, packet.drop offset = attrs.flatMap StunAttr.encode ∧
        readChain id (packet.take offset) attrs found = some r := by
  induction fuel generalizing offset found with
  | zero => exact (readChain_end (by omega)).symm
  | succ fuel ih =>
    rw [stunAttributes_succ]
    split
    case isTrue hdone => exact (readChain_end hdone).symm
    case isFalse hmore =>
      constructor
      · intro h
        split at h
        case isTrue => cases h
        case isFalse =>
          dsimp only at h
          split at h
          case isTrue => cases h
          case isFalse hpadded =>
            obtain ⟨a, hdrop, hlen⟩ := StunAttr.exists_encode rfl (not_lt.mp hpadded)
            obtain ⟨-, hkind, -, hvalue, htake, -⟩ := StunAttr.reads hdrop
            obtain ⟨next, hnext, h⟩ := Option.bind_eq_some_iff.mp h
            obtain ⟨attrs, hattrs, hread⟩ := (ih (by omega) (by omega)).mp h
            refine ⟨a :: attrs, by rw [hdrop, flatMap_cons, hattrs], ?_⟩
            rw [hlen] at hvalue htake
            rw [hkind, hvalue, ← isEmpty_eq (by omega) hattrs] at hnext
            rw [readChain, hnext, Option.bind_some, ← htake]
            exact hread
      · rintro ⟨attrs, hattrs, hread⟩
        cases attrs with
        | nil =>
          have hlen := congrArg List.length hattrs
          rw [length_drop, flatMap_nil, length_nil] at hlen
          omega
        | cons a attrs =>
          obtain ⟨hlen, hkind, hsize, hvalue, htake, hrest⟩ := StunAttr.reads hattrs
          obtain ⟨next, hnext, hread⟩ := Option.bind_eq_some_iff.mp hread
          rw [if_neg (by omega)]
          rw [hsize, if_neg (by omega), hkind, hvalue, ← isEmpty_eq (by omega) hrest, hnext,
            Option.bind_some]
          exact (ih (by omega) (by omega)).mpr ⟨attrs, hrest, htake ▸ hread⟩

variable {before : Bytes} {front back : List StunAttr}

/-- What a chain that gives an answer is made of. -/
theorem readChain_sound {attrs : List StunAttr}
    (h : readChain id before attrs found = some r) {a : StunAttr}
    (hattrs : attrs = front ++ a :: back) :
    (a.kind ∈ [0x0001, 0x0009, 0x000a, 0x0020] ∨ 0x8000 ≤ a.kind) ∧
      (a.kind = 0x8028 → back = [] ∧
        a.value = fingerprint (before ++ front.flatMap StunAttr.encode)) := by
  induction front generalizing before attrs found with
  | nil =>
    subst hattrs
    obtain ⟨next, hnext, -⟩ := Option.bind_eq_some_iff.mp h
    rw [stunAttribute] at hnext
    rw [flatMap_nil, append_nil]
    by_cases h20 : a.kind = 0x0020
    · exact ⟨Or.inl (by simp [h20]), fun hkind => by omega⟩
    by_cases h28 : a.kind = 0x8028
    · rw [if_neg h20, if_pos h28] at hnext
      split at hnext
      case isTrue => cases hnext
      case isFalse hplace =>
        simp only [not_or, not_not, ne_eq] at hplace
        exact ⟨Or.inr (by omega), fun _ => ⟨isEmpty_iff.mp hplace.2.1, hplace.2.2⟩⟩
    by_cases h9 : a.kind = 0x0009
    · exact ⟨Or.inl (by simp [h9]), fun hkind => absurd hkind h28⟩
    · rw [if_neg h20, if_neg h28, if_neg h9] at hnext
      split at hnext
      case isTrue hother =>
        refine ⟨?_, fun hkind => absurd hkind h28⟩
        rcases hother with hother | hother | hother <;> simp [hother]
      case isFalse => cases hnext
  | cons b front ih =>
    subst hattrs
    obtain ⟨next, -, h⟩ := Option.bind_eq_some_iff.mp h
    have hrest := ih h rfl
    rwa [append_assoc, ← flatMap_cons] at hrest

/-- An attribute that need not be understood, other than the FINGERPRINT. -/
def StunAttr.Optional (a : StunAttr) : Prop := 0x8000 ≤ a.kind ∧ a.kind ≠ 0x8028

theorem readChain_optional {attrs rest : List StunAttr} (h : ∀ a ∈ attrs, a.Optional) :
    readChain id before (attrs ++ rest) found =
      readChain id (before ++ attrs.flatMap StunAttr.encode) rest found := by
  induction attrs generalizing before with
  | nil => rw [flatMap_nil, append_nil, nil_append]
  | cons a attrs ih =>
    obtain ⟨⟨hoptional, hother⟩, hattrs⟩ := forall_mem_cons.mp h
    rw [cons_append, readChain, stunAttribute, if_neg (by omega), if_neg hother,
      if_neg (by omega), if_pos (Or.inr (Or.inr hoptional)), Option.bind_some, ih hattrs,
      append_assoc, ← flatMap_cons]

/-! ## Addresses -/

/-- `SocketAddr::new`. -/
def socketAddr (ip : IpAddr) (port : UInt16) : Rust.SocketAddr :=
  match ip with
  | .v4 a b c d => .v4 a b c d port
  | .v6 groups => .v6 groups port 0 0

/-- The octets of an address in network order. -/
def addressOctets : IpAddr → Bytes
  | .v4 a b c d => [a, b, c, d]
  | .v6 groups => groups.toList.flatMap fun group => be 2 group.toNat

/-- The value of the XOR-MAPPED-ADDRESS of an address; the first octet has no meaning. -/
def xorMappedValue (id : Bytes) (reserved : UInt8) (ip : IpAddr) (port : UInt16) : Bytes :=
  let family := match ip with
    | .v4 .. => 1
    | .v6 _ => 2
  [reserved, family] ++ be 2 (port ^^^ 0x2112).toNat ++
    zipWith (· ^^^ ·) (addressOctets ip) (COOKIE ++ id)

theorem zipWith_xor_self {mask : Bytes} (h : data.length ≤ mask.length) :
    zipWith (· ^^^ ·) (zipWith (· ^^^ ·) data mask) mask = data := by
  induction data generalizing mask with
  | nil => rfl
  | cons byte data ih =>
    cases mask with
    | nil => exact absurd h (by simp)
    | cons m mask =>
      rw [zipWith_cons_cons, zipWith_cons_cons, ih (Nat.le_of_succ_le_succ h),
        UInt8.xor_assoc, UInt8.xor_self, UInt8.xor_zero]

theorem slice_flatMap_be {groups : List UInt16} (h : i < groups.length) :
    slice (groups.flatMap fun group => be 2 group.toNat) (2 * i) (2 * i + 2) =
      be 2 groups[i].toNat := by
  induction groups generalizing i with
  | nil => exact absurd h (Nat.not_lt_zero i)
  | cons group groups ih =>
    rw [flatMap_cons]
    cases i with
    | zero => exact take_left' (length_be 2 _)
    | succ i =>
      have hshift := slice_append_right (be 2 group.toNat)
        (groups.flatMap fun group => be 2 group.toNat) (2 * i) (2 * i + 2)
      rw [length_be] at hshift
      rw [Nat.mul_succ, Nat.add_comm (2 * i) 2, Nat.add_assoc, hshift,
        ih (Nat.lt_of_succ_lt_succ h)]
      rfl

/-- The address comes out of its attribute. -/
theorem xorMappedAddress_value (hid : id.length = 12) (reserved : UInt8) (ip : IpAddr)
    (port : UInt16) : 4 ≤ (xorMappedValue id reserved ip port).length ∧
      xorMappedAddress id (xorMappedValue id reserved ip port) = some (socketAddr ip port) := by
  have hmask : (COOKIE ++ id).length = 16 := by rw [length_append, hid]; rfl
  have hport : UInt16.ofNat (fromBe (be 2 (port ^^^ 0x2112).toNat)) ^^^ 0x2112 = port := by
    rw [fromBe_be (port ^^^ 0x2112).toNat_lt, UInt16.ofNat_toNat, UInt16.xor_assoc, UInt16.xor_self,
      UInt16.xor_zero]
  have hplain : ∀ plain : Bytes, plain.length ≤ 16 →
      zipWith (· ^^^ ·) (zipWith (· ^^^ ·) plain (COOKIE ++ id)) (COOKIE ++ id) = plain :=
    fun plain hle => zipWith_xor_self (hle.trans hmask.ge)
  have hlength : ∀ (family : UInt8) (plain : Bytes), plain.length ≤ 16 →
      ([reserved, family] ++ be 2 (port ^^^ 0x2112).toNat ++
        zipWith (· ^^^ ·) plain (COOKIE ++ id)).length = 4 + plain.length := by
    intro family plain hle
    rw [length_append, length_append, length_be, length_zipWith, hmask,
      min_eq_left hle]
    rfl
  have hslice : ∀ (family : UInt8) (xored : Bytes),
      slice ([reserved, family] ++ be 2 (port ^^^ 0x2112).toNat ++ xored) 2 4 =
        be 2 (port ^^^ 0x2112).toNat := fun _ _ => rfl
  have hdrop : ∀ (family : UInt8) (xored : Bytes),
      ([reserved, family] ++ be 2 (port ^^^ 0x2112).toNat ++ xored).drop 4 = xored := fun _ _ => rfl
  have hfamily : ∀ (family : UInt8) (xored : Bytes),
      ([reserved, family] ++ be 2 (port ^^^ 0x2112).toNat ++ xored).getD 1 0 = family :=
        fun _ _ => rfl
  cases ip with
  | v4 a b c d =>
    have hlen := hlength 1 [a, b, c, d] (by simp)
    refine ⟨hlen.symm ▸ Nat.le_add_right 4 _, ?_⟩
    rw [xorMappedValue, addressOctets, xorMappedAddress]
    simp only [hslice, hport, hdrop, hfamily, hlen, hplain [a, b, c, d] (by simp)]
    rfl
  | v6 groups =>
    have hoctets : (groups.toList.flatMap fun group => be 2 group.toNat).length = 16 := by
      simp
    have hlen := hlength 2 _ hoctets.le
    refine ⟨hlen.symm ▸ Nat.le_add_right 4 _, ?_⟩
    rw [xorMappedValue, addressOctets, xorMappedAddress]
    simp only [hslice, hport, hdrop, hfamily, hlen, hoctets, hplain _ hoctets.le]
    rw [if_neg (by decide), if_pos ⟨trivial, trivial⟩, socketAddr]
    congr 2
    refine Vector.ext fun i hi => ?_
    rw [Vector.getElem_ofFn, slice_flatMap_be (by simpa using hi), fromBe_be (UInt16.toNat_lt _),
      UInt16.ofNat_toNat, Vector.getElem_toList]

/-! ## Messages -/

def stunMessage (kind : ℕ) (id : Bytes) (attrs : List StunAttr) : Bytes :=
  be 2 kind ++ be 2 (attrs.flatMap StunAttr.encode).length ++ COOKIE ++ id ++
    attrs.flatMap StunAttr.encode

/-- A Binding success response with the address once, other attributes that need not be understood
and, it may be, a FINGERPRINT at its end. -/
structure SuccessResponse (id : Bytes) (ip : IpAddr) (port : UInt16) where
  front : List StunAttr
  mapped : StunAttr
  back : List StunAttr
  tail : List StunAttr
  reserved : UInt8
  optional : ∀ a ∈ front ++ back, a.Optional
  mapped_kind : mapped.kind = 0x0020
  mapped_value : mapped.value = xorMappedValue id reserved ip port
  size_lt : ((front ++ mapped :: (back ++ tail)).flatMap StunAttr.encode).length < 65536
  fingerprint_last : ∀ f ∈ tail, tail = [f] ∧ f.kind = 0x8028 ∧ f.value =
    fingerprint ((stunMessage 0x0101 id (front ++ mapped :: (back ++ tail))).take
      (20 + ((front ++ mapped :: back).flatMap StunAttr.encode).length))

namespace SuccessResponse

variable {id : Bytes} {ip : IpAddr} {port : UInt16} (m : SuccessResponse id ip port)

def attrs : List StunAttr := m.front ++ m.mapped :: (m.back ++ m.tail)

def encode : Bytes := stunMessage 0x0101 id m.attrs

end SuccessResponse

section Message

variable {kind : ℕ} {id : Bytes} {attrs : List StunAttr}

theorem length_attrs_mod (attrs : List StunAttr) :
    (attrs.flatMap StunAttr.encode).length % 4 = 0 := by
  induction attrs with
  | nil => rfl
  | cons a attrs ih =>
    rw [flatMap_cons, length_append, a.length_encode]
    omega

/-- The fields of a message. -/
theorem stunMessage_fields (hid : id.length = 12) (hkind : kind < 65536)
    (hsize : (attrs.flatMap StunAttr.encode).length < 65536) :
    (stunMessage kind id attrs).length = 20 + (attrs.flatMap StunAttr.encode).length ∧
      fromBe (slice (stunMessage kind id attrs) 0 2) = kind ∧
      fromBe (slice (stunMessage kind id attrs) 2 4) = (attrs.flatMap StunAttr.encode).length ∧
      slice (stunMessage kind id attrs) 4 8 = COOKIE ∧ slice (stunMessage kind id attrs) 8 20 = id ∧
      (stunMessage kind id attrs).drop 20 = attrs.flatMap StunAttr.encode := by
  have hcookie : COOKIE.length = 4 := rfl
  rw [stunMessage]
  generalize attrs.flatMap StunAttr.encode = body at *
  have hslice : ∀ {front data rest : Bytes} {i j : ℕ}, front.length = i → data.length = j - i →
      slice (front ++ data ++ rest) i j = data := by
    intro front data rest i j hfront hdata
    rw [slice, append_assoc, drop_left' hfront, take_left' hdata]
  refine ⟨by simp [hid, hcookie]; omega, ?_, ?_, ?_, ?_, ?_⟩
  · rw [slice, drop_zero, append_assoc, append_assoc, append_assoc,
      take_left' (length_be 2 _), fromBe_be (by omega)]
  · rw [append_assoc, append_assoc, hslice (length_be 2 _) (length_be 2 _),
      fromBe_be (by omega)]
  · rw [append_assoc, hslice (by simp) hcookie]
  · rw [hslice (by simp [hcookie]) hid]
  · rw [drop_left' (by simp [hcookie, hid])]

/-- What is read of a message whose attributes give an answer. -/
theorem bindingResponse_message (hid : id.length = 12)
    (hsize : (attrs.flatMap StunAttr.encode).length < 65536)
    (hread : readChain id ((stunMessage 0x0101 id attrs).take 20) attrs (none, none) = some found) :
    bindingResponse (stunMessage 0x0101 id attrs) id = match found.1 with
      | some addr => .mapped addr
      | none => .ignore := by
  obtain ⟨hlength, hkind, hsizeField, hcookie, hidField, hbody⟩ :=
    stunMessage_fields hid (by decide : 0x0101 < 65536) hsize
  have hmod := length_attrs_mod attrs
  have hchain : stunAttributes (stunMessage 0x0101 id attrs) id (stunMessage 0x0101 id attrs).length
      20
      none none = some found :=
    (@stunAttributes_eq_some _ _ _ _ (none, none) _ (by omega) (by omega)).mpr ⟨attrs, hbody, hread⟩
  rw [bindingResponse, hkind, hsizeField, hcookie, hidField, hchain, hlength]
  rw [if_neg (by simp), if_neg (by omega), if_neg (by decide)]
  rfl

/-- What a packet is that is not ignored. -/
theorem message_of_bindingResponse (h : bindingResponse packet id ≠ .ignore) :
    ∃ kind attrs found, (kind = 0x0101 ∨ kind = 0x0111) ∧ packet = stunMessage kind id attrs ∧
      readChain id (packet.take 20) attrs (none, none) = some found := by
  rw [bindingResponse] at h
  split at h
  case isTrue => exact absurd rfl h
  case isFalse hheader =>
    obtain ⟨hlength, hheader⟩ := not_or.mp hheader
    obtain ⟨hcookie, hid⟩ := not_or.mp hheader
    split at h
    case isTrue => exact absurd rfl h
    case isFalse hsize =>
      split at h
      case isTrue => exact absurd rfl h
      case isFalse hkind =>
        cases hchain : stunAttributes packet id packet.length 20 none none with
        | none =>
          rw [hchain] at h
          exact absurd rfl h
        | some found =>
          obtain ⟨attrs, hattrs, hread⟩ :=
            (@stunAttributes_eq_some _ _ _ _ (none, none) _ (by omega) (by omega)).mp hchain
          refine ⟨fromBe (slice packet 0 2), attrs, found, by omega, ?_, hread⟩
          have hbe : ∀ i, i + 2 ≤ packet.length →
              be 2 (fromBe (slice packet i (i + 2))) = slice packet i (i + 2) := by
            intro i hi
            have hbe := be_fromBe (slice packet i (i + 2))
            rwa [length_slice hi, Nat.add_sub_cancel_left] at hbe
          have hlen : (attrs.flatMap StunAttr.encode).length = fromBe (slice packet 2 4) := by
            rw [← hattrs, length_drop]
            omega
          rw [stunMessage, hlen, hbe 0 (by omega), hbe 2 (by omega), ← not_not.mp hcookie, ← hattrs]
          conv_rhs => rw [← not_not.mp hid]
          rw [append_assoc, append_assoc, append_assoc, slice_append_drop _ (by omega),
            slice_append_drop _ (by omega), slice_append_drop _ (by omega),
            slice_append_drop _ (by omega), drop_zero]

theorem take_message (h : packet.drop 20 = (front ++ back).flatMap StunAttr.encode) :
    packet.take (20 + (front.flatMap StunAttr.encode).length) =
      packet.take 20 ++ front.flatMap StunAttr.encode := by
  rw [take_add, h, flatMap_append, take_left]

end Message

/-- The attributes of a success response. -/
theorem SuccessResponse.readChain_attrs {ip : IpAddr} {port : UInt16}
    (m : SuccessResponse id ip port) (hid : id.length = 12) :
    readChain id (m.encode.take 20) m.attrs (none, none) =
      some (some (socketAddr ip port), none) := by
  obtain ⟨hlen, haddress⟩ := xorMappedAddress_value hid m.reserved ip port
  obtain ⟨hfront, hback⟩ := forall_mem_append.mp m.optional
  obtain ⟨-, -, -, -, -, hbody⟩ := stunMessage_fields hid (by decide : 0x0101 < 65536) m.size_lt
  have hbefore : m.encode.take 20 ++ m.front.flatMap StunAttr.encode ++ m.mapped.encode ++
      m.back.flatMap StunAttr.encode =
        m.encode.take (20 + ((m.front ++ m.mapped :: m.back).flatMap StunAttr.encode).length) := by
    have hsplit : m.front ++ m.mapped :: (m.back ++ m.tail) =
        (m.front ++ m.mapped :: m.back) ++ m.tail := by simp
    rw [hsplit] at hbody
    rw [SuccessResponse.encode, attrs, hsplit, take_message hbody, flatMap_append,
      flatMap_cons, append_assoc, append_assoc]
  rw [attrs, readChain_optional hfront, readChain, stunAttribute, m.mapped_kind, if_pos rfl,
    m.mapped_value, if_neg (by simpa using hlen), haddress, Option.map_some, Option.bind_some,
    readChain_optional hback, hbefore]
  cases htail : m.tail with
  | nil => rfl
  | cons f tail =>
    obtain ⟨hlast, hkind, hvalue⟩ := m.fingerprint_last f (htail ▸ mem_cons_self)
    obtain rfl : tail = [] := (cons.inj (htail.symm.trans hlast)).2
    have hfour : f.value.length = 4 := by rw [hvalue, fingerprint, length_be]
    rw [readChain, stunAttribute, hkind, if_neg (by decide), if_pos rfl, if_neg ?_]
    · rfl
    · simp only [hfour, not_or, not_not, ne_eq]
      exact ⟨trivial, rfl, hvalue⟩

/-- **STUN responses.** A success response gives the address that was put into it. No access of
`binding_response` is out of range, it always ends, and a packet that it does not ignore has the
cookie and the transaction id, is tiled by attributes of which each is known or need not be, and has
a FINGERPRINT only at its end, over the octets before it. -/
theorem stun_codec (id : Vector UInt8 12) :
    (∀ (ip : IpAddr) (port : UInt16) (m : SuccessResponse id.toList ip port),
      bindingResponse m.encode id.toList = .mapped (socketAddr ip port)) ∧
    (∀ packet, bindingResponseChecked packet id.toList = some (bindingResponse packet id.toList)) ∧
    ∀ packet, bindingResponse packet id.toList ≠ .ignore →
      ∃ kind attrs, packet = stunMessage kind id.toList attrs ∧
        ∀ front (a : StunAttr) back, attrs = front ++ a :: back →
          (a.kind ∈ [0x0001, 0x0009, 0x000a, 0x0020] ∨ 0x8000 ≤ a.kind) ∧
          (a.kind = 0x8028 → back = [] ∧ a.value =
            fingerprint (packet.take (20 + (front.flatMap StunAttr.encode).length))) := by
  have hid : id.toList.length = 12 := Vector.length_toList
  refine ⟨fun ip port m => ?_, fun packet => bindingResponseChecked_eq hid, fun packet h => ?_⟩
  · exact bindingResponse_message hid m.size_lt (m.readChain_attrs hid)
  · obtain ⟨kind, attrs, found, -, hpacket, hread⟩ := message_of_bindingResponse h
    refine ⟨kind, attrs, hpacket, fun front a back hattrs => ?_⟩
    obtain ⟨hknown, hlast⟩ := readChain_sound hread hattrs
    refine ⟨hknown, fun hkind => (hlast hkind).imp_right fun hvalue => ?_⟩
    have hbody : packet.drop 20 = (front ++ a :: back).flatMap StunAttr.encode := by
      rw [hpacket, stunMessage, hattrs, List.drop_left' (by simp [hid]; rfl)]
    rw [hvalue, take_message hbody]

/-- A transaction id. -/
def sampleId : Vector UInt8 12 :=
  #v[0xb7, 0xe7, 0xa7, 0x01, 0xbc, 0x34, 0xd6, 0x86, 0xfa, 0x87, 0xdf, 0xae]

/-- The name of the server, which need not be understood. -/
def softwareAttr : StunAttr where
  kind := 0x8022
  value := asBytes "test vector".toList
  padding := [0x20]
  kind_lt := by decide
  value_lt := by decide +kernel
  padded := by decide +kernel

/-- The attribute of 192.0.2.1 and port 32853. -/
def documentationMapped : StunAttr where
  kind := 0x0020
  value := xorMappedValue sampleId.toList 0 (.v4 192 0 2 1) 32853
  padding := []
  kind_lt := by decide
  value_lt := by decide
  padded := by decide

def fingerprintAttr : StunAttr where
  kind := 0x8028
  value := be 4 0x9d251ff4
  padding := []
  kind_lt := by decide
  value_lt := by decide
  padded := by decide

def documentationResponse : SuccessResponse sampleId.toList (.v4 192 0 2 1) 32853 where
  front := [softwareAttr]
  mapped := documentationMapped
  back := []
  tail := [fingerprintAttr]
  reserved := 0
  optional := by
    intro a ha
    obtain rfl := mem_singleton.mp ha
    exact ⟨by decide, by decide⟩
  mapped_kind := rfl
  mapped_value := rfl
  size_lt := by decide +kernel
  fingerprint_last := by
    intro f hf
    obtain rfl := mem_singleton.mp hf
    exact ⟨rfl, rfl, by decide +kernel⟩

/-- Of a response with a name in front and a FINGERPRINT behind. -/
theorem stun_codec_documentation :
    bindingResponse documentationResponse.encode sampleId.toList = .mapped (.v4 192 0 2 1 32853) :=
  (stun_codec sampleId).1 (.v4 192 0 2 1) 32853 documentationResponse

end SimMaster
