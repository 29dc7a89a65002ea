import SimMaster.Clock
import SimMaster.CommonCompression

/-!
# Packets of the common channel

A call goes out as one packet or, when its body is long, as a chain of them: the first has a flag
and the length of the body in front of its piece, the others start with the octet 3. A body may be a
compressed container, which only the first packet says.

`CommonAssembler` puts the pieces together again. A chain must come without anything in between;
what does not fit closes the assembler.
-/

namespace SimMaster.Jegotrip.Common

open Rust List Machine

inductive CallKind where
  | request
  | reply
  | ping
  | release
  | pong
  deriving DecidableEq

/-- `kind as u8`. -/
def CallKind.toByte : CallKind → UInt8
  | request => 0
  | reply => 1
  | ping => 2
  | release => 4
  | pong => 14

inductive CommonError where
  | configuration
  | bound
  | packet
  | fragment
  | compression (error : CompressionError)
  | timeout
  | clockRollback
  | closed
  deriving DecidableEq

def nativeFragmentThreshold : ℕ := 65536
def maxPackets : ℕ := 256
def maxGroupBytes : ℕ := 1024 * 1024

/-- `FRAGMENTED` -/
def fragmentedFlag : UInt8 := 0x20
/-- `COMPRESSED` -/
def compressedFlag : UInt8 := 0x10

/-- The first octet of the packets that go on with a chain. -/
def continuation : UInt8 := 3

def kindOf (header : UInt8) : Except CommonError CallKind :=
  match header &&& 15 with
  | 0 => .ok .request
  | 1 => .ok .reply
  | 2 => .ok .ping
  | 4 => .ok .release
  | 14 => .ok .pong
  | _ => .error .packet

/-- The kinds that have a payload. -/
def CallKind.carries (kind : CallKind) : Bool := kind = .request || kind = .reply

def validatePayload (kind : CallKind) (payload : Bytes) : Except CommonError Unit :=
  if maxStreamBytes < payload.length then .error .bound
  -- a kind that carries a payload has one, and the others have none
  else if kind.carries = payload.isEmpty then .error .packet
  else .ok ()

/-! ## Sending -/

/-- How much of `left` octets goes into the next packet. -/
def pieceLength (threshold left : ℕ) : ℕ :=
  if 2 * threshold ≤ left then threshold else if threshold < left then left / 2 else left

/-- The packets for the rest of a body, `left` at most; `header` is the first octet of the next. -/
def fragment (threshold : ℕ) : (left : ℕ) → (header : UInt8) → (rest : Bytes) →
    Except CommonError (List Bytes)
  | 0, _, [] => .ok []
  | 0, _, _ :: _ => .error .bound
  | left + 1, header, rest =>
    if rest.isEmpty then .ok []
    else do
      let count := pieceLength threshold rest.length
      let packets ← fragment threshold left continuation (rest.drop count)
      return (header :: rest.take count) :: packets

section Library

variable (bz : Bzip2)

/-- The container that is sent instead of the payload, if there is one. -/
def compressedBody (kind : CallKind) (payload : Bytes) (compressAbove : Option ℕ) :
    Except CommonError (Option Bytes) :=
  if kind.carries && compressAbove.any (· < payload.length) then
    (tryCompress bz payload).mapError .compression
  else .ok none

def encode (kind : CallKind) (payload : Bytes) (threshold : ℕ) (compressAbove : Option ℕ) :
    Except CommonError (List Bytes) := do
  if ¬(8 ≤ threshold ∧ threshold ≤ nativeFragmentThreshold) ∨
      (compressAbove.any fun value => value = 0 || maxStreamBytes < value) then
    throw .configuration
  validatePayload kind payload
  let compressed ← compressedBody bz kind payload compressAbove
  let header := if compressed.isSome then kind.toByte ||| compressedFlag else kind.toByte
  let body := compressed.getD payload
  if body.length ≤ threshold then return [header :: body]
  fragment threshold maxPackets (header ||| fragmentedFlag) (be 4 body.length ++ body)

/-! ## Receiving -/

/-- A chain that is not complete. -/
structure Partial where
  kind : CallKind
  compressed : Bool
  expected : ℕ
  bytes : Bytes
  deadline : Instant
  fragments : ℕ

/-- The chain with one more piece; a shorter time of the caller holds for all of it. -/
def Partial.extend (part : Partial) (body : Bytes) (callerEnd : Instant) : Partial :=
  { part with
    deadline := min part.deadline callerEnd
    fragments := part.fragments + 1
    bytes := part.bytes ++ body }

structure CommonAssembler where
  part : Option Partial
  timeout : Duration
  lastNow : Instant
  closed : Bool

structure CommonMessage where
  kind : CallKind
  payload : Bytes
  deadline : Instant
  deriving DecidableEq

namespace CommonAssembler

def new (timeout : Duration) (now : Instant) : Except CommonError CommonAssembler :=
  if timeout = 0 ∨ Duration.fromSecs 30 < timeout then .error .configuration
  else .ok ⟨none, timeout, now, false⟩

def close (a : CommonAssembler) : CommonAssembler := { a with closed := true, part := none }

/-- The memory that is reserved for the chain. -/
def retainedBytes (a : CommonAssembler) : ℕ := (a.part.map Partial.expected).getD 0

def checkTime (a : CommonAssembler) (now : Instant) : Except CommonError Unit :=
  if a.closed then .error .closed
  else if now < a.lastNow then .error .clockRollback
  else if a.part.any fun part => part.deadline ≤ now then .error .timeout
  else .ok ()

def tick (a : CommonAssembler) (now : Instant) : Except CommonError Unit × CommonAssembler :=
  match a.checkTime now with
  | .ok () => (.ok (), { a with lastNow := now })
  | .error error => (.error error, a.close)

/-- The length of the payload that a body stands for. -/
def payloadLength (compressed : Bool) (body : Bytes) : Except CommonError ℕ :=
  if compressed then (uncompressedLength body).mapError .compression else .ok body.length

/-- The payload that a body stands for. -/
def payloadOf (compressed : Bool) (body : Bytes) : Except CommonError Bytes :=
  if compressed then (decompress bz body).mapError .compression else .ok body

/-- The message of a complete body. -/
def complete (kind : CallKind) (compressed : Bool) (body : Bytes) (deadline : Instant)
    (budget : ℕ) : Except CommonError CommonMessage := do
  let expected ← payloadLength compressed body
  if budget < expected then throw .bound
  let payload ← payloadOf bz compressed body
  validatePayload kind payload
  return ⟨kind, payload, deadline⟩

/-- The message of a complete chain. -/
def finish (part : Partial) (budget : ℕ) : Except CommonError CommonMessage :=
  if part.compressed then
    -- the container stays in memory while the payload is built
    complete bz part.kind true part.bytes part.deadline (budget - part.expected)
  else do
    validatePayload part.kind part.bytes
    return ⟨part.kind, part.bytes, part.deadline⟩

/-- A packet that goes on with the chain `part`. -/
def continueWith (a : CommonAssembler) (part : Partial) (body : Bytes) (callerEnd : Instant)
    (budget : ℕ) : Except CommonError (Option CommonMessage × CommonAssembler) := do
  if maxPackets ≤ part.fragments then throw .bound
  if body.isEmpty ∨ part.expected - part.bytes.length < body.length then throw .fragment
  let part := part.extend body callerEnd
  if part.bytes.length ≠ part.expected then return (none, { a with part := some part })
  let message ← finish bz part budget
  return (some message, { a with part := none })

/-- A packet with the header of a call. -/
def start (a : CommonAssembler) (header : UInt8) (body : Bytes) (callerEnd admitted now : Instant)
    (budget : ℕ) : Except CommonError (Option CommonMessage × CommonAssembler) := do
  if a.part.isSome then throw .fragment
  let kind ← kindOf header
  let compressed : Bool := header &&& compressedFlag ≠ 0
  let fragmented : Bool := header &&& fragmentedFlag ≠ 0
  if (compressed || fragmented) && !kind.carries then throw .packet
  if !fragmented then
    let message ← complete bz kind compressed body callerEnd budget
    return (some message, a)
  else
    let front ← okOr .fragment (getRange body 0 4)
    let expected := fromBe front
    if expected = 0 ∨ maxStreamBytes < expected ∨ budget < expected then throw .bound
    let initial := body.drop 4
    if initial.isEmpty ∨ expected ≤ initial.length then throw .fragment
    let deadline ← okOr .configuration (admitted.checkedAdd a.timeout)
    let deadline := min callerEnd deadline
    if deadline ≤ now then throw .timeout
    return (none, { a with part := some ⟨kind, compressed, expected, initial, deadline, 1⟩ })

/-- `consume`, after its `tick`. -/
def consume (a : CommonAssembler) (packet : Bytes) (callerEnd admitted now : Instant) (budget : ℕ) :
    Except CommonError (Option CommonMessage × CommonAssembler) := do
  if now < admitted then throw .clockRollback
  if callerEnd ≤ now then throw .timeout
  if budget < a.retainedBytes then throw .bound
  if maxStreamBytes + 1 < packet.length then throw .bound
  match packet with
  | [] => throw .packet
  | header :: body =>
    if header &&& 0xc0 ≠ 0 then throw .packet
    if header = continuation then
      let part ← okOr .fragment a.part
      continueWith bz a part body callerEnd budget
    else start bz a header body callerEnd admitted now budget

def onPacketBudgeted (a : CommonAssembler) (packet : Bytes) (callerEnd admitted now : Instant)
    (budget : ℕ) : Except CommonError (Option CommonMessage) × CommonAssembler :=
  match a.tick now with
  | (.error error, a) => (.error error, a)
  | (.ok (), a) =>
    match consume bz a packet callerEnd admitted now (min budget maxGroupBytes) with
    | .error error => (.error error, a.close)
    | .ok (message, a) => (.ok message, a)

def onPacket (a : CommonAssembler) (packet : Bytes) (callerEnd now : Instant) :
    Except CommonError (Option CommonMessage) × CommonAssembler :=
  onPacketBudgeted bz a packet callerEnd now now maxGroupBytes

end CommonAssembler

end Library

/-! ## What a chain is -/

variable {bz : Bzip2}

/-- The payload that a body stands for. -/
def Means (bz : Bzip2) (compressed : Bool) (body payload : Bytes) : Prop :=
  if compressed then decompress bz body = .ok payload else payload = body

/-- The packets of a chain. -/
def chain (header : UInt8) (first : Bytes) (pieces : List Bytes) : List Bytes :=
  (header :: first) :: pieces.map (continuation :: ·)

/-- These packets, one after the other, make up a message. -/
inductive Assembled (bz : Bzip2) : List Bytes → CallKind → Bytes → Prop
  | single {header : UInt8} {kind : CallKind} {body payload : Bytes}
      (hkind : kindOf header = .ok kind) (hheader : header &&& fragmentedFlag = 0)
      (hbody : Means bz (header &&& compressedFlag ≠ 0) body payload) :
      Assembled bz [header :: body] kind payload
  | chain {header : UInt8} {kind : CallKind} {front initial payload : Bytes} {pieces : List Bytes}
      (hkind : kindOf header = .ok kind) (hheader : header &&& fragmentedFlag ≠ 0)
      (hfront : front.length = 4) (hpieces : pieces ≠ [])
      (hlength : (initial ++ pieces.flatten).length = fromBe front)
      (hbody : Means bz (header &&& compressedFlag ≠ 0) (initial ++ pieces.flatten) payload) :
      Assembled bz (chain header (front ++ initial) pieces) kind payload

/-! ## The packets that are sent -/

variable {threshold left : ℕ}

theorem pieceLength_pos (ht : 0 < threshold) (hleft : 0 < left) :
    0 < pieceLength threshold left := by
  rw [pieceLength]
  split_ifs <;> omega

theorem pieceLength_le (threshold left : ℕ) :
    pieceLength threshold left ≤ threshold ∧ pieceLength threshold left ≤ left := by
  rw [pieceLength]
  split_ifs <;> omega

variable {packets : List Bytes}

/-- The pieces of a body that was cut. -/
theorem fragment_eq_ok {header : UInt8} {rest : Bytes} (ht : 0 < threshold) (hrest : rest ≠ [])
    (h : fragment threshold left header rest = .ok packets) :
    ∃ pieces, packets = chain header (rest.take (pieceLength threshold rest.length)) pieces ∧
      rest.drop (pieceLength threshold rest.length) = pieces.flatten ∧
      (∀ piece ∈ pieces, piece ≠ [] ∧ piece.length ≤ threshold) ∧ pieces.length < left := by
  induction left generalizing header rest packets with
  | zero =>
    cases rest with
    | nil => exact absurd rfl hrest
    | cons byte rest => cases h
  | succ left ih =>
    rw [fragment, if_neg (by rwa [List.isEmpty_iff])] at h
    obtain ⟨others, hothers, h⟩ := bind_eq_ok.mp h
    obtain rfl := Except.ok.inj h
    by_cases hdrop : rest.drop (pieceLength threshold rest.length) = []
    · obtain rfl : [] = others := by
        rw [hdrop] at hothers
        cases left <;> exact Except.ok.inj hothers
      exact ⟨[], rfl, hdrop, by simp, Nat.succ_pos left⟩
    · obtain ⟨pieces, rfl, hflatten, hpieces, hlen⟩ := ih hdrop hothers
      refine ⟨_ :: pieces, rfl, ?_, ?_, Nat.succ_lt_succ hlen⟩
      · rw [flatten_cons, ← hflatten, take_append_drop]
      · refine forall_mem_cons.mpr ⟨?_, hpieces⟩
        have hpos := pieceLength_pos ht (length_pos_iff.mpr hdrop)
        have hle := pieceLength_le threshold (rest.drop (pieceLength threshold rest.length)).length
        rw [← length_pos_iff, length_take]
        omega

variable {kind : CallKind} {payload : Bytes}

theorem validatePayload_eq_ok (h : validatePayload kind payload = .ok ()) :
    payload.length ≤ maxStreamBytes ∧ (kind.carries = false → payload = []) := by
  rw [validatePayload] at h
  split_ifs at h with hlarge hempty
  refine ⟨by omega, fun hcarries => ?_⟩
  rw [hcarries] at hempty
  simpa using hempty

variable {compressAbove : Option ℕ}

theorem compressedBody_eq_some {payload container : Bytes}
    (h : compressedBody bz kind payload compressAbove = .ok (some container)) :
    kind.carries = true ∧ tryCompress bz payload = .ok (some container) := by
  rw [compressedBody] at h
  split at h
  case isTrue hcarries =>
    refine ⟨(Bool.and_eq_true _ _ ▸ hcarries).1, ?_⟩
    cases hcompress : tryCompress bz payload with
    | error error =>
      rw [hcompress] at h
      cases h
    | ok compressed =>
      rw [hcompress] at h
      exact congrArg Except.ok (Except.ok.inj h)
  case isFalse => cases h

/-- What is sent: a body that stands for the payload, in one packet or in a chain. -/
theorem encode_eq_ok (hbz : bz.Inverts)
    (h : encode bz kind payload threshold compressAbove = .ok packets) :
    8 ≤ threshold ∧ threshold ≤ nativeFragmentThreshold ∧ validatePayload kind payload = .ok () ∧
      ∃ (compressed : Bool) (header : UInt8) (body : Bytes),
        header = (if compressed then kind.toByte ||| compressedFlag else kind.toByte) ∧
        (compressed = true → kind.carries = true) ∧
        Means bz compressed body payload ∧ body.length ≤ maxStreamBytes ∧
        (body.length ≤ threshold ∧ packets = [header :: body] ∨ threshold < body.length ∧
            fragment threshold maxPackets (header ||| fragmentedFlag)
              (be 4 body.length ++ body) = .ok packets) := by
  obtain ⟨hconfiguration, h⟩ := Method.guard_eq_ok h
  obtain ⟨hthreshold, -⟩ := not_or.mp hconfiguration
  obtain ⟨hlower, hupper⟩ := not_not.mp hthreshold
  obtain ⟨⟨⟩, hvalid, h⟩ := bind_eq_ok.mp h
  obtain ⟨compressed, hcompressed, h⟩ := bind_eq_ok.mp h
  obtain ⟨hsize, -⟩ := validatePayload_eq_ok hvalid
  refine ⟨hlower, hupper, hvalid, compressed.isSome,
    if compressed.isSome then kind.toByte ||| compressedFlag else kind.toByte,
    compressed.getD payload, rfl, ?_, ?_, ?_, ?_⟩
  · intro hsome
    obtain ⟨container, rfl⟩ := Option.isSome_iff_exists.mp hsome
    exact (compressedBody_eq_some hcompressed).1
  · cases compressed with
    | none => rfl
    | some container => exact decompress_of_tryCompress hbz (compressedBody_eq_some hcompressed).2
  · cases compressed with
    | none => exact hsize
    | some container =>
      obtain ⟨progress, -, -, -, hle, rfl, hlen⟩ :=
        tryCompress_eq_some (compressedBody_eq_some hcompressed).2
      rw [Option.getD_some, length_append, length_be]
      omega
  · dsimp only at h
    by_cases hshort : (compressed.getD payload).length ≤ threshold
    · rw [if_pos hshort] at h
      exact Or.inl ⟨hshort, (Except.ok.inj h).symm⟩
    · rw [if_neg hshort] at h
      exact Or.inr ⟨not_le.mp hshort, h⟩

namespace CommonAssembler

/-- What the first octet of a packet that is sent says. -/
theorem header_says (kind : CallKind) (compressed fragmented : Bool) {header : UInt8}
    (h : header = if compressed then kind.toByte ||| compressedFlag else kind.toByte) :
    (∀ flagged, flagged = (if fragmented then header ||| fragmentedFlag else header) →
      kindOf flagged = .ok kind ∧ flagged &&& 0xc0 = 0 ∧ flagged ≠ continuation ∧
        decide (flagged &&& compressedFlag ≠ 0) = compressed ∧
        decide (flagged &&& fragmentedFlag ≠ 0) = fragmented) := by
  rintro flagged rfl
  subst h
  cases kind <;> cases compressed <;> cases fragmented <;> decide

/-! ## A complete body -/

variable {compressed : Bool} {body payload : Bytes}

theorem payloadOf_eq_ok :
    payloadOf bz compressed body = .ok payload ↔ Means bz compressed body payload := by
  cases compressed with
  | false =>
    exact ⟨fun h => (Except.ok.inj h).symm, fun h => congrArg Except.ok h.symm⟩
  | true =>
    simp only [payloadOf, Means, if_true]
    cases decompress bz body with
    | error error => simp [Except.mapError]
    | ok bytes =>
      exact ⟨fun h => congrArg Except.ok (Except.ok.inj h),
        fun h => congrArg Except.ok (Except.ok.inj h)⟩

theorem payloadLength_of_means
    (hmeans : Means bz compressed body payload) (hbody : body.length ≤ maxStreamBytes) :
    ∃ n, payloadLength compressed body = .ok n ∧ n ≤ maxStreamBytes := by
  cases compressed with
  | false => exact ⟨body.length, rfl, hbody⟩
  | true =>
    obtain ⟨n, hn, -⟩ := bind_eq_ok.mp hmeans
    refine ⟨n, by rw [payloadLength, if_pos rfl, hn]; rfl, ?_⟩
    rw [uncompressedLength] at hn
    split_ifs at hn
    split at hn
    case h_1 => cases hn
    case h_2 front hfront =>
      dsimp only at hn
      split_ifs at hn with hzero hlarge
      obtain rfl := Except.ok.inj hn
      omega

variable {budget : ℕ} {kind : CallKind}

theorem complete_of_means (deadline : Instant) (hmeans : Means bz compressed body payload)
    (hvalid : validatePayload kind payload = .ok ()) (hbody : body.length ≤ maxStreamBytes)
    (hbudget : maxStreamBytes ≤ budget) :
    complete bz kind compressed body deadline budget = .ok ⟨kind, payload, deadline⟩ := by
  obtain ⟨n, hn, hle⟩ := payloadLength_of_means hmeans hbody
  rw [complete, hn, ok_bind, if_neg (by omega), payloadOf_eq_ok.mpr hmeans, ok_bind,
    hvalid, ok_bind]
  rfl

variable {message : CommonMessage}

theorem complete_eq_ok {body : Bytes} {deadline : Instant}
    (h : complete bz kind compressed body deadline budget = .ok message) :
    message.kind = kind ∧ Means bz compressed body message.payload := by
  obtain ⟨n, -, h⟩ := bind_eq_ok.mp h
  obtain ⟨-, h⟩ := Method.guard_eq_ok h
  obtain ⟨payload, hpayload, h⟩ := bind_eq_ok.mp h
  obtain ⟨-, -, h⟩ := bind_eq_ok.mp h
  obtain rfl := Except.ok.inj h
  exact ⟨rfl, payloadOf_eq_ok.mp hpayload⟩

variable {part : Partial}

theorem finish_of_means {payload : Bytes} (hmeans : Means bz part.compressed part.bytes payload)
    (hvalid : validatePayload part.kind payload = .ok ())
    (hexpected : part.expected ≤ maxStreamBytes)
    (hlen : part.bytes.length = part.expected) (hbudget : 2 * maxStreamBytes ≤ budget) :
    finish bz part budget = .ok ⟨part.kind, payload, part.deadline⟩ := by
  rw [finish]
  split
  case isTrue hcompressed =>
    exact complete_of_means _ (hcompressed ▸ hmeans) hvalid (by omega) (by omega)
  case isFalse hplain =>
    rw [Means, if_neg hplain] at hmeans
    rw [← hmeans, hvalid]
    rfl

theorem finish_eq_ok (h : finish bz part budget = .ok message) :
    message.kind = part.kind ∧ Means bz part.compressed part.bytes message.payload := by
  rw [finish] at h
  split at h
  case isTrue hcompressed =>
    rw [hcompressed]
    exact complete_eq_ok h
  case isFalse hplain =>
    obtain ⟨-, -, h⟩ := bind_eq_ok.mp h
    obtain rfl := Except.ok.inj h
    exact ⟨rfl, by rw [Means, if_neg hplain]⟩

/-! ## One packet -/

section Packet

variable {a a' : CommonAssembler} {part : Partial} {header : UInt8} {body : Bytes}
  {callerEnd admitted now : Instant} {budget : ℕ} {message : Option CommonMessage}

theorem continueWith_more (hfragments : part.fragments < maxPackets) (hbody : body ≠ [])
    (hlen : part.bytes.length + body.length < part.expected) :
    continueWith bz a part body callerEnd budget =
      .ok (none, { a with part := some (part.extend body callerEnd) }) := by
  have hextended :
      (part.extend body callerEnd).bytes.length ≠ (part.extend body callerEnd).expected := by
    rw [Partial.extend, length_append]
    exact hlen.ne
  rw [continueWith, if_neg (not_le.mpr hfragments),
    if_neg (not_or.mpr ⟨by rwa [List.isEmpty_iff], by omega⟩)]
  rw [if_pos hextended]
  rfl

variable {payload : Bytes}

theorem continueWith_last (hfragments : part.fragments < maxPackets)
    (hbody : body ≠ []) (hlen : part.bytes.length + body.length = part.expected)
    (hmeans : Means bz part.compressed (part.bytes ++ body) payload)
    (hvalid : validatePayload part.kind payload = .ok ())
    (hexpected : part.expected ≤ maxStreamBytes)
    (hbudget : 2 * maxStreamBytes ≤ budget) : continueWith bz a part body callerEnd budget =
      .ok (some ⟨part.kind, payload, min part.deadline callerEnd⟩, { a with part := none }) := by
  have hextended :
      (part.extend body callerEnd).bytes.length = (part.extend body callerEnd).expected := by
    rw [Partial.extend, length_append]
    exact hlen
  have hfinish : finish bz (part.extend body callerEnd) budget =
      .ok ⟨part.kind, payload, min part.deadline callerEnd⟩ :=
    finish_of_means hmeans hvalid hexpected hextended hbudget
  rw [continueWith, if_neg (not_le.mpr hfragments),
    if_neg (not_or.mpr ⟨by rwa [List.isEmpty_iff], by omega⟩)]
  rw [if_neg (not_not.mpr hextended), hfinish]
  rfl

/-- What a piece leads to. -/
theorem continueWith_eq_ok (h : continueWith bz a part body callerEnd budget = .ok (message, a')) :
    message = none ∧ a' = { a with part := some (part.extend body callerEnd) } ∨
      ∃ m, message = some m ∧ a' = { a with part := none } ∧
        (part.bytes ++ body).length = part.expected ∧ m.kind = part.kind ∧
        Means bz part.compressed (part.bytes ++ body) m.payload := by
  obtain ⟨-, h⟩ := Method.guard_eq_ok h
  obtain ⟨-, h⟩ := Method.guard_eq_ok h
  dsimp only at h
  split at h
  case isTrue =>
    obtain ⟨rfl, rfl⟩ := Prod.mk.inj (Except.ok.inj h)
    exact Or.inl ⟨rfl, rfl⟩
  case isFalse hlen =>
    obtain ⟨m, hm, h⟩ := bind_eq_ok.mp h
    obtain ⟨rfl, rfl⟩ := Prod.mk.inj (Except.ok.inj h)
    exact Or.inr ⟨m, rfl, rfl, not_not.mp hlen, finish_eq_ok hm⟩

/-- What a packet with the header of a call leads to. -/
theorem start_eq_ok (h : start bz a header body callerEnd admitted now budget = .ok (message, a')) :
    a.part = none ∧ ∃ kind, kindOf header = .ok kind ∧
      (header &&& fragmentedFlag = 0 ∧ a' = a ∧ (∃ m, message = some m ∧ m.kind = kind ∧
          Means bz (header &&& compressedFlag ≠ 0) body m.payload) ∨
        header &&& fragmentedFlag ≠ 0 ∧ message = none ∧ ∃ front initial deadline,
          body = front ++ initial ∧ front.length = 4 ∧
          a' = { a with part := some ⟨kind, header &&& compressedFlag ≠ 0, fromBe front, initial,
            deadline, 1⟩ }) := by
  obtain ⟨hpart, h⟩ := Method.guard_eq_ok h
  obtain ⟨kind, hkind, h⟩ := bind_eq_ok.mp h
  obtain ⟨-, h⟩ := Method.guard_eq_ok h
  refine ⟨by simpa using hpart, kind, hkind, ?_⟩
  split at h
  case isTrue hsingle =>
    obtain ⟨m, hm, h⟩ := bind_eq_ok.mp h
    obtain ⟨rfl, rfl⟩ := Prod.mk.inj (Except.ok.inj h)
    obtain ⟨hmkind, hmeans⟩ := complete_eq_ok hm
    exact Or.inl ⟨by simpa using hsingle, rfl, m, rfl, hmkind, hmeans⟩
  case isFalse hchain =>
    obtain ⟨front, hfront, h⟩ := bind_eq_ok.mp h
    obtain ⟨-, h⟩ := Method.guard_eq_ok h
    obtain ⟨-, h⟩ := Method.guard_eq_ok h
    obtain ⟨deadline, -, h⟩ := bind_eq_ok.mp h
    obtain ⟨-, h⟩ := Method.guard_eq_ok h
    obtain ⟨rfl, rfl⟩ := Prod.mk.inj (Except.ok.inj h)
    have hget := okOr_eq_ok.mp hfront
    rw [getRange] at hget
    split_ifs at hget with hrange
    obtain rfl := Option.some.inj hget
    refine Or.inr ⟨by simpa using hchain, rfl, _, body.drop 4, _, ?_, ?_, rfl⟩
    · rw [drop_zero]
      exact (take_append_drop 4 body).symm
    · rw [drop_zero, length_take]
      omega

variable {kind : CallKind}

theorem start_single (hpart : a.part = none) (hkind : kindOf header = .ok kind)
    (hcompressed : header &&& compressedFlag ≠ 0 → kind.carries = true)
    (hfragmented : header &&& fragmentedFlag = 0)
    (hmeans : Means bz (header &&& compressedFlag ≠ 0) body payload)
    (hvalid : validatePayload kind payload = .ok ()) (hbody : body.length ≤ maxStreamBytes)
    (hbudget : maxStreamBytes ≤ budget) : start bz a header body callerEnd admitted now budget =
      .ok (some ⟨kind, payload, callerEnd⟩, a) := by
  rw [start, hpart, if_neg (by simp), hkind, ok_bind]
  rw [if_neg ?_, if_pos (by simp [hfragmented]), complete_of_means _ hmeans hvalid hbody hbudget]
  · rfl
  · simpa [hfragmented] using hcompressed

theorem start_chain {initial : Bytes} {expected deadline : ℕ}
    (hpart : a.part = none) (hkind : kindOf header = .ok kind) (hcarries : kind.carries = true)
    (hfragmented : header &&& fragmentedFlag ≠ 0) (hpos : initial ≠ [])
    (hlen : initial.length < expected) (hexpected : expected ≤ maxStreamBytes)
    (hbudget : maxStreamBytes ≤ budget)
    (hdeadline : Instant.checkedAdd admitted a.timeout = some deadline)
    (hnow : now < min callerEnd deadline) :
    start bz a header (be 4 expected ++ initial) callerEnd admitted now budget =
      .ok (none, { a with part := some ⟨kind, header &&& compressedFlag ≠ 0, expected, initial,
        min callerEnd deadline, 1⟩ }) := by
  have hfront : getRange (be 4 expected ++ initial) 0 4 = some (be 4 expected) := by
    rw [getRange, if_pos ⟨Nat.zero_le _, by rw [length_append, length_be]; omega⟩, drop_zero,
      take_left' (length_be 4 _)]
  have hvalue : fromBe (be 4 expected) = expected :=
    fromBe_be (by rw [maxStreamBytes] at hexpected; omega)
  rw [start, hpart, if_neg (by simp), hkind, ok_bind]
  rw [if_neg (by simp [hcarries]), if_neg (by simp [hfragmented]), hfront, okOr_some,
    ok_bind, hvalue, drop_left' (length_be 4 _), if_neg (by omega), if_neg ?_, hdeadline,
    okOr_some, ok_bind, if_neg (not_le.mpr hnow)]
  · rfl
  · exact not_or.mpr ⟨by rwa [List.isEmpty_iff], by omega⟩

theorem consume_eq_ok (h : consume bz a (header :: body) callerEnd admitted now budget =
    .ok (message, a')) : header = continuation ∧ (∃ part, a.part = some part ∧
        continueWith bz a part body callerEnd budget = .ok (message, a')) ∨ header ≠ continuation ∧
        start bz a header body callerEnd admitted now budget = .ok (message, a') := by
  obtain ⟨-, h⟩ := Method.guard_eq_ok h
  obtain ⟨-, h⟩ := Method.guard_eq_ok h
  obtain ⟨-, h⟩ := Method.guard_eq_ok h
  obtain ⟨-, h⟩ := Method.guard_eq_ok h
  obtain ⟨-, h⟩ := Method.guard_eq_ok h
  split at h
  case isTrue hheader =>
    obtain ⟨part, hpart, h⟩ := bind_eq_ok.mp h
    exact Or.inl ⟨hheader, part, okOr_eq_ok.mp hpart, h⟩
  case isFalse hheader => exact Or.inr ⟨hheader, h⟩

/-- A packet that comes in time goes to the function its header asks for. -/
theorem onPacket_eq (hclosed : a.closed = false) (hlast : a.lastNow ≤ now)
    (hdeadline : ∀ part, a.part = some part → now < part.deadline ∧ part.expected ≤ maxStreamBytes)
    (hend : now < callerEnd) (hheader : header &&& 0xc0 = 0) (hbody : body.length ≤ maxStreamBytes)
    (h : (if header = continuation then okOr .fragment a.part >>= fun part =>
          continueWith bz { a with lastNow := now } part body callerEnd maxGroupBytes
      else start bz { a with lastNow := now } header body callerEnd now now maxGroupBytes) =
        .ok (message, a')) :
    onPacket bz a (header :: body) callerEnd now = (.ok message, a') := by
  have htick : a.tick now = (.ok (), { a with lastNow := now }) := by
    have hlive : (a.part.any fun part => part.deadline ≤ now) = false := by
      cases hpart : a.part with
      | none => rfl
      | some part => exact decide_eq_false (not_le.mpr (hdeadline part hpart).1)
    rw [tick, checkTime, hclosed, hlive, if_neg Bool.false_ne_true, if_neg (not_lt.mpr hlast),
      if_neg Bool.false_ne_true]
  have hretained : ¬maxGroupBytes < retainedBytes { a with lastNow := now } := by
    rw [retainedBytes]
    cases hpart : a.part with
    | none => exact Nat.not_lt_zero _
    | some part =>
      have hle := (hdeadline part hpart).2
      rw [maxStreamBytes] at hle
      rw [Option.map_some, Option.getD_some, maxGroupBytes]
      omega
  have hconsume : consume bz { a with lastNow := now } (header :: body) callerEnd now now
      maxGroupBytes = .ok (message, a') := by
    rw [consume, if_neg (lt_irrefl now), if_neg (not_le.mpr hend), if_neg hretained,
      if_neg (by rw [length_cons]; omega)]
    rw [if_neg (not_not.mpr hheader)]
    exact h
  rw [onPacket, onPacketBudgeted, htick]
  dsimp only
  rw [min_self, hconsume]

end Packet

end CommonAssembler

/-! ## The round trip -/

/-- A packet and when it comes. -/
structure Feed where
  packet : Bytes
  callerEnd : Instant
  now : Instant

/-- `on_packet`. -/
def feed (bz : Bzip2) (a : CommonAssembler) (f : Feed) :
    Except CommonError (Option CommonMessage) × CommonAssembler :=
  a.onPacket bz f.packet f.callerEnd f.now

/-- The clock does not go back, and every packet comes before the deadline and before the ends that
its own call and the earlier ones have given. -/
def InTime (last deadline : Instant) : List Feed → Prop
  | [] => True
  | f :: feeds => last ≤ f.now ∧ f.now < f.callerEnd ∧ f.now < deadline ∧
      InTime f.now (min deadline f.callerEnd) feeds

/-- The packets come in time for a chain that starts with the first of them. -/
def BeforeDeadlines (a : CommonAssembler) (feeds : List Feed) : Prop :=
  ∀ f ∈ feeds.head?, ∃ deadline, f.now.checkedAdd a.timeout = some deadline ∧
    InTime a.lastNow deadline feeds

/-- The answers to a chain of `n` packets. -/
def answers (n : ℕ) (message : CommonMessage) : List (Except CommonError (Option CommonMessage)) :=
  replicate (n - 1) (.ok none) ++ [.ok (some message)]

theorem answers_succ {n : ℕ} (message : CommonMessage) (hn : 0 < n) :
    answers (n + 1) message = .ok none :: answers n message := by
  obtain ⟨n, rfl⟩ := Nat.exists_eq_succ_of_ne_zero hn.ne'
  rfl

namespace CommonAssembler

/-- The rest of a chain. -/
theorem feed_pieces (a : CommonAssembler) (part : Partial) {payload : Bytes} {pieces : List Bytes}
    {feeds : List Feed} (hpieces : ∀ piece ∈ pieces, piece ≠ [] ∧ piece.length ≤ maxStreamBytes)
    (hne : pieces ≠ [])
    (hmeans : Means bz part.compressed (part.bytes ++ pieces.flatten) payload)
    (hvalid : validatePayload part.kind payload = .ok ())
    (hlen : (part.bytes ++ pieces.flatten).length = part.expected)
    (hexpected : part.expected ≤ maxStreamBytes)
    (hfragments : part.fragments + pieces.length ≤ maxPackets)
    (hpart : a.part = some part) (hclosed : a.closed = false)
    (hfeeds : feeds.map Feed.packet = pieces.map (continuation :: ·))
    (htime : InTime a.lastNow part.deadline feeds) :
    ∃ deadline, (trace (feed bz) a feeds).map Prod.snd =
        answers pieces.length ⟨part.kind, payload, deadline⟩ ∧ (run (feed bz) a feeds).part = none ∧
      (run (feed bz) a feeds).closed = false := by
  induction pieces generalizing part a feeds with
  | nil => exact absurd rfl hne
  | cons piece pieces ih =>
    cases feeds with
    | nil => cases hfeeds
    | cons f feeds =>
      obtain ⟨hpacket, hrest⟩ := cons.inj hfeeds
      obtain ⟨hlast, hend, hdeadline, htime⟩ := htime
      obtain ⟨⟨hpiece, hpieceLen⟩, hpieces⟩ := forall_mem_cons.mp hpieces
      rw [length_cons] at hfragments
      have honPacket : ∀ {message a'},
          continueWith bz { a with lastNow := f.now } part piece f.callerEnd maxGroupBytes =
            .ok (message, a') → feed bz a f = (.ok message, a') := by
        intro message a' h
        rw [feed, hpacket]
        apply onPacket_eq hclosed hlast ?_ hend (by decide) hpieceLen
        · rw [if_pos rfl, hpart]
          exact h
        · intro other hother
          obtain rfl := Option.some.inj (hpart.symm.trans hother)
          exact ⟨hdeadline, hexpected⟩
      rw [trace_cons, run_cons, map_cons]
      cases pieces with
      | nil =>
        -- the last piece
        obtain rfl := map_eq_nil_iff.mp hrest
        rw [flatten_singleton] at hmeans hlen
        rw [honPacket (continueWith_last (by omega) hpiece (by rwa [length_append] at hlen)
          hmeans hvalid hexpected (by decide))]
        exact ⟨_, rfl, rfl, hclosed⟩
      | cons next pieces =>
        have hnext := (forall_mem_cons.mp hpieces).1.1
        have hmore : part.bytes.length + piece.length < part.expected := by
          rw [← hlen, flatten_cons, flatten_cons, length_append, length_append, length_append]
          have := length_pos_iff.mpr hnext
          omega
        rw [honPacket (continueWith_more (by omega) hpiece hmore)]
        rw [flatten_cons, ← append_assoc] at hmeans hlen
        obtain ⟨deadline, htrace, hnone, hopen⟩ := ih
          { a with lastNow := f.now, part := some (part.extend piece f.callerEnd) }
          (part.extend piece f.callerEnd) hpieces (cons_ne_nil _ _) hmeans hvalid hlen hexpected
          (by rw [Partial.extend]; dsimp only; omega) rfl hclosed hrest htime
        refine ⟨deadline, ?_, hnone, hopen⟩
        have hanswers := answers_succ ⟨part.kind, payload, deadline⟩
          (length_pos_iff.mpr (cons_ne_nil next pieces))
        rw [htrace]
        exact hanswers.symm

end CommonAssembler

/-- The packets come out of the assembler as the message. -/
def Delivers (bz : Bzip2) (packets : List Bytes) (kind : CallKind) (payload : Bytes) : Prop :=
  ∀ (a : CommonAssembler) (feeds : List Feed), a.part = none → a.closed = false →
    feeds.map Feed.packet = packets → BeforeDeadlines a feeds →
    ∃ deadline, (Machine.trace (feed bz) a feeds).map Prod.snd =
        answers packets.length ⟨kind, payload, deadline⟩ ∧
      (Machine.run (feed bz) a feeds).part = none ∧
      (Machine.run (feed bz) a feeds).closed = false

section Delivery

variable {kind : CallKind} {compressed : Bool} {header : UInt8} {body payload : Bytes}

variable (hheader : header = if compressed then kind.toByte ||| compressedFlag else kind.toByte)
include hheader

theorem single_delivers
    (hcarries : compressed = true → kind.carries = true) (hmeans : Means bz compressed body payload)
    (hvalid : validatePayload kind payload = .ok ()) (hbody : body.length ≤ maxStreamBytes) :
    Delivers bz [header :: body] kind payload := by
  obtain ⟨hkind, hbits, hother, hcompressed, hfragmented⟩ :=
    CommonAssembler.header_says kind compressed false hheader header rfl
  intro a feeds hpart hclosed hfeeds htime
  obtain ⟨f, rfl, hpacket⟩ := map_eq_singleton_iff.mp hfeeds
  obtain ⟨deadline, -, hlast, hend, -, -⟩ := htime f rfl
  have hfeed : feed bz a f = (.ok (some ⟨kind, payload, f.callerEnd⟩),
      { a with lastNow := f.now }) := by
    rw [feed, hpacket]
    apply CommonAssembler.onPacket_eq hclosed hlast (by rw [hpart]; simp) hend hbits hbody
    rw [if_neg hother]
    have hfree : ({ a with lastNow := f.now } : CommonAssembler).part = none := hpart
    apply CommonAssembler.start_single hfree hkind ?_ (by simpa using hfragmented) ?_ hvalid hbody
      (by decide)
    · intro hset
      exact hcarries (by rw [← hcompressed]; exact decide_eq_true hset)
    · rw [hcompressed]
      exact hmeans
  refine ⟨f.callerEnd, ?_⟩
  rw [trace_cons, run_cons, hfeed]
  exact ⟨rfl, hpart, hclosed⟩

theorem chain_delivers {initial : Bytes} {pieces : List Bytes}
    (hcarries : kind.carries = true) (hmeans : Means bz compressed body payload)
    (hvalid : validatePayload kind payload = .ok ()) (hbody : body.length ≤ maxStreamBytes)
    (hcut : initial ++ pieces.flatten = body) (hinitial : initial ≠ [])
    (hfirst : 4 + initial.length ≤ maxStreamBytes) (hne : pieces ≠ [])
    (hpieces : ∀ piece ∈ pieces, piece ≠ [] ∧ piece.length ≤ maxStreamBytes)
    (hcount : pieces.length < maxPackets) :
    Delivers bz (chain (header ||| fragmentedFlag) (be 4 body.length ++ initial) pieces) kind
      payload := by
  obtain ⟨hkind, hbits, hother, hcompressed, hfragmented⟩ :=
    CommonAssembler.header_says kind compressed true hheader (header ||| fragmentedFlag) rfl
  intro a feeds hpart hclosed hfeeds htime
  cases feeds with
  | nil => cases hfeeds
  | cons f feeds =>
    obtain ⟨hpacket, hrest⟩ := cons.inj hfeeds
    obtain ⟨deadline, hdeadline, hlast, hend, hnow, htime⟩ := htime f rfl
    have hlen := congrArg List.length hcut
    rw [length_append] at hlen
    have hpos : 0 < pieces.flatten.length := by
      obtain ⟨piece, hmem⟩ := exists_mem_of_ne_nil pieces hne
      have hle := (sublist_flatten_of_mem hmem).length_le
      have := length_pos_iff.mpr (hpieces piece hmem).1
      omega
    have hfree : ({ a with lastNow := f.now } : CommonAssembler).part = none := hpart
    have hfeed : feed bz a f = (.ok none, { a with
        lastNow := f.now
        part := some ⟨kind, compressed, body.length, initial, min f.callerEnd deadline, 1⟩ }) := by
      rw [feed, hpacket]
      apply CommonAssembler.onPacket_eq hclosed hlast (by rw [hpart]; simp) hend hbits ?_
      · rw [if_neg hother,
          CommonAssembler.start_chain hfree hkind hcarries (by simpa using hfragmented)
          hinitial (by omega) hbody (by decide) hdeadline (lt_min hend hnow), hcompressed]
      · rwa [length_append, length_be]
    have hne' : pieces.length ≠ 0 := fun hzero => hne (length_eq_zero_iff.mp hzero)
    obtain ⟨last, htrace, hnone, hopen⟩ := CommonAssembler.feed_pieces
      { a with
        lastNow := f.now
        part := some ⟨kind, compressed, body.length, initial, min f.callerEnd deadline, 1⟩ }
      ⟨kind, compressed, body.length, initial, min f.callerEnd deadline, 1⟩ hpieces hne
      (hcut ▸ hmeans) hvalid (congrArg List.length hcut) hbody (by dsimp only; omega) rfl
        hclosed hrest
      (min_comm deadline f.callerEnd ▸ htime)
    refine ⟨last, ?_, ?_⟩
    · rw [trace_cons, hfeed, map_cons, htrace]
      rw [chain, length_cons, length_map, answers_succ _ (Nat.pos_of_ne_zero hne')]
    · rw [run_cons, hfeed]
      exact ⟨hnone, hopen⟩

end Delivery

/-- What the packets of a payload look like, and what becomes of them when they come in time. -/
theorem round_trip (hbz : bz.Inverts)
    (h : encode bz kind payload threshold compressAbove = .ok packets) :
    (∀ packet ∈ packets, packet ≠ [] ∧ (packet.drop 1).length ≤ threshold) ∧
      Delivers bz packets kind payload := by
  obtain ⟨hlower, hupper, hvalid, compressed, header, body, hheader, hcarries, hmeans,
    hbody, hsent⟩ :=
    encode_eq_ok hbz h
  rcases hsent with ⟨hshort, rfl⟩ | ⟨hlong, hchain⟩
  · exact ⟨forall_mem_singleton.mpr ⟨cons_ne_nil _ _, hshort⟩,
      single_delivers hheader hcarries hmeans hvalid hbody⟩
  · have hcarries : kind.carries = true := by
      cases compressed with
      | true => exact hcarries rfl
      | false =>
        obtain rfl : payload = body := hmeans
        rw [← Bool.not_eq_false]
        intro hempty
        rw [(validatePayload_eq_ok hvalid).2 hempty] at hlong
        exact Nat.not_lt_zero _ hlong
    obtain ⟨pieces, rfl, hflatten, hpieces, hcount⟩ :=
      fragment_eq_ok (by omega) (append_ne_nil_of_right_ne_nil _
        (length_pos_iff.mp (by omega))) hchain
    -- the length is inside the first piece, which is not the whole body
    have hbounds : 4 < pieceLength threshold (be 4 body.length ++ body).length ∧
        pieceLength threshold (be 4 body.length ++ body).length ≤ threshold := by
      rw [length_append, length_be, pieceLength]
      split_ifs <;> omega
    generalize pieceLength threshold (be 4 body.length ++ body).length = count at hbounds hflatten
    have htake : (be 4 body.length ++ body).take count = be 4 body.length ++
        body.take (count - 4) := by
      rw [take_append, length_be, take_of_length_le (by rw [length_be]; omega)]
    rw [drop_append, length_be, drop_of_length_le (by rw [length_be]; omega),
      nil_append] at hflatten
    rw [htake]
    refine ⟨forall_mem_cons.mpr ⟨⟨cons_ne_nil _ _, ?_⟩, ?_⟩, ?_⟩
    · rw [drop_succ_cons, drop_zero, length_append, length_be, length_take]
      omega
    · intro packet hpacket
      obtain ⟨piece, hmem, rfl⟩ := mem_map.mp hpacket
      exact ⟨cons_ne_nil _ _, (hpieces piece hmem).2⟩
    · have hmax : threshold ≤ maxStreamBytes := hupper.trans (by decide)
      refine chain_delivers hheader hcarries hmeans hvalid hbody ?_ ?_ ?_ ?_
        (fun piece hmem => (hpieces piece hmem).imp_right fun hle => hle.trans hmax) hcount
      · rw [← hflatten, take_append_drop]
      · rw [← length_pos_iff, length_take]
        omega
      · rw [length_take]
        omega
      · rintro rfl
        have hlen := congrArg List.length hflatten
        rw [length_drop, flatten_nil, length_nil] at hlen
        omega

/-! ## What comes out -/

/-- What a user of the assembler does with it; `on_group` is a tick and packets, `finish_eof` a
close. -/
inductive Call where
  | tick (now : Instant)
  | packet (packet : Bytes) (callerEnd admitted now : Instant) (budget : ℕ)
  | close

def step (bz : Bzip2) (a : CommonAssembler) : Call →
    Except CommonError (Option CommonMessage) × CommonAssembler
  | .tick now => ((a.tick now).1.map fun _ => none, (a.tick now).2)
  | .packet packet callerEnd admitted now budget =>
    a.onPacketBudgeted bz packet callerEnd admitted now budget
  | .close => (.ok none, a.close)

/-- The packets of some calls. -/
def packetsOf (calls : List Call) : List Bytes :=
  calls.filterMap fun
    | .packet packet _ _ _ _ => some packet
    | _ => none

/-- The chain in the assembler is made of the last packets. -/
def Chained (packets : List Bytes) (a : CommonAssembler) : Prop :=
  ∀ part, a.part = some part → ∃ earlier header front initial pieces,
    packets = earlier ++ chain header (front ++ initial) pieces ∧
      kindOf header = .ok part.kind ∧ header &&& fragmentedFlag ≠ 0 ∧ front.length = 4 ∧
      part.compressed = decide (header &&& compressedFlag ≠ 0) ∧
      part.expected = fromBe front ∧ part.bytes = initial ++ pieces.flatten

variable {a : CommonAssembler}

theorem chained_of_none (h : a.part = none) : Chained packets a := by
  intro part hpart
  rw [h] at hpart
  cases hpart

/-- Every message that a call gives out is made of the last packets. -/
def Sound (bz : Bzip2) (packets : List Bytes)
    (answer : Except CommonError (Option CommonMessage)) : Prop :=
  ∀ message, answer = .ok (some message) →
    ∃ earlier last, packets = earlier ++ last ∧ Assembled bz last message.kind message.payload

theorem tick_part (a : CommonAssembler) (now : Instant) :
    (a.tick now).2.part = none ∨ (a.tick now).2.part = a.part ∧ (a.tick now).1 = .ok () := by
  rw [CommonAssembler.tick]
  cases a.checkTime now with
  | error error => exact Or.inl rfl
  | ok => exact Or.inr ⟨rfl, rfl⟩

theorem consume_sound {a a' : CommonAssembler} {packet : Bytes} {callerEnd admitted now : Instant}
    {budget : ℕ} {message : Option CommonMessage} (hchained : Chained packets a)
    (h : a.consume bz packet callerEnd admitted now budget = .ok (message, a')) :
    Chained (packets ++ [packet]) a' ∧ Sound bz (packets ++ [packet]) (.ok message) := by
  cases packet with
  | nil =>
    obtain ⟨-, h⟩ := Method.guard_eq_ok h
    obtain ⟨-, h⟩ := Method.guard_eq_ok h
    obtain ⟨-, h⟩ := Method.guard_eq_ok h
    cases h
  | cons header body =>
    rcases CommonAssembler.consume_eq_ok h with ⟨rfl, part, hpart, h⟩ | ⟨-, h⟩
    · obtain ⟨earlier, first, front, initial, pieces, rfl, hkind, hflag, hfront, hcompressed,
        hexpected, hbytes⟩ := hchained part hpart
      have happend : earlier ++ chain first (front ++ initial) pieces ++ [continuation :: body] =
          earlier ++ chain first (front ++ initial) (pieces ++ [body]) := by
        rw [append_assoc, chain, chain, map_append]
        rfl
      have hflatten : initial ++ (pieces ++ [body]).flatten = part.bytes ++ body := by
        rw [hbytes, flatten_append, flatten_singleton, append_assoc]
      rw [happend]
      rcases CommonAssembler.continueWith_eq_ok h with
        ⟨rfl, rfl⟩ | ⟨m, rfl, rfl, hlen, hmkind, hmeans⟩
      · refine ⟨fun longer hlonger => ?_, fun message hmessage => by cases hmessage⟩
        obtain rfl := Option.some.inj hlonger
        exact ⟨earlier, first, front, initial, pieces ++ [body], rfl, hkind, hflag, hfront,
          hcompressed, hexpected, hflatten.symm⟩
      · refine ⟨chained_of_none rfl, fun message hmessage => ⟨earlier, _, rfl, ?_⟩⟩
        obtain rfl := Option.some.inj (Except.ok.inj hmessage)
        rw [hmkind]
        refine .chain hkind hflag hfront (append_ne_nil_of_right_ne_nil _ (by simp)) ?_ ?_
        · rw [hflatten, hlen, hexpected]
        · rw [hflatten, ← hcompressed]
          exact hmeans
    · obtain ⟨hpart, kind, hkind, hsent⟩ := CommonAssembler.start_eq_ok h
      rcases hsent with ⟨hflag, rfl, m, rfl, rfl, hmeans⟩ |
        ⟨hflag, rfl, front, initial, deadline, rfl, hfront, rfl⟩
      · refine ⟨chained_of_none hpart, fun message hmessage => ⟨packets, _, rfl, ?_⟩⟩
        obtain rfl := Option.some.inj (Except.ok.inj hmessage)
        exact .single hkind hflag hmeans
      · refine ⟨fun part hpart => ?_, fun message hmessage => by cases hmessage⟩
        obtain rfl := Option.some.inj hpart
        exact ⟨packets, header, front, initial, [], rfl, hkind, hflag, hfront, rfl, rfl,
          (append_nil _).symm⟩

theorem step_sound (hchained : Chained packets a) (call : Call) :
    Chained (packets ++ packetsOf [call]) (step bz a call).2 ∧
      Sound bz (packets ++ packetsOf [call]) (step bz a call).1 := by
  cases call with
  | tick now =>
    rw [packetsOf, filterMap_cons_none rfl, filterMap_nil, append_nil]
    refine ⟨?_, fun message hmessage => ?_⟩
    · rcases tick_part a now with hnone | ⟨hsame, -⟩
      · exact chained_of_none hnone
      · intro part hpart
        exact hchained part (hsame ▸ hpart)
    · rw [step] at hmessage
      cases htick : (a.tick now).1 with
      | error error =>
        rw [htick] at hmessage
        cases hmessage
      | ok =>
        rw [htick] at hmessage
        cases hmessage
  | close => exact ⟨chained_of_none rfl, fun message hmessage => by cases hmessage⟩
  | packet packet callerEnd admitted now budget =>
    rw [step, CommonAssembler.onPacketBudgeted]
    rcases htick : a.tick now with ⟨error | ⟨⟩, ticked⟩
    · have hpart := tick_part a now
      rw [htick] at hpart
      rcases hpart with hnone | ⟨-, hok⟩
      · exact ⟨chained_of_none hnone, fun message hmessage => by cases hmessage⟩
      · cases hok
    · dsimp only
      have hticked : Chained packets ticked := by
        have hpart := tick_part a now
        rw [htick] at hpart
        rcases hpart with hnone | ⟨hsame, -⟩
        · exact chained_of_none hnone
        · intro part hpart
          exact hchained part (hsame ▸ hpart)
      cases hconsume :
        ticked.consume bz packet callerEnd admitted now (min budget maxGroupBytes) with
      | error error => exact ⟨chained_of_none rfl, fun message hmessage => by cases hmessage⟩
      | ok result => exact consume_sound hticked hconsume

theorem packetsOf_append (front back : List Call) :
    packetsOf (front ++ back) = packetsOf front ++ packetsOf back :=
  filterMap_append

/-- The chain of every state that calls lead to is made of the last packets. -/
theorem run_chained (a : CommonAssembler) (hpart : a.part = none) (calls : List Call) :
    Chained (packetsOf calls) (run (step bz) a calls) := by
  have h := @history_invariant _ _ _ (step bz)
    (fun h a => Chained (packetsOf (h.map Prod.fst)) a) _ (chained_of_none hpart)
    (fun h a call hchained => by
      rw [map_append, packetsOf_append]
      exact (step_sound hchained call).1) calls
  rwa [map_fst_trace] at h

/-- **Packets of the common channel.** When bzip2 inverts itself, the packets of a payload hold at
most `threshold` octets after the first, and fed in order and in time to an assembler without a
chain they give nothing until the last gives the kind and the payload, and leave no chain. And
whatever calls an assembler gets, a message it gives out is made of the packets that came last: of
one that is no part of a chain, or of the first of a chain and those that go on with it, whose
lengths add up to the announced one. -/
theorem packets_round_trip (hbz : bz.Inverts) :
    (∀ (kind : CallKind) (payload : Bytes) (threshold : ℕ) (compressAbove : Option ℕ)
      (packets : List Bytes), encode bz kind payload threshold compressAbove = .ok packets →
        (∀ packet ∈ packets, packet ≠ [] ∧ (packet.drop 1).length ≤ threshold) ∧
          Delivers bz packets kind payload) ∧
      ∀ (a : CommonAssembler) (calls : List Call) (call : Call) (message : CommonMessage),
        a.part = none → (step bz (Machine.run (step bz) a calls) call).1 = .ok (some message) →
            ∃ earlier last, packetsOf (calls ++ [call]) = earlier ++ last ∧
              Assembled bz last message.kind message.payload := by
  constructor
  · intro kind payload threshold compressAbove packets h
    exact round_trip hbz h
  · intro a calls call message hpart hmessage
    rw [packetsOf_append]
    exact (step_sound (run_chained a hpart calls) call).2 message hmessage

/-! ## A compressed chain -/

/-- Sixty times `a`. -/
def sixty : Bytes := replicate 60 0x61

/-- Its bzip2 stream. -/
def sixtyStream : Bytes :=
  [0x42, 0x5a, 0x68, 0x31, 0x31, 0x41, 0x59, 0x26, 0x53, 0x59, 0xc5, 0xcf, 0x1b, 0x78, 0x00, 0x00,
    0x02, 0x09, 0x00, 0x00, 0x40, 0x20, 0x00, 0x20, 0x00, 0x21, 0x00, 0x82, 0x0b, 0x17, 0x72, 0x45,
    0x38, 0x50, 0x90, 0xc5, 0xcf, 0x1b, 0x78]

/-- What bzip2 does with this payload and its stream. The decoder counts what it has given out. -/
def sixtyBzip2 : Bzip2 where
  compress payload room :=
    if payload = sixty ∧ sixtyStream.length ≤ room then
      .ok ⟨.streamEnd, sixty.length, sixtyStream⟩
    else .error ()
  Decoder := ℕ
  start := 0
  decompress produced input room :=
    if sixty.length - produced ≤ room then
      .ok (⟨.streamEnd, input.length, sixty.drop produced⟩, sixty.length)
    else .ok (⟨.ok, 0, (sixty.drop produced).take room⟩, produced + room)

theorem inverts_sixtyBzip2 : sixtyBzip2.Inverts := by
  intro payload room progress hcompress hstatus
  simp only [sixtyBzip2] at hcompress
  split_ifs at hcompress with hpayload
  obtain ⟨rfl, hroom⟩ := hpayload
  obtain rfl := Except.ok.inj hcompress
  refine ⟨hroom, by decide, fun d consumed produced => produced = d ∧ consumed = 0,
    ⟨rfl, rfl⟩, ?_, ?_⟩
  · rintro d consumed produced ⟨-, rfl⟩
    exact Nat.zero_le _
  · rintro d consumed produced room ⟨hproduced, rfl⟩ hpos
    subst hproduced
    by_cases hlast : sixty.length - produced ≤ room
    · exact Or.inl ⟨sixty.length, if_pos hlast, hlast⟩
    · exact Or.inr ⟨0, produced + room, if_neg hlast, Nat.zero_le _, by omega, rfl, rfl⟩

/-- The packets of the container. -/
def sixtyPackets : List Bytes :=
  chain 0x30 (be 4 43 ++ be 4 60) [sixtyStream.take 8, slice sixtyStream 8 16,
    slice sixtyStream 16 24, slice sixtyStream 24 31, sixtyStream.drop 31]

theorem packets_round_trip_sixty :
    (∀ packet ∈ sixtyPackets, packet ≠ [] ∧ (packet.drop 1).length ≤ 8) ∧
      Delivers sixtyBzip2 sixtyPackets .request sixty :=
  (packets_round_trip inverts_sixtyBzip2).1 .request sixty 8 (some 1) sixtyPackets
    (toOption_eq_some.mp (by decide +kernel))

end SimMaster.Jegotrip.Common
