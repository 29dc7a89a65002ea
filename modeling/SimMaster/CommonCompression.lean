import SimMaster.BatchScheduler

/-!
# Compressed payloads

A payload may travel as a container: its length in four octets and a bzip2 stream. The library is a
parameter. A call of its decoder takes in as much input and gives out as much output as it can, so
it stops at the end of the stream or when there is no more room (`Bzip2.Decodes`); `decompress`
calls it a second time with one octet of room for what it has not taken in when the output just
fits.
-/

namespace SimMaster.Jegotrip.Common

open Rust List

inductive CompressionError where
  | tooLarge
  | length
  | stream
  deriving DecidableEq

/-! ## The library -/

/-- `bzip2::Status`. -/
inductive Status where
  | ok
  | flushOk
  | runOk
  | finishOk
  | streamEnd
  | memNeeded
  deriving DecidableEq

/-- What a call of the library has done: the octets it took in and those it gave out. -/
structure Progress where
  status : Status
  consumed : ℕ
  output : Bytes

/-- The bzip2 library. -/
structure Bzip2 where
  /-- `Compress::compress` with `Action::Finish`, called once with this much room -/
  compress : (payload : Bytes) → (room : ℕ) → Except Unit Progress
  Decoder : Type
  start : Decoder
  /-- `Decompress::decompress` -/
  decompress : Decoder → (input : Bytes) → (room : ℕ) → Except Unit (Progress × Decoder)

namespace Bzip2

variable (bz : Bzip2)

/-- A decoder that has taken in `consumed` octets of the stream and given out `produced` of the
payload goes on, given the rest and room for at least one octet, to the end of the stream or until
the room is full. -/
def Continues (stream payload : Bytes) (At : bz.Decoder → ℕ → ℕ → Prop) : Prop :=
  ∀ d consumed produced room, At d consumed produced → 0 < room →
    (∃ d', bz.decompress d (stream.drop consumed) room =
        .ok (⟨.streamEnd, stream.length - consumed, payload.drop produced⟩, d') ∧
      payload.length - produced ≤ room) ∨
    ∃ taken d', bz.decompress d (stream.drop consumed) room =
        .ok (⟨.ok, taken, (payload.drop produced).take room⟩, d') ∧
      consumed + taken ≤ stream.length ∧ produced + room ≤ payload.length ∧
      At d' (consumed + taken) (produced + room)

/-- The decoder gives out the payload for the stream. -/
def Decodes (stream payload : Bytes) : Prop :=
  ∃ At : bz.Decoder → ℕ → ℕ → Prop, At bz.start 0 0 ∧
    (∀ d consumed produced, At d consumed produced → consumed ≤ stream.length) ∧
    bz.Continues stream payload At

/-- `BZh` and the digit of a block size. -/
def hasMagic (stream : Bytes) : Bool :=
  slice stream 0 3 = "BZh".toList.map (fun c => UInt8.ofNat c.toNat) ∧
    stream[3]?.any fun level => 0x31 ≤ level && level ≤ 0x39

/-- A stream that ends with the room it was given starts as bzip2 streams do, and is decoded. -/
def Inverts : Prop :=
  ∀ payload room progress, bz.compress payload room = .ok progress → progress.status = .streamEnd →
    progress.output.length ≤ room ∧ hasMagic progress.output = true ∧
      bz.Decodes progress.output payload

end Bzip2

/-! ## The container -/

variable (bz : Bzip2)

def tryCompress (payload : Bytes) : Except CompressionError (Option Bytes) :=
  if payload.isEmpty then .error .length
  else if maxStreamBytes < payload.length then .error .tooLarge
  else
    let budget := payload.length * 3 / 4
    if budget ≤ 4 then .ok none
    else
      match bz.compress payload (budget - 4) with
      | .error () => .error .stream
      | .ok progress =>
        if progress.status ≠ .streamEnd ∨ progress.consumed ≠ payload.length ∨
            budget - 4 ≤ progress.output.length then .ok none
        else .ok (some (be 4 payload.length ++ progress.output))

def uncompressedLength (container : Bytes) : Except CompressionError ℕ :=
  if maxStreamBytes < container.length then .error .tooLarge
  else
    match getRange container 0 4 with
    | none => .error .length
    | some front =>
      let expected := fromBe front
      if expected = 0 then .error .length
      else if maxStreamBytes < expected then .error .tooLarge
      else .ok expected

/-- The calls of the decoder; `out` is what it has given out. -/
def decompressLoop (input : Bytes) (expected : ℕ) : (calls : ℕ) → bz.Decoder → (consumed : ℕ) →
    (out : Bytes) → Except CompressionError Bytes
  | 0, _, _, _ => .error .stream
  | calls + 1, decoder, consumed, out =>
    -- one octet detects excess output while the end of the stream is taken in
    let room := if out.length = expected then 1 else expected - out.length
    match bz.decompress decoder (input.drop consumed) room with
    | .error () => .error .stream
    | .ok (progress, decoder) =>
      let consumed' := consumed + progress.consumed
      let out' := out ++ progress.output
      if input.length < consumed' ∨ expected < out'.length then .error .length
      else if progress.status = .streamEnd then
        if consumed' ≠ input.length ∨ out'.length ≠ expected then .error .length else .ok out'
      else if progress.status ≠ .ok ∨ (consumed', out'.length) = (consumed, out.length) then
        .error .stream
      else decompressLoop input expected calls decoder consumed' out'

def decompress (container : Bytes) : Except CompressionError Bytes := do
  let expected ← uncompressedLength container
  let input := container.drop 4
  if !Bzip2.hasMagic input then throw .stream
  decompressLoop bz input expected 4 bz.start 0 []

/-! ## The round trip -/

variable {bz}

variable {stream payload : Bytes}

theorem decompressLoop_of_decodes (h : bz.Decodes stream payload) (hpos : 0 < payload.length) :
    decompressLoop bz stream payload.length 4 bz.start 0 [] = .ok payload := by
  obtain ⟨At, hstart, hbound, hcontinues⟩ := h
  have hroom : (if 0 = payload.length then 1 else payload.length - 0) = payload.length :=
    if_neg hpos.ne
  rw [decompressLoop]
  simp only [length_nil, Nat.sub_zero, drop_zero] at hroom ⊢
  rw [hroom]
  rcases hcontinues _ _ _ _ hstart hpos with ⟨d, heq, -⟩ | ⟨taken, d, heq, htaken, -, hat⟩
  · rw [drop_zero] at heq
    simp [heq]
  · rw [drop_zero] at heq
    have hprogress : ¬((0 + taken, payload.length) = (0, 0)) := by
      intro hpair
      exact hpos.ne' (Prod.mk.inj hpair).2
    simp only [heq, nil_append, drop_zero, take_length]
    rw [if_neg (by omega), if_neg (by decide), if_neg (not_or.mpr ⟨fun hne => hne rfl, hprogress⟩),
      decompressLoop]
    dsimp only
    rw [if_pos rfl]
    -- the payload is complete, so only the end of the stream is left
    rcases hcontinues _ _ _ 1 hat Nat.one_pos with ⟨d', hend, -⟩ | ⟨_, _, -, -, hmore, -⟩
    · have hlast := hbound _ _ _ hat
      rw [hend]
      simp [Nat.add_sub_of_le (Nat.zero_add taken ▸ hlast)]
    · omega

variable {container : Bytes}

/-- What a container of `try_compress` is. -/
theorem tryCompress_eq_some (h : tryCompress bz payload = .ok (some container)) :
    ∃ progress, bz.compress payload (payload.length * 3 / 4 - 4) = .ok progress ∧
      progress.status = .streamEnd ∧ 0 < payload.length ∧ payload.length ≤ maxStreamBytes ∧
      container = be 4 payload.length ++ progress.output ∧
      progress.output.length < payload.length * 3 / 4 - 4 := by
  rw [tryCompress] at h
  split_ifs at h with hempty hlarge
  rw [List.isEmpty_iff] at hempty
  dsimp only at h
  split at h
  case isTrue => cases h
  case isFalse =>
    cases hcompress : bz.compress payload (payload.length * 3 / 4 - 4) with
    | error error =>
      rw [hcompress] at h
      cases h
    | ok progress =>
      rw [hcompress] at h
      dsimp only at h
      split at h
      case isTrue => cases h
      case isFalse hfits =>
        obtain ⟨hstatus, hfits⟩ := not_or.mp hfits
        obtain ⟨-, hlen⟩ := not_or.mp hfits
        exact ⟨progress, rfl, not_not.mp hstatus, length_pos_iff.mpr hempty, by omega,
          (Option.some.inj (Except.ok.inj h)).symm, by omega⟩

theorem uncompressedLength_be {n : ℕ} (hpos : 0 < n) (hle : n ≤ maxStreamBytes)
    (hlen : stream.length + 4 ≤ maxStreamBytes) :
    uncompressedLength (be 4 n ++ stream) = .ok n := by
  have hfront : getRange (be 4 n ++ stream) 0 4 = some (be 4 n) := by
    rw [getRange, if_pos ⟨Nat.zero_le _, by rw [length_append, length_be]; omega⟩, drop_zero,
      take_left' (length_be 4 n)]
  have hvalue : fromBe (be 4 n) = n := fromBe_be (by rw [maxStreamBytes] at hle; omega)
  rw [uncompressedLength, if_neg (by rw [length_append, length_be]; omega), hfront]
  dsimp only
  rw [hvalue, if_neg hpos.ne', if_neg (by omega)]

/-- **Compression.** A container is decompressed to the payload it was made from. -/
theorem decompress_of_tryCompress (hbz : bz.Inverts)
    (h : tryCompress bz payload = .ok (some container)) :
    decompress bz container = .ok payload := by
  obtain ⟨progress, hcompress, hstatus, hpos, hle, rfl, hlen⟩ := tryCompress_eq_some h
  obtain ⟨-, hmagic, hdecodes⟩ := hbz _ _ _ hcompress hstatus
  have hinput : (be 4 payload.length ++ progress.output).drop 4 = progress.output :=
    drop_left' (length_be 4 _)
  rw [decompress, uncompressedLength_be hpos hle (by omega), ok_bind]
  simp only [hinput, hmagic]
  exact decompressLoop_of_decodes hdecodes hpos

end SimMaster.Jegotrip.Common
