import SimMaster.IkeEncrypted

/-!
# Two readers of one chain

A chain of payloads is read twice in this code: in the clear behind the header of a message, and
behind the padding of a decrypted payload. The reader of messages stops at the type `noNext` and
wants the octets to end there. The other one stops where the octets end, whatever type is named
last, and takes a payload of type `noNext` for one like any other. So they agree on a chain exactly
if its payloads are ill-formed for both, or `noNext` is named at its end and nowhere before.
-/

namespace SimMaster

open Rust List Except

/-- The octets are whole payloads, and these are the types that they name for the one behind. -/
inductive WholePayloads : Bytes → List IkePayloadType → Prop
  | nil : WholePayloads [] []
  | payload (next flags : UInt8) {body rest : Bytes} {types : List IkePayloadType}
      (hlen : genericPayloadHeaderLen + body.length < 256 ^ 2) (hrest : WholePayloads rest types) :
      WholePayloads
        (next :: flags :: (be 2 (genericPayloadHeaderLen + body.length) ++ (body ++ rest)))
        (.fromU8 next :: types)

/-- `noNext` is the last of the types and no other one. -/
def EndsAtNoNext (types : List IkePayloadType) : Prop :=
  ∃ front, types = front ++ [.noNext] ∧ .noNext ∉ front

/-- If the octets are whole payloads, then `noNext` is named behind the last one and nowhere
before. -/
def ChainTerminated (first : IkePayloadType) (bytes : Bytes) : Prop :=
  ∀ types, WholePayloads bytes types → EndsAtNoNext (first :: types)

/-! ## The types of a chain -/

variable {t : IkePayloadType}

theorem endsAtNoNext_singleton : EndsAtNoNext [t] ↔ t = .noNext := by
  constructor
  · rintro ⟨front, heq, -⟩
    obtain rfl : front = [] := length_eq_zero_iff.mp (by simpa using congrArg List.length heq)
    exact singleton_inj.mp heq
  · rintro rfl
    exact ⟨[], rfl, not_mem_nil⟩

variable {types : List IkePayloadType}

theorem endsAtNoNext_cons_cons {next : IkePayloadType} :
    EndsAtNoNext (t :: next :: types) ↔ t ≠ .noNext ∧ EndsAtNoNext (next :: types) := by
  constructor
  · rintro ⟨front, heq, hfront⟩
    cases front with
    | nil => cases heq
    | cons t' front =>
      obtain ⟨rfl, htypes⟩ := cons.inj heq
      rw [mem_cons, not_or] at hfront
      exact ⟨Ne.symm hfront.1, front, htypes, hfront.2⟩
  · rintro ⟨hne, front, heq, hfront⟩
    refine ⟨t :: front, congrArg (t :: ·) heq, ?_⟩
    rw [mem_cons, not_or]
    exact ⟨Ne.symm hne, hfront⟩

/-! ## What is whole for one reader is whole for both -/

variable {payloads : List IkePayload} {current : IkePayloadType} {input : Bytes}

/-- The inner reader takes whole payloads only. -/
theorem wholePayloads_of_inner (h : decodeInnerPayloadChain current input = .ok payloads) :
    ∃ types, WholePayloads input types := by
  induction payloads generalizing current input with
  | nil =>
    rw [decodeInnerPayloadChain.eq_def] at h
    split at h
    next => exact ⟨[], .nil⟩
    next next flags hi lo rest =>
      dsimp only at h
      split at h
      next => cases h
      next =>
        obtain ⟨tail, -, h⟩ := bind_eq_ok.mp h
        cases h
    next => cases h
  | cons payload payloads ih =>
    rw [decodeInnerPayloadChain.eq_def] at h
    split at h
    next => cases h
    next next flags hi lo rest =>
      dsimp only at h
      split at h
      next => cases h
      next hfits =>
        obtain ⟨tail, htail, h⟩ := bind_eq_ok.mp h
        obtain ⟨-, rfl⟩ := cons.inj (ok.inj h)
        obtain ⟨types, htypes⟩ := ih htail
        rw [not_or, Nat.not_lt, Nat.not_lt] at hfits
        have hbody : (rest.take (fromBe [hi, lo] - 4)).length = fromBe [hi, lo] - 4 :=
          length_take_of_le hfits.2
        have hlen : genericPayloadHeaderLen + (rest.take (fromBe [hi, lo] - 4)).length =
            fromBe [hi, lo] := by
          rw [hbody, genericPayloadHeaderLen]
          omega
        have hbe : be 2 (fromBe [hi, lo]) = [hi, lo] := be_fromBe [hi, lo]
        have hlt : genericPayloadHeaderLen + (rest.take (fromBe [hi, lo] - 4)).length <
            256 ^ 2 := by
          rw [hlen]
          exact fromBe_lt [hi, lo]
        have hwhole := WholePayloads.payload next flags hlt htypes
        rw [hlen, hbe, take_append_drop] at hwhole
        exact ⟨_, hwhole⟩
    next => cases h

/-- So does the reader of messages, if nothing is left behind the chain. -/
theorem wholePayloads_of_message (h : decodePayloads current input = .ok (payloads, [])) :
    ∃ types, WholePayloads input types := by
  induction payloads generalizing current input with
  | nil =>
    by_cases hcurrent : current = .noNext
    · subst hcurrent
      rw [decodePayloads_noNext] at h
      obtain rfl := congrArg Prod.snd (ok.inj h)
      exact ⟨[], .nil⟩
    · obtain ⟨_, _, _, _, _, _, _, _, hcons⟩ := decodePayloads_inv hcurrent h
      cases hcons
  | cons payload payloads ih =>
    by_cases hcurrent : current = .noNext
    · subst hcurrent
      rw [decodePayloads_noNext] at h
      cases congrArg Prod.fst (ok.inj h)
    · obtain ⟨following, flags, body, rest, tail, hfits, rfl, hrest, hcons⟩ :=
        decodePayloads_inv hcurrent h
      obtain ⟨-, rfl⟩ := cons.inj hcons
      obtain ⟨types, htypes⟩ := ih hrest
      exact ⟨_, .payload following flags hfits htypes⟩

/-! ## The two readers on whole payloads -/

/-- Whole payloads are always read by the inner reader; the reader of messages reads the same
payloads to the end if the types end at `noNext`, and does not otherwise. -/
theorem WholePayloads.read (h : WholePayloads input types) (first : IkePayloadType) :
    ∃ payloads, decodeInnerPayloadChain first input = .ok payloads ∧
      ∀ payloads', decodePayloads first input = .ok (payloads', []) ↔
        EndsAtNoNext (first :: types) ∧ payloads' = payloads := by
  induction h generalizing first with
  | nil =>
    refine ⟨[], by rw [decodeInnerPayloadChain.eq_def], fun payloads' => ?_⟩
    rw [endsAtNoNext_singleton]
    constructor
    · intro h
      by_cases hfirst : first = .noNext
      · subst hfirst
        rw [decodePayloads_noNext] at h
        exact ⟨rfl, (congrArg Prod.fst (ok.inj h)).symm⟩
      · obtain ⟨_, _, _, _, _, _, hinput, _⟩ := decodePayloads_inv hfirst h
        cases hinput
    · rintro ⟨rfl, rfl⟩
      exact decodePayloads_noNext []
  | @payload next flags body rest types hlen hrest ih =>
    obtain ⟨payloads, hinner, hmessage⟩ := ih (.fromU8 next)
    refine ⟨⟨first, flags &&& 0x80 ≠ 0, body⟩ :: payloads, ?_, fun payloads' => ?_⟩
    · rw [decodeInnerPayloadChain_payload first next flags hlen, hinner]
      rfl
    · rw [endsAtNoNext_cons_cons]
      by_cases hfirst : first = .noNext
      · subst hfirst
        rw [decodePayloads_noNext]
        exact ⟨(fun h => by cases congrArg Prod.snd (ok.inj h)), fun h => absurd rfl h.1.1⟩
      · rw [decodePayloads_payload hfirst next flags hlen]
        constructor
        · intro h
          cases htail : decodePayloads (.fromU8 next) rest with
          | error e =>
            rw [htail] at h
            cases h
          | ok read =>
          obtain ⟨tail, behind⟩ := read
          rw [htail] at h
          obtain ⟨rfl, rfl⟩ := Prod.mk.inj (ok.inj h)
          obtain ⟨hends, rfl⟩ := (hmessage tail).mp htail
          exact ⟨⟨hfirst, hends⟩, rfl⟩
        · rintro ⟨⟨-, hends⟩, rfl⟩
          rw [(hmessage payloads).mpr ⟨hends, rfl⟩]
          rfl

/-- The readers agree on the octets if these are terminated, and only then. -/
theorem inner_agrees_iff (first : IkePayloadType) (bytes : Bytes) :
    (∀ payloads, decodeInnerPayloadChain first bytes = .ok payloads ↔
      decodePayloads first bytes = .ok (payloads, [])) ↔ ChainTerminated first bytes := by
  constructor
  · intro hagree types hwhole
    obtain ⟨payloads, hinner, hmessage⟩ := hwhole.read first
    exact ((hmessage payloads).mp ((hagree payloads).mp hinner)).1
  · intro hterminated payloads
    constructor
    · intro hinner
      obtain ⟨types, hwhole⟩ := wholePayloads_of_inner hinner
      obtain ⟨payloads', hinner', hmessage⟩ := hwhole.read first
      obtain rfl := ok.inj (hinner.symm.trans hinner')
      exact (hmessage payloads).mpr ⟨hterminated types hwhole, rfl⟩
    · intro hmessage
      obtain ⟨types, hwhole⟩ := wholePayloads_of_message hmessage
      obtain ⟨payloads', hinner, hiff⟩ := hwhole.read first
      obtain ⟨-, rfl⟩ := (hiff payloads).mp hmessage
      exact hinner

/-! ## Behind the header of a message -/

/-- The octets of a header of version 2 that fits what stands behind it. -/
structure ValidHeader (header bytes : Bytes) : Prop where
  length_eq : header.length = ikeHeaderLen
  major_eq : (decodeHeader (header ++ bytes)).majorVersion = ikev2MajorVersion
  declared_eq : (decodeHeader (header ++ bytes)).length.toNat = (header ++ bytes).length

theorem decode_valid {header bytes : Bytes} (h : ValidHeader header bytes)
    (payloads : List IkePayload) :
    (∃ message, IkeMessage.decode (header ++ bytes) = .ok message ∧ message.payloads = payloads) ↔
      decodePayloads (decodeHeader (header ++ bytes)).nextPayload bytes = .ok (payloads, []) := by
  have hdrop : (header ++ bytes).drop ikeHeaderLen = bytes := drop_left' h.length_eq
  constructor
  · rintro ⟨message, hmessage, rfl⟩
    obtain ⟨-, hheader, -, -, hread⟩ := decode_ok hmessage
    rwa [hdrop, hheader] at hread
  · intro hread
    refine ⟨⟨decodeHeader (header ++ bytes), payloads⟩, ?_, rfl⟩
    have hlong : ¬(header ++ bytes).length < ikeHeaderLen := by
      rw [length_append, h.length_eq]
      omega
    rw [IkeMessage.decode, if_neg hlong]
    rw [if_neg (not_not.mpr h.major_eq), if_neg (not_not.mpr h.declared_eq), hdrop, hread]
    rfl

/-- **When the chain readers agree.** Behind a valid header, the inner reader takes exactly the
chains that the reader of messages takes, with the same payloads, if and only if the octets are not
whole payloads or name `noNext` at their end and nowhere before. -/
theorem innerChain_agrees_iff {first : IkePayloadType} {header bytes : Bytes}
    (hheader : ValidHeader header bytes)
    (hfirst : (decodeHeader (header ++ bytes)).nextPayload = first) :
    (∀ payloads, decodeInnerPayloadChain first bytes = .ok payloads ↔
      ∃ message, IkeMessage.decode (header ++ bytes) = .ok message ∧
        message.payloads = payloads) ↔ ChainTerminated first bytes := by
  subst hfirst
  rw [← inner_agrees_iff]
  exact forall_congr' fun payloads => iff_congr Iff.rfl (decode_valid hheader payloads)

/-- A nonce of one octet that names a payload behind it, where there is none. -/
def openChain : Bytes := [40, 0, 0, 5, 7]

/-- A header of version 2 for a chain of five octets that begins with a nonce. -/
def openHeader : Bytes :=
  replicate 16 1 ++ [40, 0x20, 35, 0x08, 0, 0, 0, 0, 0, 0, 0, 33]

theorem validHeader_open : ValidHeader openHeader openChain :=
  ⟨by decide +kernel, by decide +kernel, by decide +kernel⟩

theorem innerChain_agrees_iff_open :
    (∀ payloads, decodeInnerPayloadChain .nonce openChain = .ok payloads ↔
      ∃ message, IkeMessage.decode (openHeader ++ openChain) = .ok message ∧
        message.payloads = payloads) ↔ ChainTerminated .nonce openChain :=
  innerChain_agrees_iff validHeader_open (by decide +kernel)

theorem decodePayloads_open : decodePayloads .nonce openChain = .error .truncatedPayload := by
  have hopen : openChain = 40 :: 0 :: (be 2 (genericPayloadHeaderLen + [(7 : UInt8)].length) ++
      ([7] ++ [])) := by decide +kernel
  have hend : decodePayloads (.fromU8 40) [] = .error .truncatedPayload := by
    rw [decodePayloads.eq_def, if_neg (by decide)]
  rw [hopen, decodePayloads_payload (by decide) 40 0 (by decide +kernel), hend]
  rfl

theorem decodeInnerPayloadChain_open :
    decodeInnerPayloadChain .nonce openChain = .ok [⟨.nonce, false, [7]⟩] := by
  have hopen : openChain = 40 :: 0 :: (be 2 (genericPayloadHeaderLen + [(7 : UInt8)].length) ++
      ([7] ++ [])) := by decide +kernel
  have hend : decodeInnerPayloadChain (.fromU8 40) [] = .ok [] := by
    rw [decodeInnerPayloadChain.eq_def]
  rw [hopen, decodeInnerPayloadChain_payload .nonce 40 0 (by decide +kernel), hend]
  rfl

/-- The inner reader takes the open chain and the reader of messages does not. -/
theorem openChain_disagrees : ValidHeader openHeader openChain ∧
      (decodeHeader (openHeader ++ openChain)).nextPayload = .nonce ∧
      ¬ ∀ payloads, decodeInnerPayloadChain .nonce openChain = .ok payloads ↔
        ∃ message, IkeMessage.decode (openHeader ++ openChain) = .ok message ∧
          message.payloads = payloads := by
  have hfirst : (decodeHeader (openHeader ++ openChain)).nextPayload = .nonce := by decide +kernel
  refine ⟨validHeader_open, hfirst, fun hagree => ?_⟩
  have hread := (decode_valid validHeader_open _).mp ((hagree _).mp decodeInnerPayloadChain_open)
  rw [hfirst, decodePayloads_open] at hread
  cases hread

end SimMaster
