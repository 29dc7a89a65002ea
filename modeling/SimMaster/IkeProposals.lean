import SimMaster.IkeCodec
import SimMaster.Method

/-!
# Proposals of a security association

The body of an SA payload nests three levels: proposals, the transforms of a proposal and the
attributes of a transform, each with a length of its own, and proposals with a count of their
transforms. The reader indexes and slices its input; an access that does not fit is an outcome of
its own here (`ReadFault.outOfBounds`), on which the program would stop.
-/

namespace SimMaster

open Rust Method List Option Except

/-! ## Building -/

/-- `IkeProtocolId`. -/
inductive IkeProtocolId where
  | ike
  | ah
  | esp
  deriving DecidableEq

/-- `IkeProtocolId::as_u8`. -/
def IkeProtocolId.asU8 : IkeProtocolId → UInt8
  | .ike => 1
  | .ah => 2
  | .esp => 3

/-- `TransformType`. -/
inductive TransformType where
  | encryption
  | prf
  | integrity
  | diffieHellmanGroup
  | extendedSequenceNumbers
  deriving DecidableEq

/-- `TransformType::as_u8`. -/
def TransformType.asU8 : TransformType → UInt8
  | .encryption => 1
  | .prf => 2
  | .integrity => 3
  | .diffieHellmanGroup => 4
  | .extendedSequenceNumbers => 5

/-- `TransformAttribute`. -/
inductive TransformAttribute where
  | keyLength (bits : UInt16)
  deriving DecidableEq

/-- `TransformSpec`. -/
structure TransformSpec where
  transformType : TransformType
  transformId : UInt16
  attributes : List TransformAttribute := []
  deriving DecidableEq

/-- `ProposalSpec`. -/
structure ProposalSpec where
  number : UInt8
  protocolId : IkeProtocolId
  spi : Bytes
  transforms : List TransformSpec
  deriving DecidableEq

/-- `PayloadBuildError`. -/
inductive PayloadBuildError where
  | emptyTransforms
  | tooManyTransforms (count : ℕ)
  | spiTooLarge (len : ℕ)
  | proposalTooLarge (len : ℕ)
  | transformTooLarge (len : ℕ)
  deriving DecidableEq

/-- The octets of an attribute. -/
def encodeAttribute : TransformAttribute → Bytes
  | .keyLength bits => be 2 0x800e ++ be 2 bits.toNat

/-- `encode_transform`. -/
def encodeTransform (transform : TransformSpec) (hasMore : Bool) : Except PayloadBuildError Bytes :=
  let transformLen := 8 + (transform.attributes.map fun _ => 4).sum
  if 65535 < transformLen then .error (.transformTooLarge transformLen)
  else .ok ((if hasMore then 3 else 0) :: 0 :: (be 2 transformLen ++
    (transform.transformType.asU8 :: 0 :: (be 2 transform.transformId.toNat ++
      transform.attributes.flatMap encodeAttribute))))

/-- The transforms in turn; each says whether there is one behind it. -/
def encodeTransforms : List TransformSpec → Except PayloadBuildError Bytes
  | [] => .ok []
  | transform :: rest => do
    let encoded ← encodeTransform transform (!rest.isEmpty)
    let tail ← encodeTransforms rest
    return encoded ++ tail

/-- `encode_proposal`. -/
def encodeProposal (proposal : ProposalSpec) (hasMore : Bool) : Except PayloadBuildError Bytes :=
  if proposal.transforms.isEmpty then .error .emptyTransforms
  else if 255 < proposal.transforms.length then
    .error (.tooManyTransforms proposal.transforms.length)
  else if 255 < proposal.spi.length then .error (.spiTooLarge proposal.spi.length)
  else do
    let transformBytes ← encodeTransforms proposal.transforms
    let proposalLen := 8 + proposal.spi.length + transformBytes.length
    if 65535 < proposalLen then .error (.proposalTooLarge proposalLen)
    else .ok ((if hasMore then 2 else 0) :: 0 :: (be 2 proposalLen ++
      (proposal.number :: proposal.protocolId.asU8 :: UInt8.ofNat proposal.spi.length ::
        UInt8.ofNat proposal.transforms.length :: (proposal.spi ++ transformBytes))))

def encodeProposals : List ProposalSpec → Except PayloadBuildError Bytes
  | [] => .ok []
  | proposal :: rest => do
    let encoded ← encodeProposal proposal (!rest.isEmpty)
    let tail ← encodeProposals rest
    return encoded ++ tail

/-- `build_sa_payload`. -/
def buildSaPayload (proposals : List ProposalSpec) : Except PayloadBuildError IkePayload := do
  let body ← encodeProposals proposals
  return ⟨.securityAssociation, false, body⟩

/-! ## Reading -/

/-- `SaParseError`. -/
inductive SaParseError where
  | truncatedProposal
  | truncatedTransform
  | invalidProposalLength (declared : ℕ)
  | invalidTransformLength (declared : ℕ)
  | invalidAttributeLength (declared : ℕ)
  | spiExceedsProposal (spiSize proposalLen : ℕ)
  | transformCountMismatch (declared parsed : ℕ)
  deriving DecidableEq

/-- How a reader fails: with an error of its own, or by an access that does not fit its input. -/
inductive ReadFault where
  | outOfBounds
  | invalid (error : SaParseError)
  deriving DecidableEq

/-- `ParsedTransformAttribute`. -/
structure ParsedTransformAttribute where
  attributeType : UInt16
  value : UInt16
  deriving DecidableEq

/-- `ParsedTransform`. -/
structure ParsedTransform where
  transformType : UInt8
  transformId : UInt16
  attributes : List ParsedTransformAttribute
  deriving DecidableEq

/-- `ParsedProposal`. -/
structure ParsedProposal where
  number : UInt8
  protocolId : UInt8
  spiSize : UInt8
  spiPresent : Bool
  spi : Bytes
  transforms : List ParsedTransform
  deriving DecidableEq

/-- `input[i]`. -/
def readOctet (input : Bytes) (i : ℕ) : Except ReadFault UInt8 := okOr .outOfBounds input[i]?

/-- `&input[i..j]`. -/
def readRange (input : Bytes) (i j : ℕ) : Except ReadFault Bytes :=
  okOr .outOfBounds (getRange input i j)

/-- `u16::from_be_bytes` of two octets. -/
def readU16 (input : Bytes) (i : ℕ) : Except ReadFault UInt16 :=
  (readRange input i (i + 2)).map fun bytes => .ofNat (fromBe bytes)

variable {i : ℕ}

theorem length_getFrom {data rest : Bytes} (h : getFrom data i = some rest) :
    i + rest.length = data.length := by
  rw [getFrom] at h
  split at h
  next hle =>
    obtain rfl := some.inj h
    rw [length_drop]
    omega
  next => cases h

/-- `parse_transform_attributes`. -/
def parseTransformAttributes (input : Bytes) : Except ReadFault (List ParsedTransformAttribute) :=
  if _hempty : input.length = 0 then .ok []
  else if input.length < 4 then .error (.invalid (.invalidAttributeLength input.length))
  else do
    let attributeType ← readU16 input 0
    let value ← readU16 input 2
    if attributeType &&& 0x8000 ≠ 0 then
      match hrest : getFrom input 4 with
      | none => .error .outOfBounds
      | some rest => do
        let attributes ← parseTransformAttributes rest
        return ⟨attributeType &&& 0x7fff, value⟩ :: attributes
    else if _hlen : value.toNat < 4 ∨ input.length < value.toNat then
      .error (.invalid (.invalidAttributeLength value.toNat))
    else
      match hrest : getFrom input value.toNat with
      | none => .error .outOfBounds
      | some rest => do
        let attributes ← parseTransformAttributes rest
        return ⟨attributeType, value⟩ :: attributes
termination_by input.length
decreasing_by all_goals have := length_getFrom hrest; omega

/-- `parse_transforms`. -/
def parseTransforms (input : Bytes) : Except ReadFault (List ParsedTransform) :=
  if _hempty : input.length = 0 then .ok []
  else if input.length < 8 then .error (.invalid .truncatedTransform)
  else do
    let transformLen ← readU16 input 2
    if _hlen : transformLen.toNat < 8 then
      .error (.invalid (.invalidTransformLength transformLen.toNat))
    else if input.length < transformLen.toNat then .error (.invalid .truncatedTransform)
    else do
      let transformType ← readOctet input 4
      let transformId ← readU16 input 6
      let attributeBytes ← readRange input 8 transformLen.toNat
      let attributes ← parseTransformAttributes attributeBytes
      match hrest : getFrom input transformLen.toNat with
      | none => .error .outOfBounds
      | some rest => do
        let transforms ← parseTransforms rest
        return ⟨transformType, transformId, attributes⟩ :: transforms
termination_by input.length
decreasing_by have := length_getFrom hrest; omega

/-- The loop of `parse_sa_payload`, from an offset on. -/
def parseProposals (body : Bytes) (offset : ℕ) : Except ReadFault (List ParsedProposal) :=
  if _hmore : offset < body.length then
    if body.length - offset < 8 then .error (.invalid .truncatedProposal)
    else do
      let proposalLen ← readU16 body (offset + 2)
      if _hlen : proposalLen.toNat < 8 then
        .error (.invalid (.invalidProposalLength proposalLen.toNat))
      else
        let stop := offset + proposalLen.toNat
        if body.length < stop then .error (.invalid .truncatedProposal)
        else do
          let number ← readOctet body (offset + 4)
          let protocolId ← readOctet body (offset + 5)
          let spiSize ← readOctet body (offset + 6)
          let transformCount ← readOctet body (offset + 7)
          let spiStart := offset + 8
          let transformStart := spiStart + spiSize.toNat
          if stop < transformStart then
            .error (.invalid (.spiExceedsProposal spiSize.toNat proposalLen.toNat))
          else do
            let spi ← readRange body spiStart transformStart
            let transformBytes ← readRange body transformStart stop
            let transforms ← parseTransforms transformBytes
            if transforms.length ≠ transformCount.toNat then
              .error (.invalid (.transformCountMismatch transformCount.toNat transforms.length))
            else do
              let proposals ← parseProposals body (offset + proposalLen.toNat)
              return ⟨number, protocolId, spiSize, 0 < spiSize, spi, transforms⟩ :: proposals
  else .ok []
termination_by body.length - offset
decreasing_by omega

/-- `parse_sa_payload`. -/
def parseSaPayload (body : Bytes) : Except ReadFault (List ParsedProposal) := parseProposals body 0

/-! ## Accesses that fit -/

variable {input : Bytes} (front back : Bytes)

theorem readOctet_of_eq {b : UInt8}
    (h : input = front ++ b :: back) (hi : i = front.length) : readOctet input i = .ok b := by
  subst h hi
  rw [readOctet, getElem?_append_right le_rfl, Nat.sub_self]
  rfl

variable {j : ℕ}

theorem readRange_of_eq (front mid back : Bytes)
    (h : input = front ++ (mid ++ back)) (hi : i = front.length)
    (hj : j = front.length + mid.length) : readRange input i j = .ok mid := by
  subst h hi hj
  have hfit : front.length ≤ front.length + mid.length ∧
      front.length + mid.length ≤ (front ++ (mid ++ back)).length := by
    simp only [length_append]
    omega
  rw [readRange, getRange, if_pos hfit, drop_left, Nat.add_sub_cancel_left, take_left]
  rfl

theorem readU16_of_eq {v : ℕ}
    (h : input = front ++ (be 2 v ++ back)) (hi : i = front.length) (hv : v < 65536) :
    readU16 input i = .ok (.ofNat v) := by
  rw [readU16, readRange_of_eq front (be 2 v) back h hi (by rw [hi, length_be])]
  exact congrArg (fun n => Except.ok (UInt16.ofNat n)) (fromBe_be hv)

theorem getFrom_of_eq (h : input = front ++ back)
    (hi : i = front.length) : getFrom input i = some back := by
  subst h hi
  rw [getFrom, if_pos (by rw [length_append]; omega), drop_left]

/-- The fault is not an access that does not fit. -/
def Fits (fault : ReadFault) : Prop := fault ≠ .outOfBounds

theorem fits_invalid {α : Type} (error : SaParseError) :
    Raises Fits (.error (.invalid error) : Except ReadFault α) := Raises.error (by rintro ⟨⟩)

theorem readOctet_fits (h : i < input.length) : Raises Fits (readOctet input i) := by
  rw [readOctet, getElem?_eq_getElem h]
  exact Raises.ok _

theorem readRange_fits (hij : i ≤ j) (hj : j ≤ input.length) :
    Raises Fits (readRange input i j) := by
  rw [readRange, getRange, if_pos ⟨hij, hj⟩]
  exact Raises.ok _

theorem readU16_fits (h : i + 2 ≤ input.length) : Raises Fits (readU16 input i) := by
  rw [readU16, readRange, getRange, if_pos ⟨Nat.le_add_right i 2, h⟩]
  exact Raises.ok _

theorem getFrom_fits (h : i ≤ input.length) : getFrom input i ≠ none := by
  rw [getFrom, if_pos h]
  exact some_ne_none _

theorem parseTransformAttributes_fits (input : Bytes) :
    Raises Fits (parseTransformAttributes input) := by
  induction hn : input.length using Nat.strong_induction_on generalizing input with
  | _ n ih =>
    rw [parseTransformAttributes.eq_def]
    split
    next => exact Raises.ok _
    next hempty =>
    split
    next => exact fits_invalid _
    next hlong =>
    refine Raises.bind (readU16_fits (by omega)) fun attributeType => ?_
    refine Raises.bind (readU16_fits (by omega)) fun value => ?_
    split
    next =>
      split
      next hnone => exact absurd hnone (getFrom_fits (by omega))
      next rest hrest =>
        have := length_getFrom hrest
        exact Raises.bind (ih rest.length (by omega) rest rfl) fun _ => Raises.ok _
    next =>
      split
      next => exact fits_invalid _
      next hlen =>
      split
      next hnone => exact absurd hnone (getFrom_fits (by omega))
      next rest hrest =>
        have := length_getFrom hrest
        exact Raises.bind (ih rest.length (by omega) rest rfl) fun _ => Raises.ok _

theorem parseTransforms_fits (input : Bytes) : Raises Fits (parseTransforms input) := by
  induction hn : input.length using Nat.strong_induction_on generalizing input with
  | _ n ih =>
    rw [parseTransforms.eq_def]
    split
    next => exact Raises.ok _
    next hempty =>
    split
    next => exact fits_invalid _
    next hlong =>
    refine Raises.bind (readU16_fits (by omega)) fun transformLen => ?_
    split
    next => exact fits_invalid _
    next hlen =>
    split
    next => exact fits_invalid _
    next hfits =>
    refine Raises.bind (readOctet_fits (by omega)) fun transformType => ?_
    refine Raises.bind (readU16_fits (by omega)) fun transformId => ?_
    refine Raises.bind (readRange_fits (by omega) (by omega)) fun attributeBytes => ?_
    refine Raises.bind (parseTransformAttributes_fits attributeBytes) fun attributes => ?_
    split
    next hnone => exact absurd hnone (getFrom_fits (by omega))
    next rest hrest =>
      have := length_getFrom hrest
      exact Raises.bind (ih rest.length (by omega) rest rfl) fun _ => Raises.ok _

theorem parseProposals_fits (body : Bytes) (offset : ℕ) :
    Raises Fits (parseProposals body offset) := by
  induction hn : body.length - offset using Nat.strong_induction_on generalizing offset with
  | _ n ih =>
    rw [parseProposals.eq_def]
    split
    next hmore =>
      split
      next => exact fits_invalid _
      next hlong =>
      refine Raises.bind (readU16_fits (by omega)) fun proposalLen => ?_
      split
      next => exact fits_invalid _
      next hlen =>
      dsimp only
      split
      next => exact fits_invalid _
      next hstop =>
      refine Raises.bind (readOctet_fits (by omega)) fun number => ?_
      refine Raises.bind (readOctet_fits (by omega)) fun protocolId => ?_
      refine Raises.bind (readOctet_fits (by omega)) fun spiSize => ?_
      refine Raises.bind (readOctet_fits (by omega)) fun transformCount => ?_
      split
      next => exact fits_invalid _
      next hspi =>
      refine Raises.bind (readRange_fits (by omega) (by omega)) fun spi => ?_
      refine Raises.bind (readRange_fits (by omega) (by omega)) fun transformBytes => ?_
      refine Raises.bind (parseTransforms_fits transformBytes) fun transforms => ?_
      split
      next => exact fits_invalid _
      next =>
        exact Raises.bind (ih _ (by omega) (offset + proposalLen.toNat) rfl) fun _ => Raises.ok _
    next => exact Raises.ok _

/-! ## Reading what was built -/

/-- What is read from an attribute. -/
def TransformAttribute.parsed : TransformAttribute → ParsedTransformAttribute
  | .keyLength bits => ⟨14, bits⟩

/-- What is read from a transform. -/
def TransformSpec.parsed (transform : TransformSpec) : ParsedTransform :=
  ⟨transform.transformType.asU8, transform.transformId,
    transform.attributes.map TransformAttribute.parsed⟩

/-- What is read from a proposal. -/
def ProposalSpec.parsed (proposal : ProposalSpec) : ParsedProposal where
  number := proposal.number
  protocolId := proposal.protocolId.asU8
  spiSize := UInt8.ofNat proposal.spi.length
  spiPresent := !proposal.spi.isEmpty
  spi := proposal.spi
  transforms := proposal.transforms.map TransformSpec.parsed

theorem parseTransformAttributes_nil : parseTransformAttributes [] = .ok [] := by
  rw [parseTransformAttributes.eq_def]
  rfl

theorem parseTransforms_nil : parseTransforms [] = .ok [] := by
  rw [parseTransforms.eq_def]
  rfl

theorem parseTransformAttributes_encode (attributes : List TransformAttribute) :
    parseTransformAttributes (attributes.flatMap encodeAttribute) =
      .ok (attributes.map TransformAttribute.parsed) := by
  induction attributes with
  | nil => exact parseTransformAttributes_nil
  | cons first attributes ih =>
    obtain ⟨bits⟩ := first
    generalize hrest : attributes.flatMap encodeAttribute = rest at ih
    have hinput : (TransformAttribute.keyLength bits :: attributes).flatMap encodeAttribute =
        be 2 0x800e ++ (be 2 bits.toNat ++ rest) := by
      rw [flatMap_cons, hrest, encodeAttribute, append_assoc]
    have hlen : (be 2 0x800e ++ (be 2 bits.toNat ++ rest)).length = 4 + rest.length := by
      simp only [length_append, length_be]
      omega
    have htype : readU16 (be 2 0x800e ++ (be 2 bits.toNat ++ rest)) 0 = .ok 0x800e :=
      readU16_of_eq (v := 0x800e) [] (be 2 bits.toNat ++ rest) rfl rfl (by decide)
    have hvalue : readU16 (be 2 0x800e ++ (be 2 bits.toNat ++ rest)) 2 = .ok bits := by
      rw [readU16_of_eq (be 2 0x800e) rest rfl (length_be 2 _).symm bits.toNat_lt,
        UInt16.ofNat_toNat]
    have hbehind : getFrom (be 2 0x800e ++ (be 2 bits.toNat ++ rest)) 4 = some rest :=
      getFrom_of_eq (be 2 0x800e ++ be 2 bits.toNat) rest (by simp) (by simp)
    rw [hinput, parseTransformAttributes.eq_def, dif_neg (by omega), if_neg (by omega), htype,
      ok_bind, hvalue, ok_bind, if_pos (by decide)]
    split
    next hnone => cases hnone.symm.trans hbehind
    next behind hsome =>
      obtain rfl := some.inj (hsome.symm.trans hbehind)
      rw [ih]
      rfl

variable {transform : TransformSpec} {hasMore : Bool} {encoded : Bytes}

theorem encodeTransform_ok (h : encodeTransform transform hasMore = .ok encoded) :
    ∃ more len, len = 8 + (transform.attributes.flatMap encodeAttribute).length ∧ len < 65536 ∧
      encoded.length = len ∧
      encoded = more :: 0 :: (be 2 len ++ (transform.transformType.asU8 :: 0 ::
        (be 2 transform.transformId.toNat ++ transform.attributes.flatMap encodeAttribute))) := by
  have hsum : (transform.attributes.flatMap encodeAttribute).length =
      (transform.attributes.map fun _ => 4).sum := by
    rw [length_flatMap]
    refine congrArg List.sum (map_congr_left fun attr _ => ?_)
    simp [encodeAttribute]
  rw [encodeTransform] at h
  split at h
  next => cases h
  next hfits =>
    obtain rfl := ok.inj h
    refine ⟨_, _, by rw [hsum], by omega, ?_, rfl⟩
    simp only [length_cons, length_append, length_be, hsum]
    omega

/-- One transform in front of others is read. -/
theorem parseTransforms_encodeTransform (h : encodeTransform transform hasMore = .ok encoded)
    (rest : Bytes) :
    parseTransforms (encoded ++ rest) =
      (parseTransforms rest).map fun transforms => transform.parsed :: transforms := by
  obtain ⟨more, len, hlen, hlt, hlength, hencoded⟩ := encodeTransform_ok h
  generalize hattributes :
    transform.attributes.flatMap encodeAttribute = attributes at hlen hencoded
  have hlenNat : (UInt16.ofNat len).toNat = len := UInt16.toNat_ofNat_of_lt' hlt
  have htotal : (encoded ++ rest).length = len + rest.length := by
    rw [length_append, hlength]
  -- what stands at each place of the transform
  have hlenRead : readU16 (encoded ++ rest) 2 = .ok (.ofNat len) :=
    readU16_of_eq [more, 0] (transform.transformType.asU8 :: 0 ::
      (be 2 transform.transformId.toNat ++ (attributes ++ rest))) (by simp [hencoded]) rfl hlt
  have htype : readOctet (encoded ++ rest) 4 = .ok transform.transformType.asU8 :=
    readOctet_of_eq (more :: 0 :: be 2 len)
      (0 :: (be 2 transform.transformId.toNat ++ (attributes ++ rest)))
        (by simp [hencoded]) (by simp)
  have hid : readU16 (encoded ++ rest) 6 = .ok transform.transformId := by
    rw [readU16_of_eq (more :: 0 :: (be 2 len ++ [transform.transformType.asU8, 0]))
      (attributes ++ rest) (by simp [hencoded]) (by simp) transform.transformId.toNat_lt,
      UInt16.ofNat_toNat]
  have hrange : readRange (encoded ++ rest) 8 len = .ok attributes :=
    readRange_of_eq (more :: 0 :: (be 2 len ++ (transform.transformType.asU8 :: 0 ::
      be 2 transform.transformId.toNat))) attributes rest (by simp [hencoded]) (by simp)
      (by simp [hlen])
  rw [parseTransforms.eq_def, dif_neg (by omega), if_neg (by omega), hlenRead, ok_bind, hlenNat,
    dif_neg (by omega), if_neg (by omega), htype, ok_bind, hid, ok_bind, hrange, ok_bind,
    ← hattributes, parseTransformAttributes_encode, ok_bind]
  have hbehind : getFrom (encoded ++ rest) len = some rest :=
    getFrom_of_eq encoded rest rfl hlength.symm
  split
  next hnone => cases hnone.symm.trans hbehind
  next behind hsome =>
    obtain rfl := some.inj (hsome.symm.trans hbehind)
    cases parseTransforms behind with
    | error e => rfl
    | ok transforms => rfl

theorem parseTransforms_encodeTransforms {transforms : List TransformSpec}
    (h : encodeTransforms transforms = .ok encoded) :
    parseTransforms encoded = .ok (transforms.map TransformSpec.parsed) := by
  induction transforms generalizing encoded with
  | nil =>
    obtain rfl : [] = encoded := ok.inj h
    exact parseTransforms_nil
  | cons transform transforms ih =>
    obtain ⟨first, hfirst, h⟩ := bind_eq_ok.mp h
    obtain ⟨tail, htail, h⟩ := bind_eq_ok.mp h
    obtain rfl := ok.inj h
    rw [parseTransforms_encodeTransform hfirst, ih htail]
    rfl

variable {proposal : ProposalSpec}

theorem encodeProposal_ok (h : encodeProposal proposal hasMore = .ok encoded) :
    ∃ more len transformBytes, encodeTransforms proposal.transforms = .ok transformBytes ∧
      proposal.transforms.length < 256 ∧ proposal.spi.length < 256 ∧
      len = 8 + proposal.spi.length + transformBytes.length ∧ len < 65536 ∧
      encoded = more :: 0 :: (be 2 len ++ (proposal.number :: proposal.protocolId.asU8 ::
        UInt8.ofNat proposal.spi.length :: UInt8.ofNat proposal.transforms.length ::
          (proposal.spi ++ transformBytes))) := by
  rw [encodeProposal] at h
  split at h
  next => cases h
  split at h
  next => cases h
  next hcount =>
  split at h
  next => cases h
  next hspi =>
  obtain ⟨transformBytes, htransforms, h⟩ := bind_eq_ok.mp h
  dsimp only at h
  split at h
  next => cases h
  next hfits =>
    obtain rfl := ok.inj h
    exact ⟨_, _, transformBytes, htransforms, by omega, by omega, rfl, by omega, rfl⟩

theorem spiPresent_eq {spi : Bytes} (h : spi.length < 256) :
    decide (0 < UInt8.ofNat spi.length) = !spi.isEmpty := by
  cases spi with
  | nil => rfl
  | cons b spi =>
    have hpos : 0 < UInt8.ofNat (b :: spi).length := by
      rw [UInt8.lt_iff_toNat_lt, UInt8.toNat_ofNat_of_lt' h]
      exact Nat.succ_pos _
    exact decide_eq_true hpos

/-- One proposal, at the place where the reader is, is read. -/
theorem parseProposals_encodeProposal
    (h : encodeProposal proposal hasMore = .ok encoded) (before rest : Bytes) :
    parseProposals (before ++ (encoded ++ rest)) before.length =
      (parseProposals (before ++ (encoded ++ rest)) (before ++ encoded).length).map
        fun proposals => proposal.parsed :: proposals := by
  obtain ⟨more, len, transformBytes, htransforms, hcount, hspi, hlen, hlt, hencoded⟩ :=
    encodeProposal_ok h
  have hlength : encoded.length = len := by
    rw [hencoded, hlen]
    simp only [length_cons, length_append, length_be]
    omega
  have hbody : (before ++ (encoded ++ rest)).length = before.length + len + rest.length := by
    simp only [length_append, hlength]
    omega
  have hlenNat : (UInt16.ofNat len).toNat = len := UInt16.toNat_ofNat_of_lt' hlt
  have hspiNat : (UInt8.ofNat proposal.spi.length).toNat = proposal.spi.length :=
    UInt8.toNat_ofNat_of_lt' hspi
  have hcountNat : (UInt8.ofNat proposal.transforms.length).toNat = proposal.transforms.length :=
    UInt8.toNat_ofNat_of_lt' hcount
  have hnext : (before ++ encoded).length = before.length + len := by
    rw [length_append, hlength]
  have hread := parseTransforms_encodeTransforms htransforms
  generalize hinput : before ++ (encoded ++ rest) = body at hbody
  -- what stands at each place of the proposal
  have hlenRead : readU16 body (before.length + 2) = .ok (.ofNat len) :=
    readU16_of_eq (before ++ [more, 0]) (proposal.number :: proposal.protocolId.asU8 ::
      UInt8.ofNat proposal.spi.length :: UInt8.ofNat proposal.transforms.length ::
        (proposal.spi ++ (transformBytes ++ rest))) (by simp [← hinput, hencoded]) (by simp) hlt
  have hnumber : readOctet body (before.length + 4) = .ok proposal.number :=
    readOctet_of_eq (before ++ (more :: 0 :: be 2 len)) (proposal.protocolId.asU8 ::
      UInt8.ofNat proposal.spi.length :: UInt8.ofNat proposal.transforms.length ::
        (proposal.spi ++ (transformBytes ++ rest))) (by simp [← hinput, hencoded]) (by simp)
  have hprotocol : readOctet body (before.length + 5) = .ok proposal.protocolId.asU8 :=
    readOctet_of_eq (before ++ (more :: 0 :: (be 2 len ++ [proposal.number])))
      (UInt8.ofNat proposal.spi.length :: UInt8.ofNat proposal.transforms.length ::
        (proposal.spi ++ (transformBytes ++ rest))) (by simp [← hinput, hencoded]) (by simp)
  have hsize : readOctet body (before.length + 6) = .ok (UInt8.ofNat proposal.spi.length) :=
    readOctet_of_eq
      (before ++ (more :: 0 :: (be 2 len ++ [proposal.number, proposal.protocolId.asU8])))
      (UInt8.ofNat proposal.transforms.length :: (proposal.spi ++ (transformBytes ++ rest)))
      (by simp [← hinput, hencoded]) (by simp)
  have hcountRead : readOctet body (before.length + 7) =
      .ok (UInt8.ofNat proposal.transforms.length) :=
    readOctet_of_eq (before ++ (more :: 0 :: (be 2 len ++
      [proposal.number, proposal.protocolId.asU8, UInt8.ofNat proposal.spi.length])))
      (proposal.spi ++ (transformBytes ++ rest)) (by simp [← hinput, hencoded]) (by simp)
  have hspiRead : readRange body (before.length + 8) (before.length + 8 + proposal.spi.length) =
      .ok proposal.spi :=
    readRange_of_eq (before ++ (more :: 0 :: (be 2 len ++ [proposal.number,
      proposal.protocolId.asU8, UInt8.ofNat proposal.spi.length,
      UInt8.ofNat proposal.transforms.length]))) proposal.spi (transformBytes ++ rest)
      (by simp [← hinput, hencoded]) (by simp) (by simp)
  have htransformsRead : readRange body (before.length + 8 + proposal.spi.length)
      (before.length + len) = .ok transformBytes :=
    readRange_of_eq (before ++ (more :: 0 :: (be 2 len ++ (proposal.number ::
      proposal.protocolId.asU8 :: UInt8.ofNat proposal.spi.length ::
        UInt8.ofNat proposal.transforms.length :: proposal.spi)))) transformBytes rest
      (by simp [← hinput, hencoded]) (by simp; omega) (by simp; omega)
  rw [hnext, parseProposals.eq_def, dif_pos (by omega), if_neg (by omega), hlenRead, ok_bind,
    hlenNat, dif_neg (by omega)]
  rw [if_neg (by omega), hnumber, ok_bind, hprotocol, ok_bind, hsize, ok_bind, hcountRead, ok_bind,
    hspiNat, hcountNat, if_neg (by omega), hspiRead, ok_bind, htransformsRead, ok_bind, hread,
    ok_bind, if_neg (by rw [length_map]; exact not_not.mpr rfl)]
  rw [spiPresent_eq hspi]
  cases parseProposals body (before.length + len) with
  | error e => rfl
  | ok proposals => rfl

theorem parseProposals_encodeProposals {proposals : List ProposalSpec}
    (h : encodeProposals proposals = .ok encoded) (before : Bytes) :
    parseProposals (before ++ encoded) before.length = .ok (proposals.map ProposalSpec.parsed) := by
  induction proposals generalizing encoded before with
  | nil =>
    obtain rfl : [] = encoded := ok.inj h
    rw [parseProposals.eq_def, append_nil, dif_neg (Nat.lt_irrefl _)]
    rfl
  | cons proposal proposals ih =>
    obtain ⟨first, hfirst, h⟩ := bind_eq_ok.mp h
    obtain ⟨tail, htail, h⟩ := bind_eq_ok.mp h
    obtain rfl := ok.inj h
    have hrest := ih htail (before ++ first)
    rw [append_assoc] at hrest
    rw [parseProposals_encodeProposal hfirst before tail, hrest]
    rfl

/-- **Round trip of an SA payload.** A body that was built from proposals is read as these
proposals in turn, with their numbers, protocols, SPIs and transforms and the key lengths of these,
and no octets at all make the reader reach outside of them. -/
theorem saPayload_round_trip : (∀ proposals payload, buildSaPayload proposals = .ok payload →
      parseSaPayload payload.body = .ok (proposals.map ProposalSpec.parsed)) ∧
    ∀ body, parseSaPayload body ≠ .error .outOfBounds := by
  refine ⟨fun proposals payload h => ?_, fun body h => ?_⟩
  · obtain ⟨body, hbody, h⟩ := bind_eq_ok.mp h
    obtain rfl := Except.ok.inj h
    exact parseProposals_encodeProposals hbody []
  · exact parseProposals_fits body 0 .outOfBounds h rfl

/-- A proposal of one cipher with a key of 128 bits, and one of an integrity algorithm. -/
theorem saPayload_round_trip_two_proposals :
    parseSaPayload [2, 0, 0, 24, 1, 3, 4, 1, 9, 8, 7, 6, 0, 0, 0, 12, 1, 0, 0, 12, 0x80, 14, 0, 128,
        0, 0, 0, 16, 2, 1, 0, 1, 0, 0, 0, 8, 3, 0, 0, 2] =
      .ok [⟨1, 3, 4, true, [9, 8, 7, 6], [⟨1, 12, [⟨14, 128⟩]⟩]⟩,
        ⟨2, 1, 0, false, [], [⟨3, 2, []⟩]⟩] :=
  saPayload_round_trip.1
    [⟨1, .esp, [9, 8, 7, 6], [⟨.encryption, 12, [.keyLength 128]⟩]⟩,
      ⟨2, .ike, [], [⟨.integrity, 2, []⟩]⟩]
    ⟨.securityAssociation, false, _⟩ (by decide +kernel)

end SimMaster
