import SimMaster.IkeKeys
import SimMaster.IkeProposals

/-!
# The key schedule

From the nonces and the shared secret all keys of a security association are derived: a seed is
expanded by a keyed function into a stream (`prfPlus`), and the stream is cut into the keys one
after the other. The lengths come from the algorithms of the proposal, each with its own. Cutting
takes slices, so a derivation has an option for its result: `none` is a slice that does not fit, on
which the program would stop. It never does (`key_expansion`).
-/

namespace SimMaster

open Rust List Option

/-! ## Algorithms -/

inductive IkePrfAlgorithm where
  | hmacMd5
  | hmacSha1
  | hmacSha256
  | hmacSha384
  | hmacSha512
  deriving DecidableEq

namespace IkePrfAlgorithm

def fromTransformId (transformId : UInt16) : Option IkePrfAlgorithm :=
  if transformId = 1 then some hmacMd5
  else if transformId = 2 then some hmacSha1
  else if transformId = 5 then some hmacSha256
  else if transformId = 6 then some hmacSha384
  else if transformId = 7 then some hmacSha512
  else none

def asStr : IkePrfAlgorithm → String
  | hmacMd5 => "hmac_md5"
  | hmacSha1 => "hmac_sha1"
  | hmacSha256 => "hmac_sha256"
  | hmacSha384 => "hmac_sha384"
  | hmacSha512 => "hmac_sha512"

def outputLen : IkePrfAlgorithm → ℕ
  | hmacMd5 => 16
  | hmacSha1 => 20
  | hmacSha256 => 32
  | hmacSha384 => 48
  | hmacSha512 => 64

/-- `ring_algorithm`: the library has none for MD5. -/
def ringAlgorithm : IkePrfAlgorithm → Option HmacAlgorithm
  | hmacMd5 => none
  | hmacSha1 => some .sha1
  | hmacSha256 => some .sha256
  | hmacSha384 => some .sha384
  | hmacSha512 => some .sha512

end IkePrfAlgorithm

inductive IkeIntegrityAlgorithm where
  | hmacMd5_96
  | hmacSha1_96
  | hmacSha256_128
  | hmacSha384_192
  | hmacSha512_256
  deriving DecidableEq

namespace IkeIntegrityAlgorithm

def fromTransformId (transformId : UInt16) : Option IkeIntegrityAlgorithm :=
  if transformId = 1 then some hmacMd5_96
  else if transformId = 2 then some hmacSha1_96
  else if transformId = 12 then some hmacSha256_128
  else if transformId = 13 then some hmacSha384_192
  else if transformId = 14 then some hmacSha512_256
  else none

def asStr : IkeIntegrityAlgorithm → String
  | hmacMd5_96 => "hmac_md5_96"
  | hmacSha1_96 => "hmac_sha1_96"
  | hmacSha256_128 => "hmac_sha256_128"
  | hmacSha384_192 => "hmac_sha384_192"
  | hmacSha512_256 => "hmac_sha512_256"

def keyLen : IkeIntegrityAlgorithm → ℕ
  | hmacMd5_96 => 16
  | hmacSha1_96 => 20
  | hmacSha256_128 => 32
  | hmacSha384_192 => 48
  | hmacSha512_256 => 64

end IkeIntegrityAlgorithm

inductive IkeKeyError where
  | missingPrfTransform
  | missingEncryptionTransform
  | missingIntegrityTransform
  | missingEncryptionKeyLength
  | unsupportedPrf (id : UInt16)
  | unsupportedPrfName (name : String)
  | unsupportedEncryption (id : UInt16)
  | unsupportedIntegrity (id : UInt16)
  | emptySharedSecret
  | emptyNonce
  | outputTooLarge (size : ℕ)
  deriving DecidableEq

/-! ## Plans -/

def findTransform (proposal : ProposalSpec) (transformType : TransformType) :
    Option TransformSpec :=
  proposal.transforms.find? fun transform => transform.transformType = transformType

def TransformAttribute.keyBits : TransformAttribute → ℕ
  | .keyLength bits => bits.toNat

def encryptionKeyBits (transform : TransformSpec) : Option ℕ :=
  transform.attributes.head?.map TransformAttribute.keyBits

/-- `ENCR_AES_CBC` is the only cipher. -/
def encryptionName (transformId : UInt16) : Except IkeKeyError String :=
  if transformId = 12 then .ok "aes_cbc" else .error (.unsupportedEncryption transformId)

def buildKeySchedulePlan (proposal : ProposalSpec) : Except IkeKeyError IkeKeySchedulePlan := do
  let prfTransform ← okOr .missingPrfTransform (findTransform proposal .prf)
  let encryptionTransform ← okOr .missingEncryptionTransform (findTransform proposal .encryption)
  let integrityTransform ← okOr .missingIntegrityTransform (findTransform proposal .integrity)
  let prf ← okOr (.unsupportedPrf prfTransform.transformId)
    (IkePrfAlgorithm.fromTransformId prfTransform.transformId)
  let encryption ← encryptionName encryptionTransform.transformId
  let encryptionKeyBits ← okOr .missingEncryptionKeyLength (encryptionKeyBits encryptionTransform)
  let integrity ← okOr (.unsupportedIntegrity integrityTransform.transformId)
    (IkeIntegrityAlgorithm.fromTransformId integrityTransform.transformId)
  return {
    prf := prf.asStr
    encryption
    integrity := integrity.asStr
    prfOutputBytes := prf.outputLen
    encryptionKeyBytes := encryptionKeyBits / 8
    integrityKeyBytes := integrity.keyLen
    totalSecretBytes := prf.outputLen * 3 + integrity.keyLen * 2 + encryptionKeyBits / 8 * 2 }

def buildChildSaKeySchedulePlan (espProposal : ProposalSpec) :
    Except IkeKeyError ChildSaKeySchedulePlan := do
  let encryptionTransform ←
    okOr .missingEncryptionTransform (findTransform espProposal .encryption)
  let integrityTransform ← okOr .missingIntegrityTransform (findTransform espProposal .integrity)
  let encryption ← encryptionName encryptionTransform.transformId
  let encryptionKeyBits ← okOr .missingEncryptionKeyLength (encryptionKeyBits encryptionTransform)
  let integrity ← okOr (.unsupportedIntegrity integrityTransform.transformId)
    (IkeIntegrityAlgorithm.fromTransformId integrityTransform.transformId)
  return {
    encryption
    integrity := integrity.asStr
    encryptionKeyBytes := encryptionKeyBits / 8
    integrityKeyBytes := integrity.keyLen
    directionSecretBytes := encryptionKeyBits / 8 + integrity.keyLen
    totalSecretBytes := (encryptionKeyBits / 8 + integrity.keyLen) * 2 }

def prfFromPlan (plan : IkeKeySchedulePlan) : Except IkeKeyError IkePrfAlgorithm :=
  if plan.prf = "hmac_md5" then .ok .hmacMd5
  else if plan.prf = "hmac_sha1" then .ok .hmacSha1
  else if plan.prf = "hmac_sha256" then .ok .hmacSha256
  else if plan.prf = "hmac_sha384" then .ok .hmacSha384
  else if plan.prf = "hmac_sha512" then .ok .hmacSha512
  else .error (.unsupportedPrfName plan.prf)

/-! ## The stream -/

section

variable (c : Ciphers) (prf : IkePrfAlgorithm) (key seed : Bytes)

/-- `prf_digest`, and `prf_once` of the same octets. -/
def prfDigest (data : Bytes) : Bytes := c.sign prf.ringAlgorithm key data

/-- The loop of `prf_plus`. The first argument bounds the rounds: each adds an octet at least. -/
def prfPlusLoop (outputLen : ℕ) : ℕ → UInt8 → Bytes → Bytes → Bytes
  | 0, _, _, out => out
  | rounds + 1, counter, previous, out =>
    if outputLen ≤ out.length then out
    else
      let previous := prfDigest c prf key (previous ++ seed ++ [counter])
      prfPlusLoop outputLen rounds (UInt8.ofNat (min (counter.toNat + 1) 255)) previous
        (out ++ previous)

def prfPlus (outputLen : ℕ) : Except IkeKeyError Bytes :=
  if 255 * prf.outputLen < outputLen then .error (.outputTooLarge outputLen)
  else .ok ((prfPlusLoop c prf key seed outputLen outputLen 1 [] []).take outputLen)

end

/-! ## Cutting it -/

/-- `take_secret`: the secret and the offset behind it. -/
def takeSecret (input : Bytes) (offset len : ℕ) : Option (Bytes × ℕ) :=
  (getRange input offset (offset + len)).map (·, offset + len)

/-- The secrets of an IKE security association, cut from the expanded seed. -/
def cutIkeSecrets (skeyseed expanded : Bytes) (plan : IkeKeySchedulePlan) :
    Option IkeSecretBundle := do
  let offset := 0
  let (skD, offset) ← takeSecret expanded offset plan.prfOutputBytes
  let (skAi, offset) ← takeSecret expanded offset plan.integrityKeyBytes
  let (skAr, offset) ← takeSecret expanded offset plan.integrityKeyBytes
  let (skEi, offset) ← takeSecret expanded offset plan.encryptionKeyBytes
  let (skEr, offset) ← takeSecret expanded offset plan.encryptionKeyBytes
  let (skPi, offset) ← takeSecret expanded offset plan.prfOutputBytes
  let (skPr, _) ← takeSecret expanded offset plan.prfOutputBytes
  return { skeyseed, skD, skAi, skAr, skEi, skEr, skPi, skPr, plan }

/-- The seed of the IKE keys. -/
def ikeSeed (initiatorNonce responderNonce : Bytes) (initiatorSpi responderSpi : UInt64) : Bytes :=
  initiatorNonce ++ responderNonce ++ be 8 initiatorSpi.toNat ++ be 8 responderSpi.toNat

def deriveIkeSecretBundle (c : Ciphers) (proposal : ProposalSpec)
    (initiatorNonce responderNonce : Bytes) (initiatorSpi responderSpi : UInt64)
    (sharedSecret : Bytes) : Except IkeKeyError (Option IkeSecretBundle) := do
  if sharedSecret.isEmpty then
    throw .emptySharedSecret
  if initiatorNonce.isEmpty ∨ responderNonce.isEmpty then
    throw .emptyNonce
  let plan ← buildKeySchedulePlan proposal
  let prfTransform ← okOr .missingPrfTransform (findTransform proposal .prf)
  let prf ← okOr (.unsupportedPrf prfTransform.transformId)
    (IkePrfAlgorithm.fromTransformId prfTransform.transformId)
  let skeyseed := prfDigest c prf (initiatorNonce ++ responderNonce) sharedSecret
  let expanded ← prfPlus c prf skeyseed
    (ikeSeed initiatorNonce responderNonce initiatorSpi responderSpi) plan.totalSecretBytes
  return cutIkeSecrets skeyseed expanded plan

/-- The secrets of a child security association, cut from the expanded seed. -/
def cutChildSaSecrets (expanded : Bytes) (plan : ChildSaKeySchedulePlan) :
    Option ChildSaSecretPair := do
  let offset := 0
  let (outboundEncryption, offset) ← takeSecret expanded offset plan.encryptionKeyBytes
  let (outboundIntegrity, offset) ← takeSecret expanded offset plan.integrityKeyBytes
  let (inboundEncryption, offset) ← takeSecret expanded offset plan.encryptionKeyBytes
  let (inboundIntegrity, _) ← takeSecret expanded offset plan.integrityKeyBytes
  return { outboundEncryption, outboundIntegrity, inboundEncryption, inboundIntegrity, plan }

def deriveChildSaSecretPair (c : Ciphers) (ikeBundle : IkeSecretBundle)
    (espProposal : ProposalSpec) (initiatorNonce responderNonce : Bytes) :
    Except IkeKeyError (Option ChildSaSecretPair) := do
  if initiatorNonce.isEmpty ∨ responderNonce.isEmpty then
    throw .emptyNonce
  let plan ← buildChildSaKeySchedulePlan espProposal
  let prf ← prfFromPlan ikeBundle.plan
  let expanded ← prfPlus c prf ikeBundle.skD (initiatorNonce ++ responderNonce)
    plan.totalSecretBytes
  return cutChildSaSecrets expanded plan

/-! ## What the stream is -/

section

variable (c : Ciphers) (prf : IkePrfAlgorithm) (key seed : Bytes)

/-- The blocks `T0`, which is empty, `T1`, `T2`, ...: each is made from the one before, the seed and
its own number. -/
def prfBlock : ℕ → Bytes
  | 0 => []
  | i + 1 => prfDigest c prf key (prfBlock i ++ seed ++ [UInt8.ofNat (i + 1)])

/-- `T1 | T2 | ... | Tk`. -/
def prfStream (k : ℕ) : Bytes := (range k).flatMap fun i => prfBlock c prf key seed (i + 1)

end

section

variable {c : Ciphers} {prf : IkePrfAlgorithm} {key seed : Bytes}

theorem IkePrfAlgorithm.outputLen_pos (prf : IkePrfAlgorithm) : 0 < prf.outputLen := by
  cases prf <;> decide

theorem length_prfDigest (hc : c.Lawful) (data : Bytes) :
    (prfDigest c prf key data).length = prf.outputLen := by
  rw [prfDigest, hc.length_sign]
  cases prf <;> rfl

theorem prfStream_succ (k : ℕ) : prfStream c prf key seed (k + 1) =
    prfStream c prf key seed k ++ prfBlock c prf key seed (k + 1) := by
  rw [prfStream, range_succ, flatMap_append, flatMap_singleton]
  rfl

theorem length_prfStream (hc : c.Lawful) (k : ℕ) :
    (prfStream c prf key seed k).length = k * prf.outputLen := by
  induction k with
  | zero => exact (Nat.zero_mul _).symm
  | succ k ih =>
    rw [prfStream_succ, length_append, ih, prfBlock, length_prfDigest hc, Nat.succ_mul]

variable {k l : ℕ}

theorem prfStream_prefix (h : k ≤ l) :
    prfStream c prf key seed k <+: prfStream c prf key seed l := by
  induction l, h using Nat.le_induction with
  | base => exact prefix_rfl
  | succ l _ ih =>
    rw [prfStream_succ]
    exact ih.trans (prefix_append _ _)

variable {n : ℕ}

/-- Where enough is there already, more of the stream makes no difference. -/
theorem take_prfStream (hc : c.Lawful) (hn : n ≤ k * prf.outputLen) (h : k ≤ l) :
    (prfStream c prf key seed k).take n = (prfStream c prf key seed l).take n := by
  obtain ⟨rest, hrest⟩ : prfStream c prf key seed k <+: prfStream c prf key seed l :=
    prfStream_prefix h
  rw [← hrest, take_append_of_le_length]
  rw [length_prfStream hc]
  exact hn

/-- The loop, after `k` rounds: the counter is at the number of the next block, as long as there is
a next block. -/
theorem take_prfPlusLoop (hc : c.Lawful) {rounds : ℕ} {counter : UInt8}
    (hn : n ≤ 255 * prf.outputLen) (hk : k ≤ 255) (hcounter : counter.toNat = min (k + 1) 255)
    (hrounds : n ≤ k * prf.outputLen + rounds) :
    (prfPlusLoop c prf key seed n rounds counter (prfBlock c prf key seed k)
      (prfStream c prf key seed k)).take n = (prfStream c prf key seed 255).take n := by
  induction rounds generalizing k counter with
  | zero => exact take_prfStream hc hrounds hk
  | succ rounds ih =>
    rw [prfPlusLoop, length_prfStream hc]
    split
    · next hdone => exact take_prfStream hc hdone hk
    · next hmore =>
      have hlt : k < 255 := by
        by_contra hge
        obtain rfl : k = 255 := by omega
        omega
      have hnumber : counter = UInt8.ofNat (k + 1) := by
        rw [← UInt8.ofNat_toNat (x := counter), hcounter, Nat.min_eq_left (by omega)]
      have hblock : prfDigest c prf key (prfBlock c prf key seed k ++ seed ++ [counter]) =
          prfBlock c prf key seed (k + 1) := by
        rw [hnumber, prfBlock]
      dsimp only
      rw [hblock, ← prfStream_succ]
      refine ih hlt ?_ ?_
      · rw [UInt8.toNat_ofNat_of_lt' (by rw [UInt8.size]; omega), hcounter]
        omega
      · rw [Nat.succ_mul]
        omega

/-- **The expansion.** What is asked for is the beginning of the stream of 255 blocks. -/
theorem prfPlus_eq (hc : c.Lawful) (key seed : Bytes) (hn : n ≤ 255 * prf.outputLen) :
    prfPlus c prf key seed n = .ok ((prfStream c prf key seed 255).take n) := by
  have hloop : (prfPlusLoop c prf key seed n n 1 (prfBlock c prf key seed 0)
      (prfStream c prf key seed 0)).take n = (prfStream c prf key seed 255).take n :=
    take_prfPlusLoop hc hn (Nat.zero_le _) rfl (by omega)
  rw [prfPlus, if_neg (Nat.not_lt.mpr hn)]
  exact congrArg Except.ok hloop

theorem length_of_prfPlus (hc : c.Lawful) {out : Bytes}
    (h : prfPlus c prf key seed n = .ok out) : out.length = n := by
  by_cases hn : n ≤ 255 * prf.outputLen
  · rw [prfPlus_eq hc key seed hn] at h
    rw [← Except.ok.inj h, length_take, length_prfStream hc]
    omega
  · rw [prfPlus, if_pos (Nat.lt_of_not_le hn)] at h
    cases h

end

/-! ## The keys -/

theorem takeSecret_eq {input : Bytes} {offset len : ℕ} (h : offset + len ≤ input.length) :
    takeSecret input offset len = some (slice input offset (offset + len), offset + len) := by
  rw [takeSecret, getRange, if_pos ⟨Nat.le_add_right _ _, h⟩]
  rfl

/-- Slices that follow each other. -/
theorem slice_append_slice (data : Bytes) {i j k : ℕ} (hij : i ≤ j) (hjk : j ≤ k) :
    slice data i j ++ slice data j k = slice data i k := by
  have hdrop : data.drop j = (data.drop i).drop (j - i) := by
    rw [drop_drop, Nat.add_sub_cancel' hij]
  have htake : k - i = (j - i) + (k - j) := by omega
  rw [slice, slice, slice, hdrop, htake, take_add]

theorem slice_zero_length {data : Bytes} {n : ℕ} (h : data.length = n) : slice data 0 n = data := by
  rw [slice, drop_zero, Nat.sub_zero, ← h, take_length]

/-- The keys of the bundle, in the order in which they are cut. -/
def IkeSecretBundle.keys (bundle : IkeSecretBundle) : List Bytes :=
  [bundle.skD, bundle.skAi, bundle.skAr, bundle.skEi, bundle.skEr, bundle.skPi, bundle.skPr]

/-- The lengths they have by the plan. -/
def IkeKeySchedulePlan.keyLengths (plan : IkeKeySchedulePlan) : List ℕ :=
  [plan.prfOutputBytes, plan.integrityKeyBytes, plan.integrityKeyBytes, plan.encryptionKeyBytes,
    plan.encryptionKeyBytes, plan.prfOutputBytes, plan.prfOutputBytes]

def ChildSaSecretPair.keys (pair : ChildSaSecretPair) : List Bytes :=
  [pair.outboundEncryption, pair.outboundIntegrity, pair.inboundEncryption, pair.inboundIntegrity]

def ChildSaKeySchedulePlan.keyLengths (plan : ChildSaKeySchedulePlan) : List ℕ :=
  [plan.encryptionKeyBytes, plan.integrityKeyBytes, plan.encryptionKeyBytes,
    plan.integrityKeyBytes]

variable {expanded : Bytes} {plan : IkeKeySchedulePlan}

/-- The keys cover what is cut, one after the other, each as long as planned. -/
theorem cutIkeSecrets_eq (skeyseed : Bytes) (h : expanded.length = plan.keyLengths.sum) :
    ∃ bundle, cutIkeSecrets skeyseed expanded plan = some bundle ∧ bundle.skeyseed = skeyseed ∧
      bundle.plan = plan ∧ bundle.keys.flatten = expanded ∧
      bundle.keys.map List.length = plan.keyLengths := by
  simp only [IkeKeySchedulePlan.keyLengths, sum_cons, sum_nil, Nat.add_zero] at h ⊢
  rw [cutIkeSecrets]
  dsimp only
  rw [takeSecret_eq (by omega), bind_eq_bind, bind_some, takeSecret_eq (by omega),
    bind_some, takeSecret_eq (by omega), bind_some, takeSecret_eq (by omega),
    bind_some, takeSecret_eq (by omega), bind_some, takeSecret_eq (by omega),
    bind_some, takeSecret_eq (by omega), bind_some]
  refine ⟨_, rfl, rfl, rfl, ?_, ?_⟩
  · simp only [IkeSecretBundle.keys, flatten_cons, flatten_nil, append_nil]
    rw [slice_append_slice _ (by omega) (by omega), slice_append_slice _ (by omega) (by omega),
      slice_append_slice _ (by omega) (by omega), slice_append_slice _ (by omega) (by omega),
      slice_append_slice _ (by omega) (by omega), slice_append_slice _ (by omega) (by omega)]
    exact slice_zero_length (by omega)
  · simp only [IkeSecretBundle.keys, map_cons, map_nil, cons.injEq, and_true]
    refine ⟨?_, ?_, ?_, ?_, ?_, ?_, ?_⟩ <;>
    · rw [length_slice (by omega)]
      omega

theorem cutChildSaSecrets_eq {plan : ChildSaKeySchedulePlan}
    (h : expanded.length = plan.keyLengths.sum) :
    ∃ pair, cutChildSaSecrets expanded plan = some pair ∧ pair.plan = plan ∧
      pair.keys.flatten = expanded ∧ pair.keys.map List.length = plan.keyLengths := by
  simp only [ChildSaKeySchedulePlan.keyLengths, sum_cons, sum_nil, Nat.add_zero] at h ⊢
  rw [cutChildSaSecrets]
  dsimp only
  rw [takeSecret_eq (by omega), bind_eq_bind, bind_some, takeSecret_eq (by omega),
    bind_some, takeSecret_eq (by omega), bind_some, takeSecret_eq (by omega), bind_some]
  refine ⟨_, rfl, rfl, ?_, ?_⟩
  · simp only [ChildSaSecretPair.keys, flatten_cons, flatten_nil, append_nil]
    rw [slice_append_slice _ (by omega) (by omega), slice_append_slice _ (by omega) (by omega),
      slice_append_slice _ (by omega) (by omega)]
    exact slice_zero_length (by omega)
  · simp only [ChildSaSecretPair.keys, map_cons, map_nil, cons.injEq, and_true]
    refine ⟨?_, ?_, ?_, ?_⟩ <;>
    · rw [length_slice (by omega)]
      omega

/-! ## Derivations -/

variable {proposal : ProposalSpec}

theorem buildKeySchedulePlan_ok (h : buildKeySchedulePlan proposal = .ok plan) :
    ∃ transform prf, findTransform proposal .prf = some transform ∧
      IkePrfAlgorithm.fromTransformId transform.transformId = some prf ∧
      plan.prf = prf.asStr ∧ plan.prfOutputBytes = prf.outputLen ∧
      plan.totalSecretBytes = plan.keyLengths.sum := by
  obtain ⟨transform, htransform, h⟩ := bind_eq_ok.mp h
  obtain ⟨encryptionTransform, -, h⟩ := bind_eq_ok.mp h
  obtain ⟨integrityTransform, -, h⟩ := bind_eq_ok.mp h
  obtain ⟨prf, hprf, h⟩ := bind_eq_ok.mp h
  obtain ⟨encryption, -, h⟩ := bind_eq_ok.mp h
  obtain ⟨bits, -, h⟩ := bind_eq_ok.mp h
  obtain ⟨integrity, -, h⟩ := bind_eq_ok.mp h
  cases h
  refine ⟨transform, prf, okOr_eq_ok.mp htransform, okOr_eq_ok.mp hprf, rfl, rfl, ?_⟩
  simp only [IkeKeySchedulePlan.keyLengths, sum_cons, sum_nil]
  omega

variable {espProposal : ProposalSpec}

theorem buildChildSaKeySchedulePlan_ok {plan : ChildSaKeySchedulePlan}
    (h : buildChildSaKeySchedulePlan espProposal = .ok plan) :
    plan.totalSecretBytes = plan.keyLengths.sum := by
  obtain ⟨encryptionTransform, -, h⟩ := bind_eq_ok.mp h
  obtain ⟨integrityTransform, -, h⟩ := bind_eq_ok.mp h
  obtain ⟨encryption, -, h⟩ := bind_eq_ok.mp h
  obtain ⟨bits, -, h⟩ := bind_eq_ok.mp h
  obtain ⟨integrity, -, h⟩ := bind_eq_ok.mp h
  cases h
  simp only [ChildSaKeySchedulePlan.keyLengths, sum_cons, sum_nil]
  omega

section

variable {c : Ciphers} {initiatorNonce responderNonce : Bytes}

/-- With all its inputs there and algorithms that are supported, an IKE security association gets
its keys if the stream is long enough, and a refusal if it is not. -/
theorem deriveIkeSecretBundle_eq (hc : c.Lawful) {sharedSecret : Bytes}
    (initiatorSpi responderSpi : UInt64)
    (hplan : buildKeySchedulePlan proposal = .ok plan) (hshared : sharedSecret ≠ [])
    (hinitiator : initiatorNonce ≠ []) (hresponder : responderNonce ≠ []) :
    ∃ prf : IkePrfAlgorithm, plan.prf = prf.asStr ∧ plan.prfOutputBytes = prf.outputLen ∧
      (plan.totalSecretBytes ≤ 255 * prf.outputLen →
        ∃ bundle, deriveIkeSecretBundle c proposal initiatorNonce responderNonce initiatorSpi
            responderSpi sharedSecret = .ok (some bundle) ∧ bundle.plan = plan ∧
          bundle.skeyseed = prfDigest c prf (initiatorNonce ++ responderNonce) sharedSecret ∧
          prfPlus c prf bundle.skeyseed
            (ikeSeed initiatorNonce responderNonce initiatorSpi responderSpi)
            plan.totalSecretBytes = .ok bundle.keys.flatten ∧
          bundle.keys.map List.length = plan.keyLengths) ∧
      (255 * prf.outputLen < plan.totalSecretBytes →
        deriveIkeSecretBundle c proposal initiatorNonce responderNonce initiatorSpi
          responderSpi sharedSecret = .error (.outputTooLarge plan.totalSecretBytes)) := by
  obtain ⟨transform, prf, htransform, hprf, hname, houtput, htotal⟩ := buildKeySchedulePlan_ok hplan
  have hderive : deriveIkeSecretBundle c proposal initiatorNonce responderNonce initiatorSpi
      responderSpi sharedSecret =
      (prfPlus c prf (prfDigest c prf (initiatorNonce ++ responderNonce) sharedSecret)
        (ikeSeed initiatorNonce responderNonce initiatorSpi responderSpi)
        plan.totalSecretBytes >>= fun expanded => .ok (cutIkeSecrets
          (prfDigest c prf (initiatorNonce ++ responderNonce) sharedSecret) expanded plan)) := by
    have hempty : ¬(sharedSecret.isEmpty = true) := by rwa [List.isEmpty_iff]
    have hnonces : ¬(initiatorNonce.isEmpty = true ∨ responderNonce.isEmpty = true) := by
      rw [List.isEmpty_iff, List.isEmpty_iff]
      exact not_or.mpr ⟨hinitiator, hresponder⟩
    rw [deriveIkeSecretBundle, if_neg hempty, if_neg hnonces, hplan, htransform]
    dsimp only [okOr]
    simp only [bind, Except.bind, pure, Except.pure, hprf]
  refine ⟨prf, hname, houtput, fun hfits => ?_, fun hlarge => ?_⟩
  · have hexpanded := prfPlus_eq hc
      (prfDigest c prf (initiatorNonce ++ responderNonce) sharedSecret)
      (ikeSeed initiatorNonce responderNonce initiatorSpi responderSpi) hfits
    have hlen := length_of_prfPlus hc hexpanded
    obtain ⟨bundle, hcut, hseed, hbundle, hkeys, hlengths⟩ := cutIkeSecrets_eq
      (prfDigest c prf (initiatorNonce ++ responderNonce) sharedSecret) (hlen.trans htotal)
    refine ⟨bundle, ?_, hbundle, hseed, ?_, hlengths⟩
    · rw [hderive, hexpanded]
      exact congrArg Except.ok hcut
    · rw [hseed, hkeys, hexpanded]
  · rw [hderive, prfPlus, if_pos hlarge]
    rfl

variable {prf : IkePrfAlgorithm}

/-- The same of a child security association. -/
theorem deriveChildSaSecretPair_eq (hc : c.Lawful) {ikeBundle : IkeSecretBundle}
    {plan : ChildSaKeySchedulePlan} (hprf : ikeBundle.plan.prf = prf.asStr)
    (hplan : buildChildSaKeySchedulePlan espProposal = .ok plan) (hinitiator : initiatorNonce ≠ [])
    (hresponder : responderNonce ≠ []) : (plan.totalSecretBytes ≤ 255 * prf.outputLen →
      ∃ pair, deriveChildSaSecretPair c ikeBundle espProposal initiatorNonce responderNonce =
          .ok (some pair) ∧ pair.plan = plan ∧
        prfPlus c prf ikeBundle.skD (initiatorNonce ++ responderNonce) plan.totalSecretBytes =
          .ok pair.keys.flatten ∧ pair.keys.map List.length = plan.keyLengths) ∧
    (255 * prf.outputLen < plan.totalSecretBytes →
      deriveChildSaSecretPair c ikeBundle espProposal initiatorNonce responderNonce =
        .error (.outputTooLarge plan.totalSecretBytes)) := by
  have htotal := buildChildSaKeySchedulePlan_ok hplan
  have hname : prfFromPlan ikeBundle.plan = .ok prf := by
    rw [prfFromPlan, hprf]
    cases prf <;> rfl
  have hderive : deriveChildSaSecretPair c ikeBundle espProposal initiatorNonce responderNonce =
      (prfPlus c prf ikeBundle.skD (initiatorNonce ++ responderNonce) plan.totalSecretBytes >>=
        fun expanded => .ok (cutChildSaSecrets expanded plan)) := by
    have hnonces : ¬(initiatorNonce.isEmpty = true ∨ responderNonce.isEmpty = true) := by
      rw [List.isEmpty_iff, List.isEmpty_iff]
      exact not_or.mpr ⟨hinitiator, hresponder⟩
    rw [deriveChildSaSecretPair, if_neg hnonces, hplan]
    simp only [bind, Except.bind, pure, Except.pure, hname]
  refine ⟨fun hfits => ?_, fun hlarge => ?_⟩
  · have hexpanded := prfPlus_eq hc ikeBundle.skD
      (initiatorNonce ++ responderNonce) hfits
    have hlen := length_of_prfPlus hc hexpanded
    obtain ⟨pair, hcut, hpair, hkeys, hlengths⟩ := cutChildSaSecrets_eq (hlen.trans htotal)
    refine ⟨pair, ?_, hpair, ?_, hlengths⟩
    · rw [hderive, hexpanded]
      exact congrArg Except.ok hcut
    · rw [hkeys, hexpanded]
  · rw [hderive, prfPlus, if_pos hlarge]
    rfl

/-- No slice is out of range, whatever the inputs. -/
theorem deriveIkeSecretBundle_ne_none (hc : c.Lawful) (proposal : ProposalSpec)
    (initiatorSpi responderSpi : UInt64) (sharedSecret : Bytes) :
    deriveIkeSecretBundle c proposal initiatorNonce responderNonce initiatorSpi responderSpi
      sharedSecret ≠ .ok none := by
  intro h
  rw [deriveIkeSecretBundle] at h
  split at h
  case isTrue => cases h
  split at h
  case isTrue => cases h
  obtain ⟨plan, hplan, h⟩ := bind_eq_ok.mp h
  obtain ⟨transform, -, h⟩ := bind_eq_ok.mp h
  obtain ⟨prf, -, h⟩ := bind_eq_ok.mp h
  obtain ⟨expanded, hexpanded, h⟩ := bind_eq_ok.mp h
  obtain ⟨-, -, -, -, -, -, htotal⟩ := buildKeySchedulePlan_ok hplan
  obtain ⟨bundle, hcut, -⟩ := cutIkeSecrets_eq
    (prfDigest c prf (initiatorNonce ++ responderNonce) sharedSecret)
    ((length_of_prfPlus hc hexpanded).trans htotal)
  cases (Except.ok.inj h).symm.trans hcut

theorem deriveChildSaSecretPair_ne_none (hc : c.Lawful) (ikeBundle : IkeSecretBundle)
    (espProposal : ProposalSpec) :
    deriveChildSaSecretPair c ikeBundle espProposal initiatorNonce responderNonce ≠ .ok none := by
  intro h
  rw [deriveChildSaSecretPair] at h
  split at h
  case isTrue => cases h
  obtain ⟨plan, hplan, h⟩ := bind_eq_ok.mp h
  obtain ⟨prf, -, h⟩ := bind_eq_ok.mp h
  obtain ⟨expanded, hexpanded, h⟩ := bind_eq_ok.mp h
  obtain ⟨pair, hcut, -⟩ := cutChildSaSecrets_eq
    ((length_of_prfPlus hc hexpanded).trans (buildChildSaKeySchedulePlan_ok hplan))
  cases (Except.ok.inj h).symm.trans hcut

end

/-- **Key expansion.** The expansion gives exactly what is asked for, and of less the beginning. For
all algorithms that are supported the keys of both kinds of security association stand in their
order, each as long as its algorithm wants it, and make up the expanded seed; no slice is ever out
of range. -/
theorem key_expansion {c : Ciphers} (hc : c.Lawful) :
    (∀ (prf : IkePrfAlgorithm) (key seed : Bytes) (n : ℕ), n ≤ 255 * prf.outputLen →
      ∃ out, prfPlus c prf key seed n = .ok out ∧ out.length = n ∧
        ∀ m < n, prfPlus c prf key seed m = .ok (out.take m)) ∧
    (∀ (proposal : ProposalSpec) (plan : IkeKeySchedulePlan)
        (initiatorNonce responderNonce sharedSecret : Bytes) (initiatorSpi responderSpi : UInt64),
      buildKeySchedulePlan proposal = .ok plan → sharedSecret ≠ [] → initiatorNonce ≠ [] →
      responderNonce ≠ [] → plan.totalSecretBytes ≤ 255 * plan.prfOutputBytes →
      ∃ prf bundle, plan.prf = IkePrfAlgorithm.asStr prf ∧
        deriveIkeSecretBundle c proposal initiatorNonce responderNonce initiatorSpi responderSpi
          sharedSecret = .ok (some bundle) ∧ bundle.plan = plan ∧ prfPlus c prf bundle.skeyseed
          (ikeSeed initiatorNonce responderNonce initiatorSpi responderSpi)
          plan.totalSecretBytes = .ok bundle.keys.flatten ∧
        bundle.keys.map List.length = plan.keyLengths) ∧
    (∀ (ikeBundle : IkeSecretBundle) (prf : IkePrfAlgorithm) (espProposal : ProposalSpec)
        (plan : ChildSaKeySchedulePlan) (initiatorNonce responderNonce : Bytes),
      ikeBundle.plan.prf = prf.asStr → buildChildSaKeySchedulePlan espProposal = .ok plan →
      initiatorNonce ≠ [] → responderNonce ≠ [] → plan.totalSecretBytes ≤ 255 * prf.outputLen →
      ∃ pair, deriveChildSaSecretPair c ikeBundle espProposal initiatorNonce responderNonce =
          .ok (some pair) ∧
        prfPlus c prf ikeBundle.skD (initiatorNonce ++ responderNonce) plan.totalSecretBytes =
          .ok pair.keys.flatten ∧ pair.keys.map List.length = plan.keyLengths) ∧
    (∀ (proposal : ProposalSpec) (initiatorNonce responderNonce sharedSecret : Bytes)
        (initiatorSpi responderSpi : UInt64),
      deriveIkeSecretBundle c proposal initiatorNonce responderNonce initiatorSpi responderSpi
        sharedSecret ≠ .ok none) ∧ ∀ (ikeBundle : IkeSecretBundle) (espProposal : ProposalSpec)
        (initiatorNonce responderNonce : Bytes),
      deriveChildSaSecretPair c ikeBundle espProposal initiatorNonce responderNonce ≠ .ok none := by
  refine ⟨?_, ?_, ?_, ?_, ?_⟩
  · intro prf key seed n hn
    have hout := prfPlus_eq hc key seed hn
    refine ⟨_, hout, length_of_prfPlus hc hout, fun m hm => ?_⟩
    rw [prfPlus_eq hc key seed (hm.le.trans hn), take_take, Nat.min_eq_left hm.le]
  · intro proposal plan initiatorNonce responderNonce sharedSecret initiatorSpi responderSpi hplan
      hshared hinitiator hresponder hfits
    obtain ⟨prf, hname, houtput, hderive, -⟩ := deriveIkeSecretBundle_eq hc initiatorSpi
      responderSpi hplan hshared hinitiator hresponder
    rw [houtput] at hfits
    obtain ⟨bundle, hbundle, hkept, -, hkeys, hlengths⟩ := hderive hfits
    exact ⟨prf, bundle, hname, hbundle, hkept, hkeys, hlengths⟩
  · intro ikeBundle prf espProposal plan initiatorNonce responderNonce hprf hplan hinitiator
      hresponder hfits
    obtain ⟨pair, hpair, -, hkeys, hlengths⟩ :=
      (deriveChildSaSecretPair_eq hc hprf hplan hinitiator hresponder).1 hfits
    exact ⟨pair, hpair, hkeys, hlengths⟩
  · exact fun proposal _ _ sharedSecret initiatorSpi responderSpi =>
      deriveIkeSecretBundle_ne_none hc proposal initiatorSpi responderSpi sharedSecret
  · exact fun ikeBundle espProposal _ _ => deriveChildSaSecretPair_ne_none hc ikeBundle espProposal

/-- HMAC of SHA-1 on what the sample below asks for: the seed of the keys, the seven blocks of the
IKE keys and the four of the child keys. -/
def sampleBlocks : List ℕ :=
  [0x6cb3c012c6f059e44fb602c9a24b548a404d1e74,
    0x96a08b8f00b125df829d8207ad5d8b93efe9fc98,
    0xd05e54308be2234b2eefd9807b844cc6a56c5055,
    0x8a5005ae769b19085888b48ff9966cad663b7de7,
    0x1fcc6f5a25b6ca2428501c13bcbdcce5b49eb466,
    0x70849202c080028ac851f2b076ca8fd65739b457,
    0x3c0e53595c7825d020adb1dac9ecdeb61b51f03a,
    0x00ea4d7d1a6b363bfcbc1b365b7d5ea346dde3bb,
    0xd1535b7fca8aca82fdd4db28d7a17d8c7c2c3cd3,
    0xf674b30c9b386d2bd7f47ba103e3b9e21cdecabc,
    0xeff9f964a529d0db5c5bc2b1dd8eadc1857c036e,
    0x057995b761f026a31a97fddf05088d90c55886f6]

def sampleHmac : Ciphers :=
  let block := fun i => be 20 (sampleBlocks.getD i 0)
  let seed := ikeSeed [1] [2] 3 4
  .ofVectors [] (([1, 2], [5], block 0) :: (block 0, seed ++ [1], block 1) ::
    (block 1, [1, 2, 1], block 8) ::
    ((range 6).map fun i =>
      (block 0, block (i + 1) ++ seed ++ [UInt8.ofNat (i + 2)], block (i + 2))) ++
    (range 3).map fun i => (block 1, block (i + 8) ++ [1, 2, UInt8.ofNat (i + 2)],
      block (i + 9)))

def sampleIkeProposal : ProposalSpec where
  number := 1
  protocolId := .ike
  spi := []
  transforms := [⟨.encryption, 12, [.keyLength 128]⟩, ⟨.prf, 2, []⟩, ⟨.integrity, 1, []⟩]

def sampleEspProposal : ProposalSpec where
  number := 1
  protocolId := .esp
  spi := [1, 2, 3, 4]
  transforms := [⟨.encryption, 12, [.keyLength 128]⟩, ⟨.integrity, 2, []⟩]

/-- The keys of an association with AES-128, HMAC-SHA1 and HMAC-MD5-96, and of a child of it. -/
theorem key_expansion_sample :
    (prfPlus sampleHmac .hmacSha1 (be 20 (sampleBlocks.getD 0 0)) (ikeSeed [1] [2] 3 4) 25 =
      .ok (be 20 (sampleBlocks.getD 1 0) ++ (be 20 (sampleBlocks.getD 2 0)).take 5)) ∧
    ∃ prf bundle pair,
      deriveIkeSecretBundle sampleHmac sampleIkeProposal [1] [2] 3 4 [5] = .ok (some bundle) ∧
      prfPlus sampleHmac prf bundle.skeyseed (ikeSeed [1] [2] 3 4) 124 = .ok bundle.keys.flatten ∧
      bundle.keys.map List.length = [20, 16, 16, 16, 16, 20, 20] ∧
      deriveChildSaSecretPair sampleHmac bundle sampleEspProposal [1] [2] = .ok (some pair) ∧
      prfPlus sampleHmac prf bundle.skD [1, 2] 72 = .ok pair.keys.flatten ∧
      pair.keys.map List.length = [16, 20, 16, 20] := by
  obtain ⟨-, hike, hchild, -, -⟩ := key_expansion (Ciphers.lawful_ofVectors _ _ : sampleHmac.Lawful)
  refine ⟨by decide +kernel, ?_⟩
  obtain ⟨prf, bundle, hprf, hbundle, hplan, hkeys, hlengths⟩ := hike sampleIkeProposal
    ⟨"hmac_sha1", "aes_cbc", "hmac_md5_96", 20, 16, 16, 124⟩ [1] [2] [5] 3 4 (by decide +kernel)
    (by decide) (by decide) (by decide) (by decide)
  have hname : bundle.plan.prf = prf.asStr := by
    rw [hplan]
    exact hprf
  have hroom : 72 ≤ 255 * prf.outputLen := by
    cases prf <;> decide
  obtain ⟨pair, hpair, hpairKeys, hpairLengths⟩ := hchild bundle prf sampleEspProposal
    ⟨"aes_cbc", "hmac_sha1_96", 16, 20, 36, 72⟩ [1] [2] hname (by decide +kernel)
    (by decide) (by decide) hroom
  exact ⟨prf, bundle, pair, hbundle, hkeys, hlengths, hpair, hpairKeys, hpairLengths⟩

end SimMaster
