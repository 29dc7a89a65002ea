import SimMaster.Octets

/-!
# Ciphers and authenticators

AES in CBC mode without padding, HMAC and the digests come from libraries, so they are the fields of
a structure. `Lawful` is what the callers rely on: decryption undoes encryption on whole blocks, a
ciphertext is as long as its plaintext, and a digest has the length of its kind.
-/

namespace SimMaster

open Rust List

/-- The digests HMAC is keyed over. -/
inductive HmacAlgorithm where
  | sha1
  | sha256
  | sha384
  | sha512
  deriving DecidableEq

/-- The length of a digest. -/
def HmacAlgorithm.digestLen : HmacAlgorithm → ℕ
  | .sha1 => 20
  | .sha256 => 32
  | .sha384 => 48
  | .sha512 => 64

/-- The library functions: `cbc::Encryptor<Aes128>` and its kin by the length of the key,
`hmac::sign`, `md5::compute`, `digest::digest` for SHA-1 and SHA-256. -/
structure Ciphers where
  aesCbcEncrypt (key iv data : Bytes) : Bytes
  aesCbcDecrypt (key iv data : Bytes) : Bytes
  hmac (algorithm : HmacAlgorithm) (key data : Bytes) : Bytes
  md5 (data : Bytes) : Bytes
  sha1 (data : Bytes) : Bytes
  sha256 (data : Bytes) : Bytes

/-- The octets of a block. -/
def aesBlock : ℕ := 16

/-- What is known of the library functions. -/
structure Ciphers.Lawful (c : Ciphers) : Prop where
  /-- decryption undoes encryption, of whole blocks under a key of AES-128 or AES-256 -/
  decrypt_encrypt : ∀ {key iv data : Bytes}, key.length = 16 ∨ key.length = 32 →
    iv.length = aesBlock → aesBlock ∣ data.length →
    c.aesCbcDecrypt key iv (c.aesCbcEncrypt key iv data) = data
  /-- without padding the length stays -/
  length_encrypt : ∀ {key iv data : Bytes}, key.length = 16 ∨ key.length = 32 →
    iv.length = aesBlock → aesBlock ∣ data.length →
    (c.aesCbcEncrypt key iv data).length = data.length
  length_hmac : ∀ algorithm key data, (c.hmac algorithm key data).length = algorithm.digestLen
  length_md5 : ∀ data, (c.md5 data).length = 16
  length_sha1 : ∀ data, (c.sha1 data).length = 20
  length_sha256 : ∀ data, (c.sha256 data).length = 32

/-- A random initialisation vector. -/
abbrev Iv : Type := { iv : Bytes // iv.length = aesBlock }

namespace Ciphers

variable (c : Ciphers)

/-- `hmac_md5`, over 64 octets of key. -/
def hmacMd5 (key data : Bytes) : Bytes :=
  let key := if 64 < key.length then c.md5 key else key
  let block := key ++ replicate (64 - key.length) 0
  let inner := c.md5 (block.map (· ^^^ 0x36) ++ data)
  c.md5 (block.map (· ^^^ 0x5c) ++ inner)

/-- `hmac::sign`, or `hmac_md5` where the library has no algorithm. -/
def sign (algorithm : Option HmacAlgorithm) (key data : Bytes) : Bytes :=
  match algorithm with
  | some algorithm => c.hmac algorithm key data
  | none => c.hmacMd5 key data

variable {c}

theorem Lawful.length_sign (hc : c.Lawful) (algorithm : Option HmacAlgorithm) (key data : Bytes) :
    (c.sign algorithm key data).length = algorithm.elim 16 HmacAlgorithm.digestLen := by
  cases algorithm with
  | some algorithm => exact hc.length_hmac algorithm key data
  | none => exact hc.length_md5 _

end Ciphers

/-! ## Integrity algorithms -/

/-- The names of the integrity algorithms, each with its digest and the length of its tag. -/
def integrityShape (integrity : String) : Option (Option HmacAlgorithm × ℕ) :=
  if integrity = "hmac_md5_96" then some (none, 12)
  else if integrity = "hmac_sha1_96" then some (some .sha1, 12)
  else if integrity = "hmac_sha256_128" then some (some .sha256, 16)
  else if integrity = "hmac_sha384_192" then some (some .sha384, 24)
  else if integrity = "hmac_sha512_256" then some (some .sha512, 32)
  else none

/-- A tag is no longer than the digest it is cut from. -/
theorem integrityShape_le {integrity : String} {algorithm : Option HmacAlgorithm} {icvLen : ℕ}
    (h : integrityShape integrity = some (algorithm, icvLen)) :
    icvLen ≤ algorithm.elim 16 HmacAlgorithm.digestLen := by
  unfold integrityShape at h
  split_ifs at h <;> (obtain ⟨rfl, rfl⟩ := Prod.mk.inj (Option.some.inj h); decide)

/-- `constant_time_eq`: the differences of all octets, ored together. -/
def constantTimeEq (left right : Bytes) : Bool :=
  if left.length ≠ right.length then false
  else (left.zip right).foldl (fun diff p => diff ||| (p.1 ^^^ p.2)) 0 == 0

/-- The accumulated difference is zero when it was and all octets agree. -/
theorem foldl_or_xor_eq_zero (pairs : List (UInt8 × UInt8)) (diff : UInt8) :
    pairs.foldl (fun diff p => diff ||| (p.1 ^^^ p.2)) diff = 0 ↔
      diff = 0 ∧ ∀ p ∈ pairs, p.1 = p.2 := by
  induction pairs generalizing diff with
  | nil => simp
  | cons p pairs ih =>
    rw [foldl_cons, ih, UInt8.or_eq_zero_iff, UInt8.xor_eq_zero_iff, forall_mem_cons, and_assoc]

variable {left right : Bytes}

theorem forall_zip_eq_iff (h : left.length = right.length) :
    (∀ p ∈ left.zip right, p.1 = p.2) ↔ left = right := by
  induction left generalizing right with
  | nil => simp [eq_nil_of_length_eq_zero h.symm]
  | cons l left ih =>
    cases right with
    | nil => exact nomatch h
    | cons r right =>
      rw [zip_cons_cons, forall_mem_cons, ih (Nat.succ.inj h), cons.injEq]

theorem constantTimeEq_iff : constantTimeEq left right = true ↔ left = right := by
  rw [constantTimeEq]
  split
  · next hlen => exact ⟨nofun, fun h => absurd (congrArg List.length h) hlen⟩
  · next hlen =>
    rw [beq_iff_eq, foldl_or_xor_eq_zero, forall_zip_eq_iff (not_not.mp hlen)]
    exact and_iff_right rfl

/-! ## Known vectors -/

/-- The plaintexts and ciphertexts of the list change places, and nothing else does. -/
def swapVectors (pairs : List (Bytes × Bytes)) : Equiv.Perm Bytes :=
  pairs.foldr (fun p π => if p.1.length = p.2.length then Equiv.swap p.1 p.2 * π else π) 1

theorem length_swapVectors (pairs : List (Bytes × Bytes)) (data : Bytes) :
    (swapVectors pairs data).length = data.length := by
  induction pairs with
  | nil => rfl
  | cons p pairs ih =>
    rw [swapVectors, foldr_cons] at *
    split
    · next hp =>
      rw [Equiv.Perm.mul_apply, Equiv.swap_apply_def]
      split_ifs with hl hr
      · rw [← ih, hl, hp]
      · rw [← ih, hr, hp]
      · exact ih
    · exact ih

/-- The digest that is listed for a key and some data, zeros when none of this length is. -/
def knownDigest (digests : List (Bytes × Bytes × Bytes)) (len : ℕ) (key data : Bytes) : Bytes :=
  ((digests.find? fun d => d.1 = key ∧ d.2.1 = data ∧ d.2.2.length = len).map (·.2.2)).getD
    (replicate len 0)

theorem length_knownDigest (digests : List (Bytes × Bytes × Bytes)) (len : ℕ) (key data : Bytes) :
    (knownDigest digests len key data).length = len := by
  unfold knownDigest
  cases h : digests.find? fun d => d.1 = key ∧ d.2.1 = data ∧ d.2.2.length = len with
  | none => exact length_replicate
  | some d =>
    have hd := List.find?_some h
    exact (of_decide_eq_true hd).2.2

/-- Ciphers that agree with the real ones on vectors: pairs of plaintext and ciphertext, and digests
of a key and data. -/
def Ciphers.ofVectors (pairs : List (Bytes × Bytes)) (digests : List (Bytes × Bytes × Bytes)) :
    Ciphers where
  aesCbcEncrypt _ _ data := swapVectors pairs data
  aesCbcDecrypt _ _ data := (swapVectors pairs).symm data
  hmac algorithm key data := knownDigest digests algorithm.digestLen key data
  md5 data := knownDigest digests 16 [] data
  sha1 data := knownDigest digests 20 [] data
  sha256 data := knownDigest digests 32 [] data

theorem Ciphers.lawful_ofVectors (pairs : List (Bytes × Bytes))
    (digests : List (Bytes × Bytes × Bytes)) : (Ciphers.ofVectors pairs digests).Lawful where
  decrypt_encrypt _ _ _ := Equiv.symm_apply_apply _ _
  length_encrypt _ _ _ := length_swapVectors pairs _
  length_hmac algorithm key data := length_knownDigest digests algorithm.digestLen key data
  length_md5 data := length_knownDigest digests 16 [] data
  length_sha1 data := length_knownDigest digests 20 [] data
  length_sha256 data := length_knownDigest digests 32 [] data

end SimMaster
