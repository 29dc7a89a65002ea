import SimMaster.Octets

/-!
# Diffie-Hellman

The exchange of the IKE handshake, over the groups of integers modulo a prime. Both the public value
and the shared secret go out with as many octets as the modulus has, so the octets that a big
integer does not write are filled up. Values of the peer that give the secret away are refused.
-/

namespace SimMaster

open Rust

/-! ## Big integers -/

/-- `BigUint::to_bytes_be`: no more octets than needed, but one at least. -/
def toBytesBe (n : ℕ) : Bytes := be (max 1 (Nat.digits 256 n).length) n

/-- `BigUint::modpow`. -/
def modpow (base exponent modulus : ℕ) : ℕ := base ^ exponent % modulus

/-- `left_pad_to_len`. -/
def leftPadToLen (value : Bytes) (len : ℕ) : Bytes :=
  if len < value.length then value.drop (value.length - len)
  else List.replicate (len - value.length) 0 ++ value

/-- A constant in lines of hexadecimal digits, each with their number. -/
def concatHex (lines : List (ℕ × ℕ)) : ℕ :=
  lines.foldl (fun n line => n * 16 ^ line.1 + line.2) 0

/-! ## Groups -/

/-- `MODP_768_PRIME_HEX`. -/
def modp768Prime : ℕ := concatHex [
  (64, 0xFFFFFFFFFFFFFFFFC90FDAA22168C234C4C6628B80DC1CD129024E088A67CC74),
  (64, 0x020BBEA63B139B22514A08798E3404DDEF9519B3CD3A431B302B0A6DF25F1437),
  (64, 0x4FE1356D6D51C245E485B576625E7EC6F44C42E9A63A3620FFFFFFFFFFFFFFFF)]

/-- `MODP_1024_PRIME_HEX`. -/
def modp1024Prime : ℕ := concatHex [
  (56, 0xFFFFFFFFFFFFFFFFC90FDAA22168C234C4C6628B80DC1CD129024E08),
  (50, 0x8A67CC74020BBEA63B139B22514A08798E3404DDEF9519B3CD),
  (50, 0x3A431B302B0A6DF25F14374FE1356D6D51C245E485B576625E),
  (50, 0x7EC6F44C42E9A637ED6B0BFF5CB6F406B7EDEE386BFB5A899F),
  (50, 0xA5AE9F24117C4B1FE649286651ECE65381FFFFFFFFFFFFFFFF)]

/-- `MODP_1536_PRIME_HEX`. -/
def modp1536Prime : ℕ := concatHex [
  (64, 0xFFFFFFFFFFFFFFFFC90FDAA22168C234C4C6628B80DC1CD129024E088A67CC74),
  (64, 0x020BBEA63B139B22514A08798E3404DDEF9519B3CD3A431B302B0A6DF25F1437),
  (64, 0x4FE1356D6D51C245E485B576625E7EC6F44C42E9A637ED6B0BFF5CB6F406B7ED),
  (64, 0xEE386BFB5A899FA5AE9F24117C4B1FE649286651ECE45B3DC2007CB8A163BF05),
  (64, 0x98DA48361C55D39A69163FA8FD24CF5F83655D23DCA3AD961C62F356208552BB),
  (64, 0x9ED529077096966D670C354E4ABC9804F1746C08CA237327FFFFFFFFFFFFFFFF)]

/-- `MODP_2048_PRIME_HEX`. -/
def modp2048Prime : ℕ := concatHex [
  (56, 0xFFFFFFFFFFFFFFFFC90FDAA22168C234C4C6628B80DC1CD129024E08),
  (50, 0x8A67CC74020BBEA63B139B22514A08798E3404DDEF9519B3CD),
  (50, 0x3A431B302B0A6DF25F14374FE1356D6D51C245E485B576625E),
  (50, 0x7EC6F44C42E9A637ED6B0BFF5CB6F406B7EDEE386BFB5A899F),
  (50, 0xA5AE9F24117C4B1FE649286651ECE45B3DC2007CB8A163BF05),
  (50, 0x98DA48361C55D39A69163FA8FD24CF5F83655D23DCA3AD961C),
  (50, 0x62F356208552BB9ED529077096966D670C354E4ABC9804F174),
  (50, 0x6C08CA18217C32905E462E36CE3BE39E772C180E86039B2783),
  (50, 0xA2EC07A28FB5C55DF06F4C52C9DE2BCBF6955817183995497C),
  (56, 0xEA956AE515D2261898FA051015728E5A8AACAA68FFFFFFFFFFFFFFFF)]

/-- `MODP_3072_PRIME_HEX`. -/
def modp3072Prime : ℕ := concatHex [
  (64, 0xFFFFFFFFFFFFFFFFC90FDAA22168C234C4C6628B80DC1CD129024E088A67CC74),
  (64, 0x020BBEA63B139B22514A08798E3404DDEF9519B3CD3A431B302B0A6DF25F1437),
  (64, 0x4FE1356D6D51C245E485B576625E7EC6F44C42E9A637ED6B0BFF5CB6F406B7ED),
  (64, 0xEE386BFB5A899FA5AE9F24117C4B1FE649286651ECE45B3DC2007CB8A163BF05),
  (64, 0x98DA48361C55D39A69163FA8FD24CF5F83655D23DCA3AD961C62F356208552BB),
  (64, 0x9ED529077096966D670C354E4ABC9804F1746C08CA18217C32905E462E36CE3B),
  (64, 0xE39E772C180E86039B2783A2EC07A28FB5C55DF06F4C52C9DE2BCBF695581718),
  (64, 0x3995497CEA956AE515D2261898FA051015728E5A8AAAC42DAD33170D04507A33),
  (64, 0xA85521ABDF1CBA64ECFB850458DBEF0A8AEA71575D060C7DB3970F85A6E1E4C7),
  (64, 0xABF5AE8CDB0933D71E8C94E04A25619DCEE3D2261AD2EE6BF12FFA06D98A0864),
  (64, 0xD87602733EC86A64521F2B18177B200CBBE117577A615D6C770988C0BAD946E2),
  (64, 0x08E24FA074E5AB3143DB5BFCE0FD108E4B82D120A93AD2CAFFFFFFFFFFFFFFFF)]

/-- `MODP_4096_PRIME_HEX`. -/
def modp4096Prime : ℕ := concatHex [
  (64, 0xFFFFFFFFFFFFFFFFC90FDAA22168C234C4C6628B80DC1CD129024E088A67CC74),
  (64, 0x020BBEA63B139B22514A08798E3404DDEF9519B3CD3A431B302B0A6DF25F1437),
  (64, 0x4FE1356D6D51C245E485B576625E7EC6F44C42E9A637ED6B0BFF5CB6F406B7ED),
  (64, 0xEE386BFB5A899FA5AE9F24117C4B1FE649286651ECE45B3DC2007CB8A163BF05),
  (64, 0x98DA48361C55D39A69163FA8FD24CF5F83655D23DCA3AD961C62F356208552BB),
  (64, 0x9ED529077096966D670C354E4ABC9804F1746C08CA18217C32905E462E36CE3B),
  (64, 0xE39E772C180E86039B2783A2EC07A28FB5C55DF06F4C52C9DE2BCBF695581718),
  (64, 0x3995497CEA956AE515D2261898FA051015728E5A8AAAC42DAD33170D04507A33),
  (64, 0xA85521ABDF1CBA64ECFB850458DBEF0A8AEA71575D060C7DB3970F85A6E1E4C7),
  (64, 0xABF5AE8CDB0933D71E8C94E04A25619DCEE3D2261AD2EE6BF12FFA06D98A0864),
  (64, 0xD87602733EC86A64521F2B18177B200CBBE117577A615D6C770988C0BAD946E2),
  (64, 0x08E24FA074E5AB3143DB5BFCE0FD108E4B82D120A92108011A723C12A787E6D7),
  (64, 0x88719A10BDBA5B2699C327186AF4E23C1A946834B6150BDA2583E9CA2AD44CE8),
  (64, 0xDBBBC2DB04DE8EF92E8EFC141FBECAA6287C59474E6BC05D99B2964FA090C3A2),
  (64, 0x233BA186515BE7ED1F612970CEE2D7AFB81BDD762170481CD0069127D5B05AA9),
  (64, 0x93B4EA988D8FDDC186FFB7DC90A6C08F4DF435C934063199FFFFFFFFFFFFFFFF)]

/-- `MODP_8192_PRIME_HEX`. -/
def modp8192Prime : ℕ := concatHex [
  (64, 0xFFFFFFFFFFFFFFFFC90FDAA22168C234C4C6628B80DC1CD129024E088A67CC74),
  (64, 0x020BBEA63B139B22514A08798E3404DDEF9519B3CD3A431B302B0A6DF25F1437),
  (64, 0x4FE1356D6D51C245E485B576625E7EC6F44C42E9A637ED6B0BFF5CB6F406B7ED),
  (64, 0xEE386BFB5A899FA5AE9F24117C4B1FE649286651ECE45B3DC2007CB8A163BF05),
  (64, 0x98DA48361C55D39A69163FA8FD24CF5F83655D23DCA3AD961C62F356208552BB),
  (64, 0x9ED529077096966D670C354E4ABC9804F1746C08CA18217C32905E462E36CE3B),
  (64, 0xE39E772C180E86039B2783A2EC07A28FB5C55DF06F4C52C9DE2BCBF695581718),
  (64, 0x3995497CEA956AE515D2261898FA051015728E5A8AAAC42DAD33170D04507A33),
  (64, 0xA85521ABDF1CBA64ECFB850458DBEF0A8AEA71575D060C7DB3970F85A6E1E4C7),
  (64, 0xABF5AE8CDB0933D71E8C94E04A25619DCEE3D2261AD2EE6BF12FFA06D98A0864),
  (64, 0xD87602733EC86A64521F2B18177B200CBBE117577A615D6C770988C0BAD946E2),
  (64, 0x08E24FA074E5AB3143DB5BFCE0FD108E4B82D120A92108011A723C12A787E6D7),
  (64, 0x88719A10BDBA5B2699C327186AF4E23C1A946834B6150BDA2583E9CA2AD44CE8),
  (64, 0xDBBBC2DB04DE8EF92E8EFC141FBECAA6287C59474E6BC05D99B2964FA090C3A2),
  (64, 0x233BA186515BE7ED1F612970CEE2D7AFB81BDD762170481CD0069127D5B05AA9),
  (64, 0x93B4EA988D8FDDC186FFB7DC90A6C08F4DF435C93402849236C3FAB4D27C7026),
  (64, 0xC1D4DCB2602646DEC9751E763DBA37BDF8FF9406AD9E530EE5DB382F413001AE),
  (64, 0xB06A53ED9027D831179727B0865A8918DA3EDBEBCF9B14ED44CE6CBACED4BB1B),
  (64, 0xDB7F1447E6CC254B332051512BD7AF426FB8F401378CD2BF5983CA01C64B92EC),
  (64, 0xF032EA15D1721D03F482D7CE6E74FEF6D55E702F46980C82B5A84031900B1C9E),
  (64, 0x59E7C97FBEC7E8F323A97A7E36CC88BE0F1D45B7FF585AC54BD407B22B4154AA),
  (64, 0xCC8F6D7EBF48E1D814CC5ED20F8037E0A79715EEF29BE32806A1D58BB7C5DA76),
  (64, 0xF550AA3D8A1FBFF0EB19CCB1A313D55CDA56C9EC2EF29632387FE8D76E3C0468),
  (64, 0x043E8F663F4860EE12BF2D5B0B7474D6E694F91E6DBE115974A3926F12FEE5E4),
  (64, 0x38777CB6A932DF8CD8BEC4D073B931BA3BC832B68D9DD300741FA7BF8AFC47ED),
  (64, 0x2576F6936BA424663AAB639C5AE4F5683423B4742BF1C978238F16CBE39D652D),
  (64, 0xE3FDB8BEFC848AD922222E04A4037C0713EB57A81A23F0C73473FC646CEA306B),
  (64, 0x4BCBC8862F8385DDFA9D4B7FA2C087E879683303ED5BDD3A062B3CF5B3A278A6),
  (64, 0x6D2A13F83F44F82DDF310EE074AB6A364597E899A0255DC164F31CC50846851D),
  (64, 0xF9AB48195DED7EA1B1D510BD7EE74D73FAF36BC31ECFA268359046F4EB879F92),
  (64, 0x4009438B481C6CD7889A002ED5EE382BC9190DA6FC026E479558E4475677E9AA),
  (64, 0x9E3050E2765694DFC81F56E880B96E7160C980DD98EDD3DFFFFFFFFFFFFFFFFF)]

inductive DhGroup where
  | modp768
  | modp1024
  | modp1536
  | modp2048
  | modp3072
  | modp4096
  | modp8192
  deriving DecidableEq

namespace DhGroup

def publicValueBytes : DhGroup → ℕ
  | modp768 => 96
  | modp1024 => 128
  | modp1536 => 192
  | modp2048 => 256
  | modp3072 => 384
  | modp4096 => 512
  | modp8192 => 1024

def prime : DhGroup → ℕ
  | modp768 => modp768Prime
  | modp1024 => modp1024Prime
  | modp1536 => modp1536Prime
  | modp2048 => modp2048Prime
  | modp3072 => modp3072Prime
  | modp4096 => modp4096Prime
  | modp8192 => modp8192Prime

variable (group : DhGroup)

/-- The octets announced are those of the modulus. -/
theorem prime_bounds :
    256 ^ (group.publicValueBytes - 1) ≤ group.prime ∧
    group.prime < 256 ^ group.publicValueBytes := by
  cases group <;> decide +kernel

theorem publicValueBytes_pos : 0 < group.publicValueBytes := by
  cases group <;> decide

theorem two_lt_prime : 2 < group.prime := by
  have hbytes : 1 ≤ group.publicValueBytes - 1 := by cases group <;> decide
  calc 2 < 256 ^ 1 := by decide
    _ ≤ 256 ^ (group.publicValueBytes - 1) := Nat.pow_le_pow_right (by decide) hbytes
    _ ≤ group.prime := group.prime_bounds.1

end DhGroup

/-! ## The exchange -/

inductive DhError where
  | randomFailed
  | invalidPrivateValue
  | invalidPeerPublicValue
  deriving DecidableEq

/-- One side of an exchange, whatever its group. -/
structure Modp2048Ephemeral where
  group : DhGroup
  privateValue : ℕ
  publicValue : Bytes
  deriving DecidableEq

namespace Modp2048Ephemeral

def fromPrivateBytesForGroup (group : DhGroup) (privateBytes : Bytes) :
    Except DhError Modp2048Ephemeral :=
  let modulus := group.prime
  let maxPrivate := modulus - 1
  let privateValue := fromBe privateBytes % maxPrivate + 1
  if privateValue = 0 ∨ modulus ≤ privateValue then .error .invalidPrivateValue
  else .ok {
    group, privateValue
    publicValue := leftPadToLen (toBytesBe (modpow 2 privateValue modulus))
      group.publicValueBytes }

def sharedSecret (self : Modp2048Ephemeral) (peerPublicValue : Bytes) : Except DhError Bytes :=
  if peerPublicValue.isEmpty ∨ self.group.publicValueBytes < peerPublicValue.length then
    .error .invalidPeerPublicValue
  else
    let modulus := self.group.prime
    let peer := fromBe peerPublicValue
    if peer ≤ 1 ∨ modulus - 1 ≤ peer then .error .invalidPeerPublicValue
    else .ok (leftPadToLen (toBytesBe (modpow peer self.privateValue modulus))
      self.group.publicValueBytes)

end Modp2048Ephemeral

/-! ## Fixed lengths -/

variable {n : ℕ}

/-- What is too small for its width begins with zeros. -/
theorem be_add {width : ℕ} (h : n < 256 ^ width) (k : ℕ) :
    be (k + width) n = List.replicate k 0 ++ be width n := by
  induction k with
  | zero => rw [Nat.zero_add]; rfl
  | succ k ih =>
    have htop : n / 256 ^ (k + width) = 0 :=
      Nat.div_eq_of_lt (h.trans_le (Nat.pow_le_pow_right (by decide) (Nat.le_add_left _ _)))
    rw [Nat.succ_add, be, htop, ih]
    rfl

theorem leftPadToLen_toBytesBe {len : ℕ} (h : n < 256 ^ len) (hlen : 0 < len) :
    leftPadToLen (toBytesBe n) len = be len n := by
  have hdigits : (Nat.digits 256 n).length ≤ len := by
    by_contra hlong
    have hzero : n ≠ 0 := by
      rintro rfl
      simp at hlong
    have hle := Nat.base_pow_length_digits_le 256 n (by decide) hzero
    have hpow : 256 ^ (len + 1) ≤ 256 ^ (Nat.digits 256 n).length :=
      Nat.pow_le_pow_right (by decide) (by omega)
    omega
  have hwidth : max 1 (Nat.digits 256 n).length ≤ len := by omega
  have hfits : n < 256 ^ max 1 (Nat.digits 256 n).length :=
    (Nat.lt_base_pow_length_digits (by decide)).trans_le
      (Nat.pow_le_pow_right (by decide) (le_max_right _ _))
  rw [leftPadToLen, toBytesBe, length_be, if_neg (Nat.not_lt.mpr hwidth), ← be_add hfits,
    Nat.sub_add_cancel hwidth]

namespace Modp2048Ephemeral

variable (group : DhGroup)

theorem length_public : leftPadToLen (toBytesBe (n % group.prime)) group.publicValueBytes =
      be group.publicValueBytes (n % group.prime) :=
  leftPadToLen_toBytesBe ((Nat.mod_lt _ (by have := group.two_lt_prime; omega)).trans
    group.prime_bounds.2) group.publicValueBytes_pos

/-- Every private value has its public value, a power of two with as many octets as the modulus. -/
theorem fromPrivateBytesForGroup_eq (privateBytes : Bytes) :
    ∃ self, fromPrivateBytesForGroup group privateBytes = .ok self ∧ self.group = group ∧
      self.publicValue = be group.publicValueBytes (2 ^ self.privateValue % group.prime) := by
  have hprime := group.two_lt_prime
  have hmod := Nat.mod_lt (fromBe privateBytes) (show 0 < group.prime - 1 by omega)
  rw [fromPrivateBytesForGroup, if_neg (by omega)]
  exact ⟨_, rfl, rfl, length_public group⟩

variable {self : Modp2048Ephemeral} {peer : Bytes}

theorem sharedSecret_ok {secret : Bytes} (h : self.sharedSecret peer = .ok secret) :
    secret = be self.group.publicValueBytes
    (fromBe peer ^ self.privateValue % self.group.prime) := by
  rw [sharedSecret] at h
  dsimp only at h
  split_ifs at h
  rw [← Except.ok.inj h]
  exact length_public self.group

theorem sharedSecret_refused (h : fromBe peer ≤ 1 ∨ self.group.prime - 1 ≤ fromBe peer) :
    self.sharedSecret peer = .error .invalidPeerPublicValue := by
  by_cases hlength : peer.isEmpty = true ∨ self.group.publicValueBytes < peer.length
  · exact if_pos hlength
  · exact (if_neg hlength).trans (if_pos h)

theorem fromBe_public (n : ℕ) :
    fromBe (be group.publicValueBytes (n % group.prime)) = n % group.prime :=
  fromBe_be ((Nat.mod_lt _ (by have := group.two_lt_prime; omega)).trans group.prime_bounds.2)

/-- **Agreement.** Both sides of an exchange have public values, and where they accept each other's
they share the secret. Public values and secrets are integers modulo the prime, with as many octets
as the modulus has. Zero, one and what is not below the prime less one is refused. -/
theorem agreement (group : DhGroup) (leftBytes rightBytes : Bytes) :
    256 ^ (group.publicValueBytes - 1) ≤ group.prime ∧ group.prime < 256 ^ group.publicValueBytes ∧
    ∃ left right, fromPrivateBytesForGroup group leftBytes = .ok left ∧
      fromPrivateBytesForGroup group rightBytes = .ok right ∧
      left.publicValue.length = group.publicValueBytes ∧
      fromBe left.publicValue = 2 ^ left.privateValue % group.prime ∧
      (∀ secret secret', left.sharedSecret right.publicValue = .ok secret →
        right.sharedSecret left.publicValue = .ok secret' → secret = secret') ∧
      (∀ peer secret, left.sharedSecret peer = .ok secret → secret.length = group.publicValueBytes ∧
          fromBe secret = fromBe peer ^ left.privateValue % group.prime) ∧
      ∀ peer, fromBe peer = 0 ∨ fromBe peer = 1 ∨ fromBe peer = group.prime - 1 ∨
        group.prime ≤ fromBe peer → left.sharedSecret peer = .error .invalidPeerPublicValue := by
  obtain ⟨left, hleft, hgroup, hpublic⟩ := fromPrivateBytesForGroup_eq group leftBytes
  obtain ⟨right, hright, hgroup', hpublic'⟩ := fromPrivateBytesForGroup_eq group rightBytes
  refine ⟨group.prime_bounds.1, group.prime_bounds.2, left, right, hleft, hright, ?_,
    ?_, ?_, ?_, ?_⟩
  · rw [hpublic, length_be]
  · rw [hpublic, fromBe_public]
  · intro secret secret' hsecret hsecret'
    rw [sharedSecret_ok hsecret, sharedSecret_ok hsecret', hpublic, hpublic', hgroup, hgroup',
      fromBe_public, fromBe_public, ← Nat.pow_mod, ← Nat.pow_mod, ← Nat.pow_mul, ← Nat.pow_mul,
      Nat.mul_comm]
  · intro peer secret hsecret
    rw [sharedSecret_ok hsecret, hgroup, length_be, fromBe_public]
    exact ⟨rfl, rfl⟩
  · intro peer hpeer
    refine sharedSecret_refused ?_
    rw [hgroup]
    omega

/-- With the private values 11 and 21 of the smallest group both sides get 2 to the 231. -/
theorem agreement_sample : ∃ left right, fromPrivateBytesForGroup .modp768 [10] = .ok left ∧
      fromPrivateBytesForGroup .modp768 [20] = .ok right ∧
      left.sharedSecret right.publicValue = right.sharedSecret left.publicValue ∧
      left.sharedSecret right.publicValue = .ok (be 96 (2 ^ 231)) ∧
      left.sharedSecret [1] = .error .invalidPeerPublicValue := by
  obtain ⟨-, -, left, right, hleft, hright, -, -, hagree, -, hrefuse⟩ :=
    agreement .modp768 [10] [20]
  have hleft' : left = ⟨.modp768, 11, be 96 (2 ^ 11)⟩ :=
    Except.ok.inj (hleft.symm.trans (by decide +kernel))
  have hright' : right = ⟨.modp768, 21, be 96 (2 ^ 21)⟩ :=
    Except.ok.inj (hright.symm.trans (by decide +kernel))
  have hsecret : left.sharedSecret right.publicValue = .ok (be 96 (2 ^ 231)) := by
    rw [hleft', hright']
    decide +kernel
  have hsecret' : right.sharedSecret left.publicValue = .ok (be 96 (2 ^ 231)) := by
    rw [hleft', hright']
    decide +kernel
  refine ⟨left, right, hleft, hright, ?_, hsecret, hrefuse [1] (Or.inr (Or.inl rfl))⟩
  rw [hsecret, hsecret', hagree _ _ hsecret hsecret']

end Modp2048Ephemeral

end SimMaster
