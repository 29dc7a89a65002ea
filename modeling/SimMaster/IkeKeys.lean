import SimMaster.Ciphers

/-!
# IKE keys

What the key schedule leaves behind: the names and sizes that were agreed on, and the secrets of
each direction.
-/

namespace SimMaster

open Rust

/-- `IkeKeySchedulePlan`. -/
structure IkeKeySchedulePlan where
  prf : String
  encryption : String
  integrity : String
  prfOutputBytes : ℕ
  encryptionKeyBytes : ℕ
  integrityKeyBytes : ℕ
  totalSecretBytes : ℕ
  deriving DecidableEq

/-- `IkeSecretBundle`. -/
structure IkeSecretBundle where
  skeyseed : Bytes
  skD : Bytes
  skAi : Bytes
  skAr : Bytes
  skEi : Bytes
  skEr : Bytes
  skPi : Bytes
  skPr : Bytes
  plan : IkeKeySchedulePlan
  deriving DecidableEq

/-- `ChildSaKeySchedulePlan`. -/
structure ChildSaKeySchedulePlan where
  encryption : String
  integrity : String
  encryptionKeyBytes : ℕ
  integrityKeyBytes : ℕ
  directionSecretBytes : ℕ
  totalSecretBytes : ℕ
  deriving DecidableEq

/-- `ChildSaSecretPair`. -/
structure ChildSaSecretPair where
  outboundEncryption : Bytes
  outboundIntegrity : Bytes
  inboundEncryption : Bytes
  inboundIntegrity : Bytes
  plan : ChildSaKeySchedulePlan
  deriving DecidableEq

end SimMaster
