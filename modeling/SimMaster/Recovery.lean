import SimMaster.AtUrc
import SimMaster.Files
import SimMaster.IpAddr
import SimMaster.SipHeaders

/-!
# Receipts of native sessions

While a session holds resources of a modem, a receipt of it lies in the pending directory. Its
owner saves it, saves it again as the session changes, and clears it after everything has been
released. A receipt that was left behind with its cleanup confirmed is archived by `apply`: evidence
and a hard link go to the archive before the receipt is removed from the pending directory.
Every operation on the files has a site of its own, at which it may fail.
-/

namespace SimMaster.Recovery

open Rust Method NativeSms

inductive NativeProtocol where
  | qmi
  | mbim
  | at
  deriving DecidableEq

inductive NativeError where
  | unsupported (reason : Str)
  | unavailable (reason : Str)
  | ownerConflict (reason : Str)
  | protocol (reason : Str)
  | protocolRejected (code : ℕ)
  | commandFailed (reason : Str)
  deriving DecidableEq

structure NativeDeviceConfig where
  hardwareKey : Str
  protocol : NativeProtocol
  controlDevice : Str
  atDevice : Option Str := none
  smsReceptionEnabled : Bool := false
  uimSlot : ℕ := 1
  deriving DecidableEq

section Lines

variable (hashes : Hashes)

def stableLineId (hardwareKey simKey : Str) : Str :=
  "line-".toList ++
    hexLower (hashes.md5 (asBytes (trim hardwareKey ++ [Char.ofNat 0] ++ trim simKey)))

def lineHardwareKey (hardwareKey : Str) (uimSlot : ℕ) : Str :=
  if uimSlot ≤ 1 then hardwareKey else hardwareKey ++ "#uim".toList ++ decimal uimSlot

/-- The line of a device, whatever SIM is in it. -/
def lineId (spec : NativeDeviceConfig) : Str :=
  stableLineId hashes "physical-line".toList (lineHardwareKey spec.hardwareKey spec.uimSlot)

end Lines

def receiptDirectory : Str := "/var/lib/simadmin/native-control".toList

def lockDirectory : Str := "/run/simadmin/native-control".toList

def maxReceiptBytes : ℕ := 1024 * 1024

structure PortIdentity where
  device : Str
  canonical : Str
  sysfs : Str
  rdev : ℕ
  inode : ℕ
  deriving DecidableEq

structure OwnerInstance where
  bootId : Str
  pid : ℕ
  startTicks : ℕ
  deriving DecidableEq

structure Receipt (Value : Type) where
  schema : ℕ
  key : Str
  lineId : Str
  physicalKey : Str
  slot : ℕ
  anchor : Str
  owner : OwnerInstance
  ports : List PortIdentity
  generation : Str
  cleanupConfirmed : Bool
  payload : Value
  deriving DecidableEq

structure RecoveryPlan where
  receipt : Str
  revision : Str
  lineId : Option Str
  physicalKey : Option Str
  generationChanged : Bool
  eligible : Bool
  blockers : List Str
  action : Str
  deriving DecidableEq

/-- What the serde_json package writes and reads. `pointer` is a pointer into a value and then
`as_bool`. -/
structure Codec (Value : Type) where
  receipt : Receipt Value → Option Bytes
  readReceipt : Bytes → Option (Receipt Value)
  ports : Str → List PortIdentity → Option Bytes
  revision : Str → Str → Str → Bool → Bool → Bytes
  plan : RecoveryPlan → Option Bytes
  pointer : Value → Str → Option Bool

/-- A receipt that was written is read again. The numbers of the payload may be read as others
that are close to them. -/
def Codec.Lawful {Value : Type} (codec : Codec Value) : Prop :=
  ∀ record bytes, codec.receipt record = some bytes →
    ∃ payload, codec.readReceipt bytes = some { record with payload } ∧
      (codec.receipt { record with payload }).isSome

/-- A character device. -/
structure DeviceNumber where
  rdev : ℕ
  inode : ℕ
  deriving DecidableEq

inductive StatFile where
  | absent
  | unreadable
  | text (stat : Str)
  deriving DecidableEq

/-- What the host says about itself while a plan is checked. `metadata` is absent where there is no
such file, and `some none` for one that is no character device. -/
structure Surroundings where
  bootId : Option Str
  stat : ℕ → StatFile
  canonicalize : Str → Option Str
  metadata : Str → Option (Option DeviceNumber)
  sysfs : ℕ → Option Str

structure Process where
  pid : ℕ
  uid : ℕ

/-- An application checks its plan twice. -/
inductive Turn where
  | first
  | latest
  deriving DecidableEq

/-- The process and what it meets while an application runs. -/
structure Host where
  process : Process
  around : Turn → Surroundings
  lockDirectory : Except NativeError Unit
  lock : Str → Except NativeError Unit
  connection : Bool
  nameHasOwner : Turn → Option Bool

/-- A device as it is configured, with what recovery reads of it besides. -/
structure ConfiguredDevice extends NativeDeviceConfig where
  sysfsAnchor : Str
  ims : Option Str := none
  data : Option Str := none
  deriving DecidableEq

inductive Reading where
  | plan (turn : Turn)
  | previous
  | unchanged
  | proof
  | archived
  | beforeRemoval
  deriving DecidableEq

inductive Stage where
  | metadata
  | opening
  | openedMetadata
  | reading
  deriving DecidableEq

/-- Where a file operation may fail. -/
inductive Site where
  | presence (turn : Turn) (directory : Str)
  | read (what : Reading) (stage : Stage)
  | create
  | write
  | syncFile
  | rename
  | syncRecord
  | createArchive
  | inspectArchive
  | protectArchive
  | proofPresence
  | syncProof
  | targetPresence
  | link
  | syncLink
  | unlink
  | syncRemoval
  deriving DecidableEq

abbrev Work (α : Type) : Type := Method Disk NativeError α

def error (reason : String) : NativeError := .ownerConflict reason.toList

/-! ## Owners -/

def parseStart (stat : Str) : Option ℕ := do
  let (_, tail) ← rsplitOnce ')' stat
  let start ← (splitWhitespace tail)[19]?
  parseUnsigned At.u64Max start

namespace Surroundings

variable (around : Surroundings)

def boot : Except NativeError Str :=
  okOr (error "native_boot_identity_unavailable") (around.bootId.map trim)

def alive (owner : OwnerInstance) : Except NativeError Bool := do
  let boot ← around.boot
  if owner.bootId ≠ boot then return false
  else match around.stat owner.pid with
    | .text stat => do
      let start ← okOr (error "native_recovery_owner_state_unknown") (parseStart stat)
      return start = owner.startTicks
    | .absent => return false
    | .unreadable => throw (error "native_recovery_owner_state_unknown")

/-- `Path::starts_with` of absolute paths. -/
def isBelow (path anchor : Str) : Bool :=
  path = anchor || (anchor ++ ['/']).isPrefixOf path || anchor = ['/']

def identity (device anchor : Str) : Except NativeError PortIdentity := do
  let absent : NativeError := .unavailable "native_control_port_absent".toList
  let canonical ← okOr absent (around.canonicalize device)
  let metadata ← okOr absent (around.metadata canonical)
  let number ← okOr (error "native_control_port_is_not_character_device") metadata
  let sysfs ← okOr (error "native_control_sysfs_unresolved") (around.sysfs number.rdev)
  if isBelow sysfs anchor then return ⟨device, canonical, sysfs, number.rdev, number.inode⟩
  else throw (error "native_control_port_wrong_physical_device")

end Surroundings

def verifyManagerAbsent : Option Bool → Except NativeError Unit
  | none => .error (error "native_owner_check_unavailable")
  | some true => .error (error "native_handover_required_modemmanager_running")
  | some false => .ok ()

/-! ## Receipts -/

section Receipts

variable {Value : Type} (codec : Codec Value) (hashes : Hashes) (host : Host) (faults : Faults Site)

def generationOf (boot : Str) (ports : List PortIdentity) : Except NativeError Str :=
  okOr (error "native_generation_encode_failed")
    ((codec.ports boot (ports.insertionSort fun a b => a.device ≤ b.device)).map (digest hashes))

def Receipt.validate (receipt : Receipt Value) (key : Str) : Except NativeError Unit :=
  let invalid := error "native_receipt_identity_invalid"
  if receipt.schema ≠ 2 || receipt.key ≠ key || receipt.lineId.isEmpty ||
      receipt.physicalKey.isEmpty || receipt.ports.isEmpty then .error invalid
  else do
    let generation ← generationOf codec hashes receipt.owner.bootId receipt.ports
    if receipt.generation ≠ generation then throw invalid
    else return ()

def validKey (key : Str) : Bool :=
  "session-".toList.isPrefixOf key && utf8Len key ≤ 100 &&
    key.all fun c => isAsciiAlphanumeric c || c = '-'

def jsonName (key : Str) : Str := key ++ ".json".toList

/-- The receipt under its key. -/
def receiptPath (directory key : Str) : Pathname := ⟨directory, jsonName key⟩

def tempPath (directory key : Str) : Pathname :=
  ⟨directory, key ++ ['.'] ++ decimal host.process.pid ++ ".tmp".toList⟩

def unavailable : NativeError := error "native_receipt_directory_unavailable"

/-- `create_dir_all` of a directory whose parent exists. -/
def makeDirectory (path : Pathname) : Work Unit := do
  reach faults .createArchive unavailable
  let disk ← get
  match disk.file path with
  | none => modify fun disk => disk.create path ⟨.directory, host.process.uid, 0o755, []⟩
  | some inode =>
    if inode.kind = .directory ∨
      inode.kind = .symlink .directory then pure () else throw unavailable

def inspectDirectory (path : Pathname) : Work Inode := do
  reach faults .inspectArchive unavailable
  let disk ← get
  let inode ← liftM (okOr unavailable (disk.file path))
  if inode.kind ≠ .directory then throw (error "native_receipt_directory_unsafe")
  else if inode.uid ≠ host.process.uid then
    throw (error "native_receipt_directory_owner_mismatch")
  else return inode

/-- A directory has one entry, so that a changed one may as well be a new one. -/
def ensureDirectory (path : Pathname) : Work Unit := do
  makeDirectory host faults path
  let inode ← inspectDirectory host faults path
  reach faults .protectArchive (error "native_receipt_permissions_failed")
  modify fun disk => disk.create path { inode with mode := 0o700 }

def syncDirectory (site : Site) : Work Unit :=
  reach faults site (error "native_receipt_directory_sync_failed")

def readPrivate (what : Reading) (path : Pathname) : Work Bytes := do
  reach faults (.read what .metadata) (error "native_receipt_metadata_unavailable")
  let disk ← get
  let inode ← liftM (okOr (error "native_receipt_metadata_unavailable") (disk.file path))
  if inode.kind ≠ .regular then throw (error "native_receipt_not_a_bounded_regular_file")
  else do
    reach faults (.read what .opening) (error "native_receipt_read_failed")
    reach faults (.read what .openedMetadata) (error "native_receipt_metadata_unavailable")
    if maxReceiptBytes < inode.bytes.length then
      throw (error "native_receipt_not_a_bounded_regular_file")
    else if inode.uid ≠ host.process.uid || inode.mode &&& 0o077 ≠ 0 then
      throw (error "native_receipt_permissions_unsafe")
    else do
      reach faults (.read what .reading) (error "native_receipt_read_failed")
      let bytes := inode.bytes.take (maxReceiptBytes + 1)
      if maxReceiptBytes < bytes.length then throw (error "native_receipt_size_limit")
      else return bytes

def createPrivate (path : Pathname) (bytes : Bytes) : Work Unit := do
  createFile faults .create (error "native_receipt_create_failed") .write
    (error "native_receipt_write_failed") path ⟨.regular, host.process.uid, 0o600, []⟩ bytes
  reach faults .syncFile (error "native_receipt_write_failed")

/-- A record is created in place, or replaces the one that is there. -/
def commitRecord (directory key : Str) (bytes : Bytes) (create : Bool) : Work Unit :=
  let path := receiptPath directory key
  if create then createPrivate host faults path bytes
  else do
    let temp := tempPath host directory key
    createPrivate host faults temp bytes
    renameFile faults .rename (error "native_receipt_commit_failed") temp path

def writeRecord (directory key : Str) (record : Receipt Value) (create : Bool) : Work Unit := do
  if !validKey key then throw (error "native_receipt_key_invalid")
  else do
    let bytes ← liftM (okOr (error "native_receipt_encode_failed") (codec.receipt record))
    commitRecord host faults directory key bytes create
    syncDirectory faults .syncRecord

/-- The receipt that the file of the key holds. -/
def previousReceipt (directory key : Str) : Work (Receipt Value) := do
  let bytes ← readPrivate host faults .previous (receiptPath directory key)
  let receipt ← liftM
    (okOr (error "native_receipt_previous_state_unknown") (codec.readReceipt bytes))
  liftM (receipt.validate codec hashes key)
  return receipt

def saveOwned (directory key : Str) (record : Receipt Value) (create : Bool) : Work Unit := do
  liftM (record.validate codec hashes key)
  if create then writeRecord codec host faults directory key record create
  else do
    let previous ← previousReceipt codec hashes host faults directory key
    if previous.owner ≠ record.owner || previous.generation ≠ record.generation ||
        previous.cleanupConfirmed then
      throw (error "native_receipt_owner_or_generation_changed")
    else writeRecord codec host faults directory key record create

def clearOwned (directory key : Str) (owner : OwnerInstance) : Work Unit := do
  if !validKey key then throw (error "native_receipt_key_invalid")
  else do
    let receipt ← previousReceipt codec hashes host faults directory key
    if receipt.owner ≠ owner then throw (error "native_receipt_owner_changed")
    else do
      -- A crash from here on leaves a record of the finished cleanup.
      writeRecord codec host faults directory key { receipt with cleanupConfirmed := true } false
      removeFile faults .unlink (error "native_receipt_remove_failed") (receiptPath directory key)
      syncDirectory faults .syncRemoval

/-! ## Plans -/

structure CheckedPlan (Value : Type) where
  plan : RecoveryPlan
  path : Pathname
  bytes : Bytes
  receipt : Receipt Value
  currentPorts : List PortIdentity

def evaluate (key : Str) (bytes : Bytes) (receipt : Receipt Value) (currentGeneration : Str)
    (ownerAlive scopeMatches : Bool) : RecoveryPlan :=
  let unknown := codec.pointer receipt.payload "/owner/external_channels_unknown".toList
  let blockers : List Str :=
    (if receipt.cleanupConfirmed then []
      else ["unconfirmed_resources_require_device_specific_review".toList]) ++
    (if unknown = some true then ["external_helper_channel_cleanup_not_proven".toList] else []) ++
    (if ownerAlive then ["original_owner_still_running".toList] else []) ++
    (if scopeMatches then [] else ["configured_physical_scope_changed".toList])
  { receipt := jsonName key
    revision := digest hashes
      (codec.revision key (digest hashes bytes) currentGeneration ownerAlive scopeMatches)
    lineId := some receipt.lineId
    physicalKey := some receipt.physicalKey
    generationChanged := receipt.generation ≠ currentGeneration
    eligible := blockers.isEmpty
    blockers
    action := "archive_confirmed_cleanup_only".toList }

/-- The only configured device with this line. -/
def exactLine (specs : List ConfiguredDevice) (line : Str) : Except NativeError ConfiguredDevice :=
  match specs.filter fun spec => lineId hashes spec.toNativeDeviceConfig = line with
  | [spec] => .ok spec
  | _ => .error (error "native_recovery_exact_configured_line_required")

/-- What a plan says once the bytes of the receipt have been read. -/
def planOf (around : Surroundings) (specs : List ConfiguredDevice) (key : Str) (path : Pathname)
    (bytes : Bytes) : Except NativeError (CheckedPlan Value) := do
  let receipt ← okOr (error "native_recovery_legacy_or_partial_receipt_requires_review")
    (codec.readReceipt bytes)
  receipt.validate codec hashes key
  let spec ← exactLine hashes specs receipt.lineId
  let anchor ← okOr (error "native_recovery_physical_anchor_absent")
    (around.canonicalize spec.sysfsAnchor)
  let paths := [spec.controlDevice] ++ spec.atDevice.toList ++ spec.ims.toList ++ spec.data.toList
  let currentPorts ← (paths.dedup.insertionSort fun a b => a ≤ b).mapM fun path =>
    around.identity path anchor
  let boot ← around.boot
  let currentGeneration ← generationOf codec hashes boot currentPorts
  let scopeMatches := decide (receipt.anchor = anchor ∧ receipt.physicalKey = spec.hardwareKey ∧
    receipt.slot = spec.uimSlot)
  let alive ← around.alive receipt.owner
  return {
    plan := evaluate codec hashes key bytes receipt currentGeneration alive scopeMatches
    path, bytes, receipt, currentPorts }

/-- The key in the name of a receipt. -/
def keyOf (file : Str) : Option Str := (".json".toList.isSuffixOf? file).filter validKey

/-- The one directory with a file of this name. -/
def locate (turn : Turn) (file : Str) : Work Pathname := do
  let persistent ← pathExists faults (.presence turn receiptDirectory) ⟨receiptDirectory, file⟩
  let runtime ← pathExists faults (.presence turn lockDirectory) ⟨lockDirectory, file⟩
  match persistent, runtime with
  | true, false => return ⟨receiptDirectory, file⟩
  | false, true => return ⟨lockDirectory, file⟩
  | _, _ => throw (error "native_recovery_receipt_missing_or_ambiguous")

def checkedPlan (turn : Turn) (file : Str) (specs : List ConfiguredDevice) :
    Work (CheckedPlan Value) := do
  let key ← liftM (okOr (error "native_recovery_receipt_name_invalid") (keyOf file))
  let path ← locate faults turn file
  let bytes ← readPrivate host faults (.plan turn) path
  liftM (planOf codec hashes (host.around turn) specs key path bytes)

/-- The locks of the ports, those of the receipt and the present ones, and of the anchor. -/
def lockNames (record : CheckedPlan Value) : List Str :=
  let ports := (record.receipt.ports ++ record.currentPorts).map fun port =>
    "port-".toList ++ decimal port.rdev
  let physical := "physical-".toList ++ hexLower (hashes.md5 (asBytes record.receipt.anchor))
  (ports ++ [physical]).dedup.insertionSort fun a b => a ≤ b

def recoveryLocks (record : CheckedPlan Value) : Except NativeError Unit := do
  host.lockDirectory
  (lockNames hashes record).forM host.lock

/-! ## Archiving -/

def archiveDirectory (directory : Str) : Str := directory ++ "/resolved".toList

/-- The stem under which a receipt and the evidence for its removal are archived. -/
def stem (key revision : Str) : Str := key ++ ['-'] ++ revision

def proofPath (directory key revision : Str) : Pathname :=
  ⟨archiveDirectory directory, stem key revision ++ ".resolution.json".toList⟩

def archivePath (directory key revision : Str) : Pathname :=
  ⟨archiveDirectory directory, stem key revision ++ ".receipt.json".toList⟩

/-- The file holds these bytes and no others. -/
def confirm (what : Reading) (path : Pathname) (bytes : Bytes) (collision : NativeError) :
    Work Unit := do
  let present ← readPrivate host faults what path
  if present = bytes then pure () else throw collision

/-- The evidence is in the archive, or goes there. -/
def placeProof (path : Pathname) (bytes : Bytes) : Work Unit := do
  let found ← pathExists faults .proofPresence path
  if found then
    confirm host faults .proof path bytes (error "native_recovery_resolution_collision")
  else createPrivate host faults path bytes

/-- The receipt is in the archive, or is linked there. -/
def placeReceipt (source target : Pathname) (bytes : Bytes) : Work Unit := do
  let found ← pathExists faults .targetPresence target
  if found then
    confirm host faults .archived target bytes (error "native_recovery_archive_collision")
  else hardLink faults .link (error "native_recovery_archive_failed") source target

def archiveExact (record : CheckedPlan Value) : Work Unit := do
  if !record.plan.eligible || !record.receipt.cleanupConfirmed then
    throw (error "native_recovery_cleanup_not_confirmed")
  else do
    let directory := record.path.directory
    let changed := error "native_recovery_receipt_changed"
    confirm host faults .unchanged record.path record.bytes changed
    ensureDirectory host faults ⟨directory, "resolved".toList⟩
    let bytes ← liftM
      (okOr (error "native_recovery_evidence_encode_failed") (codec.plan record.plan))
    placeProof host faults (proofPath directory record.receipt.key record.plan.revision) bytes
    syncDirectory faults .syncProof
    placeReceipt host faults record.path
      (archivePath directory record.receipt.key record.plan.revision) record.bytes
    syncDirectory faults .syncLink
    confirm host faults .beforeRemoval record.path record.bytes changed
    removeFile faults .unlink (error "native_recovery_source_retirement_failed") record.path
    syncDirectory faults .syncRemoval

def apply (file : Str) (specs : List ConfiguredDevice) (revision line physicalKey : Str) :
    Work RecoveryPlan := do
  let first ← checkedPlan codec hashes host faults .first file specs
  if !first.plan.eligible || first.plan.revision ≠ revision || first.receipt.lineId ≠ line ||
      first.receipt.physicalKey ≠ physicalKey then
    throw (error "native_recovery_confirmation_or_revision_mismatch")
  else do
    liftM (recoveryLocks hashes host first)
    if !host.connection then throw (error "native_recovery_owner_check_unavailable")
    else do
      liftM (verifyManagerAbsent (host.nameHasOwner .first))
      let latest ← checkedPlan codec hashes host faults .latest file specs
      if !latest.plan.eligible || latest.plan.revision ≠ revision then
        throw (error "native_recovery_state_changed")
      else do
        liftM (verifyManagerAbsent (host.nameHasOwner .latest))
        archiveExact codec host faults latest
        return latest.plan

end Receipts

/-! ## Requests -/

/-- What a process does with a receipt. -/
inductive Request (Value : Type) where
  | save (directory key : Str) (record : Receipt Value) (create : Bool)
  | clear (directory key : Str) (owner : OwnerInstance)
  | apply (file : Str) (specs : List ConfiguredDevice) (revision line physicalKey : Str)

def Request.run {Value : Type} (codec : Codec Value) (hashes : Hashes) (host : Host)
    (request : Request Value) (faults : Faults Site) : Work Unit :=
  match request with
  | .save directory key record create =>
    saveOwned codec hashes host faults directory key record create
  | .clear directory key owner => clearOwned codec hashes host faults directory key owner
  | .apply file specs revision line physicalKey => do
    let _ ← Recovery.apply codec hashes host faults file specs revision line physicalKey
    return ()

end SimMaster.Recovery
