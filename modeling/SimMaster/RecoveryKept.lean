import SimMaster.Recovery

/-!
# No receipt is lost

Whatever operations fail, and wherever the process stops, a complete receipt is still there
afterwards, unless it was saved over by its owner, cleared by its owner after it had been marked, or
archived; and no other file is touched.
-/

namespace SimMaster.Recovery

open Rust Method NativeSms List Option Function

section Kept

variable {Value : Type} (codec : Codec Value) (hashes : Hashes) (host : Host)
  (faults : Faults Site)

/-- A file that `readPrivate` accepts. -/
structure Readable (inode : Inode) : Prop where
  regular : inode.kind = .regular
  bounded : inode.bytes.length ≤ maxReceiptBytes
  owned : inode.uid = host.process.uid
  closed : inode.mode &&& 0o077 = 0

/-- The file holds a whole receipt of the key. -/
structure Complete (key : Str) (inode : Inode) (receipt : Receipt Value) : Prop where
  regular : inode.kind = .regular
  decoded : codec.readReceipt inode.bytes = some receipt
  valid : receipt.validate codec hashes key = .ok ()

/-- What may have become of a receipt that was complete before the request. -/
inductive Fate (request : Request Value) (directory key : Str) (inode : Inode)
    (receipt : Receipt Value) (files : Files) : Prop
  | kept (hfile : files (receiptPath directory key) = some inode)
  | replaced (record : Receipt Value) (inode' : Inode)
      (hrequest : request = .save directory key record false)
      (howner : record.owner = receipt.owner) (hgeneration : record.generation = receipt.generation)
      (hopen : receipt.cleanupConfirmed = false)
      (hfile : files (receiptPath directory key) = some inode')
      (hrecord : codec.receipt record = some inode'.bytes)
  | marked (inode' : Inode) (hrequest : request = .clear directory key receipt.owner)
      (hfile : files (receiptPath directory key) = some inode')
      (hrecord : codec.receipt { receipt with cleanupConfirmed := true } = some inode'.bytes)
  | cleared (hrequest : request = .clear directory key receipt.owner)
      -- the marked receipt had been put in place, and the directory synced
      (hmarked : faults .rename = none ∧ faults .syncRecord = none)
      (hfile : files (receiptPath directory key) = none)
  | archived (specs : List ConfiguredDevice) (revision line physicalKey : Str)
      (checked : CheckedPlan Value) (copy : Inode)
      (hrequest : request = .apply (jsonName key) specs revision line physicalKey)
      (hconfirmed : receipt.cleanupConfirmed = true)
      (hdead : (host.around .latest).alive receipt.owner = .ok false)
      (hplan : planOf codec hashes (host.around .latest) specs key (receiptPath directory key)
        inode.bytes = .ok checked)
      (hrevision : checked.plan.revision = revision)
      (hfile : files (receiptPath directory key) = none)
      (hcopy : files (archivePath directory key revision) = some copy)
      (hbytes : copy.bytes = inode.bytes)

/-- The receipt that the request is about. -/
def Request.Owns : Request Value → Pathname → Prop
  | .save directory key _ _, path => path = receiptPath directory key
  | .clear directory key _, path => path = receiptPath directory key
  | .apply file _ _ _ _, path => path.name = file

/-- No receipt is lost, and nothing else is touched. -/
structure Kept (request : Request Value) (files files' : Files) : Prop where
  others : ∀ path, ¬ request.Owns path → Retains files files' path
  receipts : ∀ directory key inode receipt, files (receiptPath directory key) = some inode →
    Complete codec hashes key inode receipt →
    Fate codec hashes host faults request directory key inode receipt files'

end Kept

variable {Value : Type} {codec : Codec Value} {hashes : Hashes} {host : Host}
  {faults : Faults Site} {request : Request Value} {files files' : Files} {disk : Disk}
  {directory key : Str}

theorem receiptPath_inj {directory' key' : Str} :
    receiptPath directory key = receiptPath directory' key' ↔ directory = directory' ∧
    key = key' := by
  rw [receiptPath, receiptPath, Pathname.mk.injEq, jsonName, jsonName, append_left_inj]

theorem tempPath_ne_receiptPath : tempPath host directory key ≠ receiptPath directory key := by
  intro h
  have hlast := congrArg (fun path : Pathname => path.name.reverse.head?) h
  simp [tempPath, receiptPath, jsonName] at hlast

/-- All is well as long as all files are as they were. -/
theorem kept_of_grown (h : Grown files disk) :
    Kept codec hashes host faults request files disk.file where
  others path _ := h path
  receipts _ _ inode _ hfile hcomplete := .kept (h _ inode hfile hcomplete.regular)

/-- What one request makes of its own receipt decides. -/
theorem Kept.of_own (hothers : ∀ path, ¬ request.Owns path → Retains files files' path)
    (hown : ∀ directory key inode receipt, request.Owns (receiptPath directory key) →
      files (receiptPath directory key) = some inode → Complete codec hashes key inode receipt →
      Fate codec hashes host faults request directory key inode receipt files') :
    Kept codec hashes host faults request files files' where
  others := hothers
  receipts directory key inode receipt hfile hcomplete := by
    by_cases howns : request.Owns (receiptPath directory key)
    · exact hown directory key inode receipt howns hfile hcomplete
    · exact .kept (hothers _ howns inode hfile hcomplete.regular)

/-! ## Reading -/

section Reading

variable {P E : Disk → Prop}

/-- Reading changes nothing. -/
theorem readPrivate_triple (what : Reading) (path : Pathname) (hE : ∀ disk, P disk → E disk) :
    Triple P (readPrivate host faults what path)
      (fun bytes disk => P disk ∧ ∃ inode, disk.file path = some inode ∧ Readable host inode ∧
        inode.bytes = bytes) E := by
  refine .reach_bind hE (.of_get fun disk hdisk => ?_)
  have hE' : ∀ d, d = disk → E d := fun d h => h ▸ hE disk hdisk
  refine .bind (Q := fun inode d => d = disk ∧ disk.file path = some inode)
    (.of_lift (fun inode h d hd => ⟨hd, okOr_eq_ok.mp h⟩) hE') fun inode => ?_
  have hE'' : ∀ d, d = disk ∧ disk.file path = some inode → E d := fun d h => hE' d h.1
  refine .of_ite (fun _ => .of_throw hE'') fun hkind => .reach_bind hE'' (.reach_bind hE'' ?_)
  refine .of_ite (fun _ => .of_throw hE'') fun hlength => ?_
  refine .of_ite (fun _ => .of_throw hE'') fun hsafe => .reach_bind hE'' ?_
  refine .of_ite (fun _ => .of_throw hE'') fun _ => .of_pure ?_
  rintro d ⟨rfl, hfile⟩
  obtain ⟨howned, hclosed⟩ : inode.uid = host.process.uid ∧ inode.mode &&& 0o077 = 0 := by
    simpa using hsafe
  exact ⟨hdisk, inode, hfile, ⟨not_not.mp hkind, not_lt.mp hlength, howned, hclosed⟩,
    (take_of_length_le (by omega)).symm⟩

theorem confirm_triple (what : Reading) (path : Pathname) (bytes : Bytes) (collision : NativeError)
    (hE : ∀ disk, P disk → E disk) : Triple P (confirm host faults what path bytes collision)
      (fun _ disk => P disk ∧ ∃ inode, disk.file path = some inode ∧ Readable host inode ∧
        inode.bytes = bytes) E := by
  refine (readPrivate_triple what path hE).bind fun present => .of_ite (fun heq => ?_) fun _ => ?_
  · rw [← heq]
    exact .of_pure fun disk h => h
  · exact .of_throw fun disk h => hE disk h.1

theorem syncDirectory_triple (site : Site) (hE : ∀ disk, P disk → E disk) :
    Triple P (syncDirectory faults site) (fun _ disk => faults site = none ∧ P disk) E :=
  .of_reach hE

theorem previousReceipt_triple (hE : ∀ disk, P disk → E disk) :
    Triple P (previousReceipt codec hashes host faults directory key)
      (fun receipt disk => P disk ∧ ∃ inode, disk.file (receiptPath directory key) = some inode ∧
        Readable host inode ∧ Complete codec hashes key inode receipt) E := by
  refine (readPrivate_triple .previous _ hE).bind fun bytes => ?_
  refine .bind (Q := fun receipt disk => P disk ∧ ∃ inode,
    disk.file (receiptPath directory key) = some inode ∧ Readable host inode ∧
    codec.readReceipt inode.bytes = some receipt) (.of_lift ?_ fun disk h => hE disk h.1)
    fun receipt => ?_
  · rintro receipt hread disk ⟨hdisk, inode, hfile, hreadable, rfl⟩
    exact ⟨hdisk, inode, hfile, hreadable, okOr_eq_ok.mp hread⟩
  · refine .bind (Q := fun _ disk => P disk ∧ ∃ inode,
      disk.file (receiptPath directory key) = some inode ∧ Readable host inode ∧
      Complete codec hashes key inode receipt) (.of_lift ?_ fun disk h => hE disk h.1)
      fun _ => .of_pure fun disk h => h
    rintro _ hvalid disk ⟨hdisk, inode, hfile, hreadable, hread⟩
    exact ⟨hdisk, inode, hfile, hreadable, hreadable.regular, hread, hvalid⟩

end Reading

/-! ## Writing -/

theorem createPrivate_triple (path : Pathname) (bytes : Bytes) :
    Triple (Grown files) (createPrivate host faults path bytes)
      (fun _ disk => Grown files disk ∧ Vacant files path ∧
        ∃ inode, disk.file path = some inode ∧ inode.bytes = bytes) (Grown files) := by
  refine Triple.of_createFile_grown.bind fun _ => (Triple.of_reach fun _ h => h.1).strengthen ?_
  rintro _ disk ⟨-, hgrown, hvacant, hfile⟩
  exact ⟨hgrown, hvacant, _, hfile, rfl⟩

/-- A record that takes the place of another one. -/
def Recorded (files : Files) (path : Pathname) (bytes : Bytes) (disk : Disk) : Prop :=
  (∀ q, q ≠ path → Retains files disk.file q) ∧
    ∃ inode, disk.file path = some inode ∧ inode.bytes = bytes

theorem commitRecord_triple (bytes : Bytes) :
    Triple (Grown files) (commitRecord host faults directory key bytes false)
      (fun _ disk => faults .rename = none ∧ Recorded files (receiptPath directory key) bytes disk)
      (Grown files) := by
  have hne : tempPath host directory key ≠ receiptPath directory key := tempPath_ne_receiptPath
  refine (createPrivate_triple _ bytes).bind fun _ =>
    (Triple.of_renameFile fun _ h => h.1).strengthen ?_
  rintro _ disk' ⟨hfaults, disk, ⟨hgrown, hvacant, inode, hfile, hbytes⟩, hrenamed⟩
  refine ⟨hfaults, fun q hq => ?_, inode, ?_, hbytes⟩
  · rw [hrenamed]
    by_cases htemp : q = tempPath host directory key
    · rw [htemp]
      exact hvacant.retains
    · exact ((hgrown q).of_update hq).of_update htemp
  · rw [hrenamed, update_of_ne hne.symm, update_self, hfile]

variable (record : Receipt Value)

theorem writeRecord_triple :
    Triple (Grown files) (writeRecord codec host faults directory key record false)
      (fun _ disk => (faults .rename = none ∧ faults .syncRecord = none) ∧
        ∃ bytes, codec.receipt record = some bytes ∧
          Recorded files (receiptPath directory key) bytes disk)
      (fun disk => Grown files disk ∨ ∃ bytes, codec.receipt record = some bytes ∧
        Recorded files (receiptPath directory key) bytes disk) := by
  refine .of_ite (fun _ => .of_throw fun _ h => .inl h) fun _ => ?_
  refine .bind (Q := fun bytes disk => codec.receipt record = some bytes ∧ Grown files disk)
    (.of_lift (fun bytes h disk hdisk => ⟨okOr_eq_ok.mp h, hdisk⟩) fun _ h => .inl h) fun bytes =>
      ?_
  refine .given fun hbytes => .bind
    (Q := fun _ disk => faults .rename = none ∧
      Recorded files (receiptPath directory key) bytes disk)
    ((commitRecord_triple bytes).relax fun _ h => .inl h) fun _ => ?_
  refine (syncDirectory_triple .syncRecord fun disk h => .inr ⟨bytes, hbytes, h.2⟩).strengthen ?_
  rintro _ disk ⟨hsync, hrename, hrecorded⟩
  exact ⟨⟨hrename, hsync⟩, bytes, hbytes, hrecorded⟩

/-! ## Requests of the owner -/

variable {inode : Inode} {receipt : Receipt Value}

/-- A receipt is the one its file was read as. -/
theorem Complete.unique {receipt' : Receipt Value}
    (h : Complete codec hashes key inode receipt) (h' : Complete codec hashes key inode receipt') :
    receipt' = receipt := some.inj (h'.decoded.symm.trans h.decoded)

variable {inode₀ : Inode} {bytes : Bytes}

/-- Saving over the receipt of the same owner. -/
theorem kept_of_replaced {record previous : Receipt Value}
    (hfile₀ : files (receiptPath directory key) = some inode₀)
    (hcomplete₀ : Complete codec hashes key inode₀ previous)
    (howner : record.owner = previous.owner) (hgeneration : record.generation = previous.generation)
    (hopen : previous.cleanupConfirmed = false) (hbytes : codec.receipt record = some bytes)
    (hrecorded : Recorded files (receiptPath directory key) bytes disk) :
    Kept codec hashes host faults (.save directory key record false) files disk.file := by
  obtain ⟨hothers, inode', hfile', rfl⟩ := hrecorded
  refine .of_own hothers ?_
  rintro directory' key' inode receipt howns hfile hcomplete
  obtain ⟨rfl, rfl⟩ := receiptPath_inj.mp howns
  obtain rfl : inode = inode₀ := some.inj (hfile.symm.trans hfile₀)
  obtain rfl := hcomplete.unique hcomplete₀
  exact .replaced record inode' rfl howner hgeneration hopen hfile' hbytes

/-- The owner read its receipt, and nothing has changed since. -/
theorem ownReceipt_triple :
    Triple (fun disk => disk.file = files) (previousReceipt codec hashes host faults directory key)
      (fun receipt disk => (∃ inode, files (receiptPath directory key) = some inode ∧
        Readable host inode ∧ Complete codec hashes key inode receipt) ∧ Grown files disk)
      (Grown files) := by
  refine (previousReceipt_triple fun disk h => .of_eq h).strengthen ?_
  rintro receipt disk ⟨rfl, hfile⟩
  exact ⟨hfile, .of_eq rfl⟩

theorem createRecord_triple :
    Triple (Grown files) (writeRecord codec host faults directory key record true)
      (fun _ => Grown files) (Grown files) := by
  refine .of_ite (fun _ => .of_throw fun _ h => h) fun _ => ?_
  refine .bind (Q := fun _ => Grown files) (.of_lift (fun _ _ _ h => h) fun _ h => h) fun bytes =>
    ?_
  refine .bind (Q := fun _ => Grown files)
    ((createPrivate_triple _ bytes).strengthen fun _ _ h => h.1) fun _ => ?_
  exact (syncDirectory_triple .syncRecord fun _ h => h).strengthen fun _ _ h => h.2

theorem saveOwned_triple (create : Bool) : Triple (fun disk => disk.file = files)
      (saveOwned codec hashes host faults directory key record create)
      (fun _ disk => Kept codec hashes host faults (.save directory key record create)
        files disk.file)
      (fun disk => Kept codec hashes host faults (.save directory key record create) files
        disk.file) := by
  refine .bind (Q := fun _ disk => disk.file = files)
    (.of_lift (fun _ _ _ h => h) fun disk h => kept_of_grown (.of_eq h)) fun _ => ?_
  cases create with
  | true =>
    refine (((createRecord_triple record).weaken fun disk h => .of_eq h).strengthen ?_).relax ?_
    · exact fun _ disk h => kept_of_grown h
    · exact fun disk h => kept_of_grown h
  | false =>
    refine .bind (ownReceipt_triple.relax fun disk h => kept_of_grown h) fun previous => ?_
    refine .given fun ⟨inode, hfile, _, hcomplete⟩ => .of_ite (fun _ => ?_) fun hguard => ?_
    · exact .of_throw fun disk h => kept_of_grown h
    · simp only [Bool.or_eq_true, decide_eq_true_eq, not_or, not_not, Bool.not_eq_true] at hguard
      obtain ⟨⟨howner, hgeneration⟩, hopen⟩ := hguard
      refine ((writeRecord_triple record).strengthen ?_).relax ?_
      · rintro _ disk ⟨-, bytes, hbytes, hrecorded⟩
        exact kept_of_replaced hfile hcomplete howner.symm hgeneration.symm hopen hbytes hrecorded
      · rintro disk (h | ⟨bytes, hbytes, hrecorded⟩)
        · exact kept_of_grown h
        · exact kept_of_replaced hfile hcomplete howner.symm hgeneration.symm hopen hbytes hrecorded

/-- A receipt that its owner is clearing. -/
theorem kept_of_clearing {receipt₀ : Receipt Value}
    (hfile₀ : files (receiptPath directory key) = some inode₀)
    (hcomplete₀ : Complete codec hashes key inode₀ receipt₀)
    (hothers : ∀ q, q ≠ receiptPath directory key → Retains files files' q)
    (hown : (∃ inode', files' (receiptPath directory key) = some inode' ∧
        codec.receipt { receipt₀ with cleanupConfirmed := true } = some inode'.bytes) ∨
      ((faults .rename = none ∧ faults .syncRecord = none) ∧
        files' (receiptPath directory key) = none)) :
    Kept codec hashes host faults (.clear directory key receipt₀.owner) files files' := by
  refine .of_own hothers ?_
  rintro directory' key' inode receipt howns hfile hcomplete
  obtain ⟨rfl, rfl⟩ := receiptPath_inj.mp howns
  obtain rfl : inode = inode₀ := some.inj (hfile.symm.trans hfile₀)
  obtain rfl := hcomplete.unique hcomplete₀
  rcases hown with ⟨inode', hfile', hrecord⟩ | ⟨hmarked, hnone⟩
  · exact .marked inode' rfl hfile' hrecord
  · exact .cleared rfl hmarked hnone

theorem clearOwned_triple (owner : OwnerInstance) : Triple (fun disk => disk.file = files)
      (clearOwned codec hashes host faults directory key owner)
      (fun _ disk => Kept codec hashes host faults (.clear directory key owner) files disk.file)
      (fun disk => Kept codec hashes host faults (.clear directory key owner) files disk.file) := by
  refine .of_ite (fun _ => .of_throw fun disk h => kept_of_grown (.of_eq h)) fun _ => ?_
  refine .bind (ownReceipt_triple.relax fun disk h => kept_of_grown h) fun receipt => ?_
  refine .given fun ⟨inode, hfile, _, hcomplete⟩ => .of_ite (fun _ => ?_) fun howner => ?_
  · exact .of_throw fun disk h => kept_of_grown h
  obtain rfl : receipt.owner = owner := not_not.mp howner
  have hmark : ∀ disk : Disk, (∃ bytes,
      codec.receipt { receipt with cleanupConfirmed := true } = some bytes ∧
      Recorded files (receiptPath directory key) bytes disk) →
      Kept codec hashes host faults (.clear directory key receipt.owner) files disk.file := by
    rintro disk ⟨bytes, hbytes, hothers, inode', hfile', rfl⟩
    exact kept_of_clearing hfile hcomplete hothers (.inl ⟨inode', hfile', hbytes⟩)
  refine .bind ((writeRecord_triple _).relax ?_) fun _ => ?_
  · rintro disk (h | h)
    · exact kept_of_grown h
    · exact hmark disk h
  refine .given fun hmarked => .bind (Triple.of_removeFile hmark) fun _ => ?_
  have hclear : ∀ disk : Disk, (∃ disk₀ : Disk, (∃ bytes,
      codec.receipt { receipt with cleanupConfirmed := true } = some bytes ∧
      Recorded files (receiptPath directory key) bytes disk₀) ∧
      disk.file = update disk₀.file (receiptPath directory key) none) →
      Kept codec hashes host faults (.clear directory key receipt.owner) files disk.file := by
    rintro disk ⟨disk₀, ⟨bytes, -, hothers, -⟩, hremoved⟩
    rw [hremoved]
    refine kept_of_clearing hfile hcomplete (fun q hq => (hothers q hq).of_update hq) (.inr ?_)
    exact ⟨hmarked, update_self _ _ _⟩
  exact (syncDirectory_triple .syncRemoval hclear).strengthen fun _ disk h => hclear disk h.2

/-! ## Plans -/

theorem key_of_valid (h : receipt.validate codec hashes key = .ok ()) : receipt.key = key := by
  rw [Receipt.validate] at h
  split at h
  next => cases h
  next hguard =>
    simp only [Bool.or_eq_true, decide_eq_true_eq, not_or, not_not] at hguard
    exact hguard.1.1.1.2

variable {specs : List ConfiguredDevice} {checked : CheckedPlan Value}

/-- What a checked plan rests on. -/
theorem planOf_spec {around : Surroundings} {path : Pathname}
    (h : planOf codec hashes around specs key path bytes = .ok checked) :
    checked.path = path ∧ checked.bytes = bytes ∧ codec.readReceipt bytes = some checked.receipt ∧
      checked.receipt.validate codec hashes key = .ok () ∧
      ∃ generation alive scopeMatches, around.alive checked.receipt.owner = .ok alive ∧
        checked.plan =
          evaluate codec hashes key bytes checked.receipt generation alive scopeMatches := by
  obtain ⟨receipt, hreceipt, h⟩ := bind_eq_ok.mp h
  obtain ⟨⟨⟩, hvalid, h⟩ := bind_eq_ok.mp h
  obtain ⟨spec, -, h⟩ := bind_eq_ok.mp h
  obtain ⟨anchor, -, h⟩ := bind_eq_ok.mp h
  obtain ⟨ports, -, h⟩ := bind_eq_ok.mp h
  obtain ⟨boot, -, h⟩ := bind_eq_ok.mp h
  obtain ⟨generation, -, h⟩ := bind_eq_ok.mp h
  obtain ⟨alive, halive, h⟩ := bind_eq_ok.mp h
  cases h
  exact ⟨rfl, rfl, okOr_eq_ok.mp hreceipt, hvalid, generation, alive, _, halive, rfl⟩

/-- Only a receipt with its cleanup confirmed and its owner dead is eligible. -/
theorem eligible_iff {generation : Str} {alive scopeMatches : Bool} :
    (evaluate codec hashes key bytes receipt generation alive scopeMatches).eligible = true ↔
      receipt.cleanupConfirmed = true ∧
      codec.pointer receipt.payload "/owner/external_channels_unknown".toList ≠ some true ∧
      alive = false ∧ scopeMatches = true := by
  simp only [evaluate, List.isEmpty_iff, append_eq_nil_iff, and_assoc, ite_eq_left_iff,
    ite_eq_right_iff, reduceCtorEq, imp_false, Bool.not_eq_true, Bool.not_eq_false, ne_eq]

variable {turn : Turn} {file : Str}

theorem locate_triple {P E : Disk → Prop} (hE : ∀ disk, P disk → E disk) :
    Triple P (locate faults turn file) (fun path disk => P disk ∧ path.name = file) E := by
  refine .bind (Q := fun _ => P) (Triple.of_pathExists.strengthen fun _ _ h =>
    h.1) fun persistent => ?_
  refine .bind (Q := fun _ => P) (Triple.of_pathExists.strengthen fun _ _ h => h.1) fun runtime =>
    ?_
  rcases persistent, runtime with ⟨_ | _, _ | _⟩
  · exact .of_throw hE
  · exact .of_pure fun disk h => ⟨h, rfl⟩
  · exact .of_pure fun disk h => ⟨h, rfl⟩
  · exact .of_throw hE

theorem keyOf_eq_some : keyOf file = some key ↔ file = jsonName key ∧ validKey key = true := by
  rw [keyOf, filter_eq_some_iff, isSuffixOf?_eq_some_iff_append_eq, jsonName]
  constructor
  · rintro ⟨rfl, h⟩
    exact ⟨rfl, h⟩
  · rintro ⟨rfl, h⟩
    exact ⟨rfl, h⟩

section Archiving

variable (codec hashes) in
/-- A checked plan is that of a file which is there. -/
def Located (around : Surroundings) (file : Str) (specs : List ConfiguredDevice) (files : Files)
    (checked : CheckedPlan Value) : Prop :=
  ∃ key inode, file = jsonName key ∧ checked.path.name = file ∧ files checked.path = some inode ∧
    inode.kind = .regular ∧
    planOf codec hashes around specs key checked.path inode.bytes = .ok checked

theorem checkedPlan_triple :
    Triple (fun disk => disk.file = files) (checkedPlan codec hashes host faults turn file specs)
      (fun checked disk => Located codec hashes (host.around turn) file specs files checked ∧
        disk.file = files) (fun disk => disk.file = files) := by
  refine .bind (Q := fun key disk => keyOf file = some key ∧ disk.file = files)
    (.of_lift (fun key h disk hdisk => ⟨okOr_eq_ok.mp h, hdisk⟩) fun _ h => h) fun key => ?_
  refine .given fun hkey => ?_
  refine .bind (Q := fun path disk => path.name = file ∧ disk.file = files)
    ((locate_triple fun _ h => h).strengthen fun _ _ h => h.symm) fun path => .given fun hname => ?_
  refine (readPrivate_triple (.plan turn) path fun _ h => h).bind fun bytes =>
    .of_lift ?_ fun _ h => h.1
  rintro checked hplan disk ⟨rfl, inode, hfile, hreadable, rfl⟩
  obtain rfl := (planOf_spec hplan).1
  exact ⟨⟨key, inode, (keyOf_eq_some.mp hkey).1, hname, hfile, hreadable.regular, hplan⟩, rfl⟩

theorem archiveDirectory_ne : archiveDirectory directory ≠ directory := by
  intro h
  have hlength := congrArg List.length h
  simp [archiveDirectory] at hlength

/-! ## Archiving -/

theorem ensureDirectory_triple (path : Pathname) :
    Triple (Grown files) (ensureDirectory host faults path) (fun _ => Grown files)
    (Grown files) := by
  refine .bind (Q := fun _ => Grown files) ?_ fun _ => ?_
  · refine .reach_bind (fun _ h => h) (.of_get fun disk hdisk => ?_)
    split
    next hnone =>
      refine .of_modify ?_
      rintro disk' rfl
      refine hdisk.of_update (hdisk.vacant fun inode h => ?_) (disk'.file_create path _)
      rw [hnone] at h
      cases h
    next inode _ =>
      exact .of_ite (fun _ => .of_pure fun _ h => h ▸ hdisk) fun _ => .of_throw fun _ h => h ▸ hdisk
  · refine .bind (Q := fun _ disk => Grown files disk ∧ Vacant files path) ?_ fun inode => ?_
    · refine .reach_bind (fun _ h => h) (.of_get fun disk hdisk => ?_)
      refine .bind (Q := fun inode d => d = disk ∧ disk.file path = some inode)
        (.of_lift (fun inode h d hd => ⟨hd, okOr_eq_ok.mp h⟩) fun _ h => h ▸ hdisk) fun inode => ?_
      refine .of_ite (fun _ => .of_throw fun _ h => h.1 ▸ hdisk) fun hkind => ?_
      refine .of_ite (fun _ => .of_throw fun _ h => h.1 ▸ hdisk) fun _ => .of_pure ?_
      rintro d ⟨rfl, hfile⟩
      refine ⟨hdisk, hdisk.vacant fun inode' hfile' => ?_⟩
      obtain rfl := some.inj (hfile.symm.trans hfile')
      rw [not_not.mp hkind]
      decide
    · refine .reach_bind (fun _ h => h.1) (.of_modify ?_)
      rintro disk ⟨hdisk, hvacant⟩
      exact hdisk.of_update hvacant (disk.file_create path _)

theorem placeProof_triple (path : Pathname) (bytes : Bytes) :
    Triple (Grown files) (placeProof host faults path bytes) (fun _ => Grown files)
      (Grown files) := by
  refine Triple.of_pathExists.bind fun found => .of_ite (fun _ => ?_) fun _ => ?_
  · exact ((confirm_triple .proof path bytes _ fun _ h => h.1).strengthen fun _ _ h => h.1.1)
  · exact ((createPrivate_triple path bytes).weaken fun _ h => h.1).strengthen fun _ _ h => h.1

/-- The archive holds the bytes of the receipt. -/
def Stored (files : Files) (target : Pathname) (bytes : Bytes) (disk : Disk) : Prop :=
  Grown files disk ∧ ∃ copy, disk.file target = some copy ∧ copy.bytes = bytes

theorem placeReceipt_triple {source target : Pathname}
    (hsource : files source = some inode) (hkind : inode.kind = .regular) (hne : target ≠ source) :
    Triple (Grown files) (placeReceipt host faults source target inode.bytes)
      (fun _ => Stored files target inode.bytes) (Grown files) := by
  refine Triple.of_pathExists.bind fun found => .of_ite (fun _ => ?_) fun _ => ?_
  · refine (confirm_triple .archived target inode.bytes _ fun _ h => h.1).strengthen ?_
    rintro _ disk ⟨⟨hgrown, -⟩, copy, hcopy, -, hbytes⟩
    exact ⟨hgrown, copy, hcopy, hbytes⟩
  · refine ((Triple.of_hardLink_grown fun _ h => h).weaken fun _ h => h.1).strengthen ?_
    rintro _ disk ⟨hgrown, hlink⟩
    exact ⟨hgrown, inode, (hlink hne).trans (hgrown source inode hsource hkind), rfl⟩

/-- The receipt has gone to the archive. -/
def Archived (files : Files) (source target : Pathname) (bytes : Bytes) (disk : Disk) : Prop :=
  (∀ q, q ≠ source → Retains files disk.file q) ∧ disk.file source = none ∧
    ∃ copy, disk.file target = some copy ∧ copy.bytes = bytes

theorem archiveExact_triple (hsource : files checked.path = some inode)
    (hkind : inode.kind = .regular) (hbytes : inode.bytes = checked.bytes) :
    Triple (Grown files) (archiveExact codec host faults checked)
      (fun _ disk => (checked.plan.eligible = true ∧ checked.receipt.cleanupConfirmed = true) ∧
        Archived files checked.path (archivePath checked.path.directory checked.receipt.key
          checked.plan.revision) checked.bytes disk)
      (fun disk => Grown files disk ∨
        (checked.plan.eligible = true ∧ checked.receipt.cleanupConfirmed = true) ∧
        Archived files checked.path (archivePath checked.path.directory checked.receipt.key
          checked.plan.revision) checked.bytes disk) := by
  have hne : archivePath checked.path.directory checked.receipt.key checked.plan.revision ≠
      checked.path := by
    intro h
    exact archiveDirectory_ne (congrArg Pathname.directory h)
  rw [← hbytes]
  refine .of_ite (fun _ => .of_throw fun _ h => .inl h) fun hguard => ?_
  have hguard' : checked.plan.eligible = true ∧ checked.receipt.cleanupConfirmed = true := by
    simpa using hguard
  refine .bind (Q := fun _ => Grown files)
    ((confirm_triple .unchanged _ _ _ fun _ h => .inl h).strengthen fun _ _ h => h.1) fun _ => ?_
  refine .bind (Q := fun _ => Grown files)
    ((ensureDirectory_triple _).relax fun _ h => .inl h) fun _ => ?_
  refine .bind (Q := fun _ => Grown files) (.of_lift (fun _ _ _ h => h) fun _ h => .inl h)
    fun evidence => ?_
  refine .bind (Q := fun _ => Grown files)
    ((placeProof_triple _ evidence).relax fun _ h => .inl h) fun _ => ?_
  refine .bind (Q := fun _ => Grown files)
    ((syncDirectory_triple .syncProof fun _ h => .inl h).strengthen fun _ _ h => h.2) fun _ => ?_
  rw [← hbytes]
  refine .bind ((placeReceipt_triple hsource hkind hne).relax fun _ h => .inl h) fun _ => ?_
  refine .bind ((syncDirectory_triple .syncLink fun _ h => .inl h.1).strengthen fun _ _ h => h.2)
    fun _ => ?_
  refine .bind ((confirm_triple .beforeRemoval _ _ _ fun _ h => .inl h.1).strengthen
    fun _ _ h => h.1) fun _ => ?_
  refine .bind (Triple.of_removeFile fun _ h => .inl h.1) fun _ => ?_
  have hdone : ∀ disk : Disk, (∃ disk₀ : Disk, Stored files (archivePath checked.path.directory
        checked.receipt.key checked.plan.revision) inode.bytes disk₀ ∧
      disk.file = update disk₀.file checked.path none) →
      Archived files checked.path (archivePath checked.path.directory checked.receipt.key
        checked.plan.revision) inode.bytes disk := by
    rintro disk ⟨disk₀, ⟨hgrown, copy, hcopy, hsame⟩, hremoved⟩
    refine ⟨fun q hq => ?_, by rw [hremoved, update_self], copy, ?_, hsame⟩
    · rw [hremoved]
      exact (hgrown q).of_update hq
    · rw [hremoved, update_of_ne hne, hcopy]
  exact (syncDirectory_triple .syncRemoval fun disk h => .inr ⟨hguard', hdone disk h⟩).strengthen
    fun _ disk h => ⟨hguard', hdone disk h.2⟩

variable {revision line physicalKey : Str}

/-- What an application has archived was eligible. -/
theorem kept_of_archived
    (hlocated : Located codec hashes (host.around .latest) file specs files checked)
    (heligible : checked.plan.eligible = true) (hrevision : checked.plan.revision = revision)
    (harchived : Archived files checked.path (archivePath checked.path.directory
      checked.receipt.key checked.plan.revision) checked.bytes disk) :
    Kept codec hashes host faults (.apply file specs revision line physicalKey) files
      disk.file := by
  obtain ⟨key, inode₀, rfl, hname, hfile₀, hkind₀, hplan⟩ := hlocated
  obtain ⟨-, hbytes, hread, hvalid, generation, alive, scopeMatches, halive, hevaluate⟩ :=
    planOf_spec hplan
  obtain ⟨hconfirmed, -, rfl, -⟩ := eligible_iff.mp (hevaluate ▸ heligible)
  have hpath : checked.path = receiptPath checked.path.directory key := by
    rw [receiptPath, ← hname]
  obtain ⟨hothers, hgone, copy, hcopy, hsame⟩ := harchived
  refine .of_own (fun path howns => hothers path fun h => howns (h ▸ hname)) ?_
  rintro directory' key' inode receipt howns hfile hcomplete
  obtain rfl : key' = key := append_cancel_right howns
  by_cases hdirectory : directory' = checked.path.directory
  · subst hdirectory
    rw [← hpath] at hfile
    obtain rfl : inode = inode₀ := some.inj (hfile.symm.trans hfile₀)
    obtain rfl : receipt = checked.receipt := some.inj (hcomplete.decoded.symm.trans hread)
    rw [key_of_valid hvalid, hrevision] at hcopy
    refine .archived specs revision line physicalKey checked copy rfl hconfirmed halive ?_ hrevision
      ?_ hcopy (hsame.trans hbytes)
    · rw [← hpath]
      exact hplan
    · rw [← hpath]
      exact hgone
  · refine .kept (hothers _ (fun h => hdirectory ?_) inode hfile hcomplete.regular)
    exact congrArg Pathname.directory h

theorem apply_triple : Triple (fun disk => disk.file = files)
      (Recovery.apply codec hashes host faults file specs revision line physicalKey)
      (fun _ disk => Kept codec hashes host faults (.apply file specs revision line physicalKey)
        files disk.file)
      (fun disk => Kept codec hashes host faults (.apply file specs revision line physicalKey)
        files disk.file) := by
  have hstart : ∀ disk : Disk, disk.file = files →
      Kept codec hashes host faults (.apply file specs revision line physicalKey) files disk.file :=
    fun disk h => kept_of_grown (.of_eq h)
  refine .bind ((checkedPlan_triple.relax hstart).strengthen fun _ _ h => h.2) fun first => ?_
  refine .of_ite (fun _ => .of_throw hstart) fun _ => ?_
  refine .bind (Q := fun _ disk => disk.file = files) (.of_lift (fun _ _ _ h => h) hstart) fun _ =>
    ?_
  refine .of_ite (fun _ => .of_throw hstart) fun _ => ?_
  refine .bind (Q := fun _ disk => disk.file = files) (.of_lift (fun _ _ _ h => h) hstart) fun _ =>
    ?_
  refine .bind (checkedPlan_triple.relax hstart) fun latest => .given fun hlocated => ?_
  refine .of_ite (fun _ => .of_throw hstart) fun hguard => ?_
  obtain ⟨-, hrevision⟩ : latest.plan.eligible = true ∧ latest.plan.revision = revision := by
    simpa using hguard
  refine .bind (Q := fun _ disk => disk.file = files) (.of_lift (fun _ _ _ h => h) hstart) fun _ =>
    ?_
  obtain ⟨key, inode, -, -, hfile, hkind, hplan⟩ := id hlocated
  have hbytes : inode.bytes = latest.bytes := (planOf_spec hplan).2.1.symm
  refine .bind (((archiveExact_triple hfile hkind hbytes).weaken fun _ h => .of_eq h).relax ?_)
    fun _ => .of_pure ?_
  · rintro disk (h | ⟨⟨heligible, -⟩, harchived⟩)
    · exact kept_of_grown h
    · exact kept_of_archived hlocated heligible hrevision harchived
  · rintro disk ⟨⟨heligible, -⟩, harchived⟩
    exact kept_of_archived hlocated heligible hrevision harchived

end Archiving

/-- **No receipt is lost**: whatever fails while a request runs, a receipt that was complete before
is still there, or was saved over, cleared or archived as it should be. -/
theorem Request.run_kept (request : Request Value) (disk : Disk) :
    Kept codec hashes host faults request disk.file
      (call (request.run codec hashes host faults) disk).2.file := by
  have htriple : Triple (fun d => d.file = disk.file) (request.run codec hashes host faults)
      (fun _ d => Kept codec hashes host faults request disk.file d.file)
      (fun d => Kept codec hashes host faults request disk.file d.file) := by
    cases request with
    | save directory key record create => exact saveOwned_triple record create
    | clear directory key owner => exact clearOwned_triple owner
    | apply file specs revision line physicalKey =>
      exact apply_triple.bind fun _ => .of_pure fun _ h => h
  obtain ⟨hok, herror⟩ := htriple disk rfl
  rcases hcall : call (request.run codec hashes host faults) disk with ⟨e | a, disk'⟩
  · exact herror e disk' hcall
  · exact hok a disk' hcall

end SimMaster.Recovery
