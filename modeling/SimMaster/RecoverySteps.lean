import SimMaster.RecoveryKept

/-!
# The steps of a request

What each request needs of the files to run to its end, the file operations that it then takes in
their order, and what is left when one of them is the first to fail. Every function has two lemmas:
that it returns only where its needs are met (`_needs`), and that it takes its steps where they are
(`_follows`).
-/

namespace SimMaster.Recovery

open Rust Method NativeSms Option Function

/-! ## Reading and creating -/

section Parts

variable {Value : Type} {codec : Codec Value} {hashes : Hashes} {host : Host}
  {files : Files} {directory key : Str}

/-- The steps of `readPrivate`. -/
def reads (what : Reading) : List Site :=
  [.read what .metadata, .read what .opening, .read what .openedMetadata, .read what .reading]

/-- A file that `createPrivate` has made. -/
def privateFile (host : Host) (bytes : Bytes) : Inode := ⟨.regular, host.process.uid, 0o600, bytes⟩

theorem readable_privateFile (bytes : Bytes) :
    Readable host (privateFile host bytes) ↔ bytes.length ≤ maxReceiptBytes :=
  ⟨fun h => h.bounded, fun h => ⟨rfl, h, rfl, show (0o600 &&& 0o077 : ℕ) = 0 by decide⟩⟩

variable {inode : Inode} {path : Pathname}

theorem Readable.present (h : Readable host inode)
    (hfile : files path = some inode) : files.present path = true := by
  rw [Files.present, hfile]
  simp [h.regular]

theorem readPrivate_follows (what : Reading)
    (hfile : files path = some inode) (h : Readable host inode) :
    Follows (fun faults => readPrivate host faults what path) files (still files (reads what))
      inode.bytes files := by
  have hbounded : ¬ maxReceiptBytes < inode.bytes.length := not_lt.mpr h.bounded
  have hsafe : (decide (inode.uid ≠ host.process.uid) || decide (inode.mode &&& 0o077 ≠ 0)) =
      false := by
    simp [h.owned, h.closed]
  have htake : inode.bytes.take (maxReceiptBytes + 1) = inode.bytes :=
    List.take_of_length_le (by omega)
  refine (Follows.of_reach (Site.read what .metadata) _).bind (Follows.of_get fun disk hdisk => ?_)
  refine Follows.bind_nil (Follows.of_lift (a := inode) (by rw [hdisk, hfile]; rfl)) ?_
  simp only [h.regular, ne_eq, not_true_eq_false, if_false]
  refine (Follows.of_reach (Site.read what .opening) _).bind ?_
  refine (Follows.of_reach (Site.read what .openedMetadata) _).bind ?_
  simp only [hbounded, hsafe, if_false, Bool.false_eq_true]
  refine (Follows.of_reach (Site.read what .reading) _).bind ?_
  simp only [htake, hbounded, if_false]
  exact .of_pure

variable {bytes : Bytes}

theorem confirm_follows (what : Reading) (collision : NativeError) (hfile : files path = some inode)
    (h : Readable host inode) (hbytes : inode.bytes = bytes) :
    Follows (fun faults => confirm host faults what path bytes collision) files
      (still files (reads what)) () files := by
  refine (readPrivate_follows what hfile h).bind_last ?_
  simp only [hbytes, if_true]
  exact .of_pure

theorem createPrivate_follows (host : Host) (bytes : Bytes) (h : files path = none) :
    Follows (fun faults => createPrivate host faults path bytes) files
      [⟨.create, fun _ => files⟩,
        ⟨.write, fun k => update files path (some (privateFile host (bytes.take k)))⟩,
        ⟨.syncFile, fun _ => update files path (some (privateFile host bytes))⟩] ()
      (update files path (some (privateFile host bytes))) :=
  (Follows.of_createFile Site.create .write _ _ h).bind (Follows.of_reach Site.syncFile _)

variable {faults : Faults Site}

theorem createPrivate_needs :
    Triple (fun disk => disk.file = files) (createPrivate host faults path bytes)
      (fun _ disk => files path = none ∧
        disk.file = update files path (some (privateFile host bytes))) fun _ => True := by
  refine .bind (Triple.of_createFile (fun _ _ => trivial) fun _ _ _ _ _ _ => trivial) fun _ =>
    (Triple.of_reach fun _ _ => trivial).strengthen ?_
  rintro _ disk' ⟨-, disk, rfl, hnone, hfile⟩
  exact ⟨hnone, hfile⟩

theorem syncDirectory_follows (site : Site) :
    Follows (fun faults => syncDirectory faults site) files [⟨site, fun _ => files⟩] () files :=
  .of_reach site _

variable {receipt : Receipt Value}

theorem previousReceipt_follows (hfile : files (receiptPath directory key) = some inode)
    (h : Readable host inode) (hcomplete : Complete codec hashes key inode receipt) :
    Follows (fun faults => previousReceipt codec hashes host faults directory key) files
      (still files (reads .previous)) receipt files := by
  refine (readPrivate_follows .previous hfile h).bind_last ?_
  refine Follows.bind_nil (Follows.of_lift (a := receipt) ?_) ?_
  · rw [hcomplete.decoded]
    rfl
  · exact Follows.bind_nil (Follows.of_lift hcomplete.valid) .of_pure

theorem previousReceipt_needs :
    Triple (fun disk => disk.file = files) (previousReceipt codec hashes host faults directory key)
      (fun receipt disk => (∃ inode, files (receiptPath directory key) = some inode ∧
        Readable host inode ∧ Complete codec hashes key inode receipt) ∧ disk.file = files)
      fun _ => True := by
  refine (previousReceipt_triple fun _ _ => trivial).strengthen ?_
  rintro receipt disk ⟨rfl, h⟩
  exact ⟨h, rfl⟩

/-! ## Records -/

/-- The octets of a record. -/
def written (codec : Codec Value) (record : Receipt Value) : Bytes := (codec.receipt record).getD []

/-- Replacing a record takes these steps. -/
def replaceSteps (host : Host) (files : Files) (directory key : Str) (bytes : Bytes) :
    List (FileStep Site) :=
  let temp := tempPath host directory key
  [⟨.create, fun _ => files⟩,
    ⟨.write, fun k => Function.update files temp (some (privateFile host (bytes.take k)))⟩,
    ⟨.syncFile, fun _ => Function.update files temp (some (privateFile host bytes))⟩,
    ⟨.rename, fun _ => Function.update files temp (some (privateFile host bytes))⟩,
    ⟨.syncRecord, fun _ =>
      Function.update files (receiptPath directory key) (some (privateFile host bytes))⟩]

theorem renamed_eq (h : files (tempPath host directory key) = none) :
    update (update (update files (tempPath host directory key)
        (some (privateFile host bytes))) (receiptPath directory key)
          (some (privateFile host bytes)))
      (tempPath host directory key) none =
    update files (receiptPath directory key) (some (privateFile host bytes)) := by
  funext q
  by_cases htemp : q = tempPath host directory key
  · rw [htemp, update_self, update_of_ne tempPath_ne_receiptPath, h]
  · rw [update_of_ne htemp]
    by_cases hpath : q = receiptPath directory key
    · rw [hpath, update_self, update_self]
    · rw [update_of_ne hpath, update_of_ne htemp, update_of_ne hpath]

theorem commitRecord_follows (bytes : Bytes) (htemp : files (tempPath host directory key) = none)
    (hpath : ∀ inode, files (receiptPath directory key) = some inode → inode.kind = .regular) :
    Follows (fun faults => commitRecord host faults directory key bytes false >>= fun _ =>
        syncDirectory faults .syncRecord) files (replaceSteps host files directory key bytes) ()
      (update files (receiptPath directory key) (some (privateFile host bytes))) := by
  have hrename : Follows (fun faults => renameFile faults Site.rename
      (error "native_receipt_commit_failed") (tempPath host directory key)
      (receiptPath directory key))
      (update files (tempPath host directory key) (some (privateFile host bytes)))
      [⟨Site.rename, fun _ => update files (tempPath host directory key)
        (some (privateFile host bytes))⟩] ()
      (update files (receiptPath directory key) (some (privateFile host bytes))) := by
    rw [← renamed_eq htemp]
    refine Follows.of_renameFile Site.rename _ (update_self _ _ _) fun inode hfile => ?_
    rw [update_of_ne tempPath_ne_receiptPath.symm] at hfile
    rw [hpath inode hfile]
    decide
  have hcommit := (createPrivate_follows host bytes htemp).bind
    (f := fun faults _ => renameFile faults Site.rename (error "native_receipt_commit_failed")
      (tempPath host directory key) (receiptPath directory key)) hrename
  exact hcommit.bind (f := fun faults _ => syncDirectory faults .syncRecord)
    (syncDirectory_follows .syncRecord)

/-- What a record needs to be created, and leaves. -/
theorem createRecord_needs (record : Receipt Value) :
    Triple (fun disk => disk.file = files) (writeRecord codec host faults directory key record true)
      (fun _ _ => validKey key = true ∧ (codec.receipt record).isSome ∧
        files (receiptPath directory key) = none) fun _ => True := by
  refine .of_ite (fun _ => .of_throw fun _ _ => trivial) fun hkey => ?_
  refine .bind (Q := fun _ disk => (codec.receipt record).isSome ∧ disk.file = files)
    (.of_lift (fun bytes h disk hdisk => ⟨?_, hdisk⟩) fun _ _ => trivial) fun bytes =>
      .given fun hrecord => ?_
  · rw [okOr_eq_ok.mp h]
    rfl
  · refine .bind (Q := fun _ _ => files (receiptPath directory key) = none)
      (createPrivate_needs.strengthen fun _ _ h => h.1) fun _ => ?_
    refine (syncDirectory_triple .syncRecord fun _ _ => trivial).strengthen fun _ _ h => ?_
    exact ⟨by simpa using hkey, hrecord, h.2⟩

theorem replaceRecord_needs (record : Receipt Value) :
    Triple (fun disk => disk.file = files)
    (writeRecord codec host faults directory key record false)
      (fun _ disk => (validKey key = true ∧ (codec.receipt record).isSome ∧
        files (tempPath host directory key) = none) ∧ disk.file = update files
          (receiptPath directory key) (some (privateFile host (written codec record))))
      fun _ => True := by
  refine .of_ite (fun _ => .of_throw fun _ _ => trivial) fun hkey => ?_
  refine .bind (Q := fun bytes disk => codec.receipt record = some bytes ∧ disk.file = files)
    (.of_lift (fun bytes h disk hdisk => ⟨okOr_eq_ok.mp h, hdisk⟩) fun _ _ => trivial)
    fun bytes => .given fun hbytes => ?_
  refine .bind (Q := fun _ disk => files (tempPath host directory key) = none ∧ disk.file =
    update files (receiptPath directory key) (some (privateFile host bytes)))
    (createPrivate_needs.bind fun _ => (Triple.of_renameFile fun _ _ => trivial).strengthen ?_)
    fun _ => ?_
  · rintro _ disk' ⟨-, disk, ⟨hnone, hcreated⟩, hrenamed⟩
    refine ⟨hnone, ?_⟩
    rw [hrenamed, hcreated, update_self, renamed_eq hnone]
  · refine (syncDirectory_triple .syncRecord fun _ _ => trivial).strengthen ?_
    rintro _ disk ⟨-, hnone, hfile⟩
    rw [written, hbytes]
    exact ⟨⟨by simpa using hkey, rfl, hnone⟩, hfile⟩

variable {record : Receipt Value}

theorem createRecord_follows (hkey : validKey key = true)
    (hrecord : (codec.receipt record).isSome) (hnone : files (receiptPath directory key) = none) :
    Follows (fun faults => writeRecord codec host faults directory key record true) files
      [⟨.create, fun _ => files⟩,
        ⟨.write, fun k => update files (receiptPath directory key)
          (some (privateFile host ((written codec record).take k)))⟩,
        ⟨.syncFile, fun _ => update files (receiptPath directory key)
          (some (privateFile host (written codec record)))⟩,
        ⟨.syncRecord, fun _ => update files (receiptPath directory key)
          (some (privateFile host (written codec record)))⟩] ()
      (update files (receiptPath directory key)
        (some (privateFile host (written codec record)))) := by
  obtain ⟨bytes, hbytes⟩ := isSome_iff_exists.mp hrecord
  simp only [writeRecord, hkey, Bool.not_true, Bool.false_eq_true, if_false, written, hbytes,
    getD_some]
  refine Follows.bind_nil (Follows.of_lift (okOr_some _ bytes)) ?_
  exact (createPrivate_follows host bytes hnone).bind
    (f := fun faults _ => syncDirectory faults .syncRecord) (syncDirectory_follows .syncRecord)

theorem replaceRecord_follows (hkey : validKey key = true)
    (hrecord : (codec.receipt record).isSome) (htemp : files (tempPath host directory key) = none)
    (hpath : ∀ inode, files (receiptPath directory key) = some inode → inode.kind = .regular) :
    Follows (fun faults => writeRecord codec host faults directory key record false) files
      (replaceSteps host files directory key (written codec record)) ()
      (update files (receiptPath directory key)
        (some (privateFile host (written codec record)))) := by
  obtain ⟨bytes, hbytes⟩ := isSome_iff_exists.mp hrecord
  simp only [writeRecord, hkey, Bool.not_true, Bool.false_eq_true, if_false, written, hbytes,
    getD_some]
  exact Follows.bind_nil (Follows.of_lift (okOr_some _ bytes))
    (commitRecord_follows bytes htemp hpath)

/-! ## Saving -/

variable (codec hashes host directory key)

/-- The file of the key can be read, and holds the receipt. -/
def Previous (files : Files) (receipt : Receipt Value) : Prop :=
  ∃ inode, files (receiptPath directory key) = some inode ∧ Readable host inode ∧
    Complete codec hashes key inode receipt

/-- What a first save needs. -/
structure ReadyToCreate (record : Receipt Value) (files : Files) : Prop where
  valid : record.validate codec hashes key = .ok ()
  named : validKey key = true
  encoded : (codec.receipt record).isSome
  absent : files (receiptPath directory key) = none

/-- What a later save needs. -/
structure ReadyToReplace (record : Receipt Value) (files : Files) : Prop where
  valid : record.validate codec hashes key = .ok ()
  previous : ∃ previous, Previous codec hashes host directory key files previous ∧
    previous.owner = record.owner ∧ previous.generation = record.generation ∧
    previous.cleanupConfirmed = false
  named : validKey key = true
  encoded : (codec.receipt record).isSome
  noTemp : files (tempPath host directory key) = none

/-- What a save leaves in the end. -/
def saved (record : Receipt Value) (files : Files) : Files :=
  Function.update files (receiptPath directory key) (some (privateFile host (written codec record)))

/-- The operations of a first save. -/
def createCourse : List Site := [.create, .write, .syncFile, .syncRecord]

def createLeft (record : Receipt Value) (files : Files) : Site → ℕ → Files
  | .write, k => Function.update files (receiptPath directory key)
      (some (privateFile host ((written codec record).take k)))
  | .syncFile, _ => saved codec host directory key record files
  | .syncRecord, _ => saved codec host directory key record files
  | _, _ => files

/-- The operations of a later save. -/
def replaceCourse : List Site :=
  reads .previous ++ [Site.create, .write, .syncFile, .rename, .syncRecord]

/-- What is left of a record that was to replace another one. -/
def replaceLeft (bytes : Bytes) (files : Files) : Site → ℕ → Files
  | .write, k => Function.update files (tempPath host directory key)
      (some (privateFile host (bytes.take k)))
  | .syncFile, _ =>
    Function.update files (tempPath host directory key) (some (privateFile host bytes))
  | .rename, _ => Function.update files (tempPath host directory key)
      (some (privateFile host bytes))
  | .syncRecord, _ =>
    Function.update files (receiptPath directory key) (some (privateFile host bytes))
  | _, _ => files

variable {codec hashes host directory key}

theorem Previous.regular
    (h : Previous codec hashes host directory key files receipt) (inode : Inode)
    (hfile : files (receiptPath directory key) = some inode) : inode.kind = .regular := by
  obtain ⟨inode', hfile', hreadable, -⟩ := h
  obtain rfl := some.inj (hfile.symm.trans hfile')
  exact hreadable.regular

theorem create_needs (record : Receipt Value) : Triple (fun disk => disk.file = files)
      (saveOwned codec hashes host faults directory key record true)
      (fun _ _ => ReadyToCreate codec hashes directory key record files) fun _ => True := by
  refine .bind (Q := fun _ disk => record.validate codec hashes key = .ok () ∧ disk.file = files)
    (.of_lift (fun _ h disk hdisk => ⟨h, hdisk⟩) fun _ _ => trivial) fun _ =>
      .given fun hvalid => ?_
  refine (createRecord_needs record).strengthen ?_
  rintro _ _ ⟨hkey, hencoded, habsent⟩
  exact ⟨hvalid, hkey, hencoded, habsent⟩

theorem create_follows (h : ReadyToCreate codec hashes directory key record files) :
    Follows (fun faults => saveOwned codec hashes host faults directory key record true) files
      (stepsOf createCourse (createLeft codec host directory key record files)) ()
      (saved codec host directory key record files) :=
  Follows.bind_nil (Follows.of_lift h.valid) (createRecord_follows h.named h.encoded h.absent)

theorem replace_needs (record : Receipt Value) : Triple (fun disk => disk.file = files)
      (saveOwned codec hashes host faults directory key record false)
      (fun _ _ => ReadyToReplace codec hashes host directory key record files) fun _ => True := by
  refine .bind (Q := fun _ disk => record.validate codec hashes key = .ok () ∧ disk.file = files)
    (.of_lift (fun _ h disk hdisk => ⟨h, hdisk⟩) fun _ _ => trivial) fun _ =>
      .given fun hvalid => ?_
  refine previousReceipt_needs.bind fun previous => .given fun hprevious => ?_
  refine .of_ite (fun _ => .of_throw fun _ _ => trivial) fun hguard => ?_
  simp only [Bool.or_eq_true, decide_eq_true_eq, not_or, not_not, Bool.not_eq_true] at hguard
  obtain ⟨⟨howner, hgeneration⟩, hopen⟩ := hguard
  refine (replaceRecord_needs record).strengthen ?_
  rintro _ _ ⟨⟨hkey, hencoded, hnone⟩, -⟩
  exact ⟨hvalid, ⟨previous, hprevious, howner, hgeneration, hopen⟩, hkey, hencoded, hnone⟩

theorem replace_follows (h : ReadyToReplace codec hashes host directory key record files) :
    Follows (fun faults => saveOwned codec hashes host faults directory key record false) files
      (stepsOf replaceCourse (replaceLeft host directory key (written codec record) files)) ()
      (saved codec host directory key record files) := by
  obtain ⟨hvalid, ⟨previous, hprevious, howner, hgeneration, hopen⟩, hkey, hencoded, hnone⟩ := h
  obtain ⟨inode, hfile, hreadable, hcomplete⟩ := id hprevious
  refine Follows.bind_nil (Follows.of_lift hvalid) ?_
  refine (previousReceipt_follows hfile hreadable hcomplete).bind
    (f := fun faults previous => if previous.owner ≠ record.owner ||
      previous.generation ≠ record.generation || previous.cleanupConfirmed then
        throw (error "native_receipt_owner_or_generation_changed")
      else writeRecord codec host faults directory key record false) ?_
  simp only [howner, hgeneration, hopen, ne_eq, not_true_eq_false, decide_false, Bool.or_self,
    Bool.false_eq_true, if_false]
  exact replaceRecord_follows hkey hencoded hnone hprevious.regular

/-! ## Clearing -/

variable (codec hashes host directory key)

/-- What clearing needs. -/
structure ReadyToClear (owner : OwnerInstance) (files : Files) : Prop where
  named : validKey key = true
  receipt : ∃ receipt, Previous codec hashes host directory key files receipt ∧
    receipt.owner = owner ∧ (codec.receipt { receipt with cleanupConfirmed := true }).isSome
  noTemp : files (tempPath host directory key) = none

/-- The receipt with its cleanup confirmed. -/
def markedBytes (files : Files) : Bytes :=
  match files (receiptPath directory key) >>= fun inode => codec.readReceipt inode.bytes with
  | some receipt => written codec { receipt with cleanupConfirmed := true }
  | none => []

def cleared (files : Files) : Files := Function.update files (receiptPath directory key) none

/-- The operations of a clearing. -/
def clearCourse : List Site := replaceCourse ++ [Site.unlink, .syncRemoval]

def clearLeft (files : Files) : Site → ℕ → Files
  | .unlink, _ => Function.update files (receiptPath directory key)
      (some (privateFile host (markedBytes codec directory key files)))
  | .syncRemoval, _ => cleared directory key files
  | site, k => replaceLeft host directory key (markedBytes codec directory key files) files site k

variable {codec hashes host directory key}

theorem Previous.markedBytes (h : Previous codec hashes host directory key files receipt) :
    Recovery.markedBytes codec directory key files =
      written codec { receipt with cleanupConfirmed := true } := by
  obtain ⟨inode, hfile, -, hcomplete⟩ := h
  rw [Recovery.markedBytes, hfile, bind_eq_bind, bind_some, hcomplete.decoded]

theorem clear_needs (owner : OwnerInstance) :
    Triple (fun disk => disk.file = files) (clearOwned codec hashes host faults directory key owner)
      (fun _ _ => ReadyToClear codec hashes host directory key owner files) fun _ => True := by
  refine .of_ite (fun _ => .of_throw fun _ _ => trivial) fun hkey => ?_
  refine previousReceipt_needs.bind fun receipt => .given fun hprevious => ?_
  refine .of_ite (fun _ => .of_throw fun _ _ => trivial) fun howner => ?_
  refine .bind (Q := fun _ _ => ReadyToClear codec hashes host directory key owner files)
    ((replaceRecord_needs _).strengthen ?_) fun _ => ?_
  · rintro _ _ ⟨⟨hkey, hencoded, hnone⟩, -⟩
    exact ⟨hkey, ⟨receipt, hprevious, not_not.mp howner, hencoded⟩, hnone⟩
  · refine .bind (Q := fun _ _ => ReadyToClear codec hashes host directory key owner files)
      ((Triple.of_removeFile fun _ _ => trivial).strengthen ?_) fun _ => ?_
    · rintro _ _ ⟨_, h, -⟩
      exact h
    · exact (syncDirectory_triple .syncRemoval fun _ _ => trivial).strengthen fun _ _ h => h.2

theorem clear_follows {owner : OwnerInstance}
    (h : ReadyToClear codec hashes host directory key owner files) :
    Follows (fun faults => clearOwned codec hashes host faults directory key owner) files
      (stepsOf clearCourse (clearLeft codec host directory key files)) ()
      (cleared directory key files) := by
  obtain ⟨hkey, ⟨receipt, hprevious, rfl, hencoded⟩, hnone⟩ := h
  obtain ⟨inode, hfile, hreadable, hcomplete⟩ := id hprevious
  have hwrite := replaceRecord_follows hkey hencoded hnone hprevious.regular
  rw [← hprevious.markedBytes] at hwrite
  have hremove : Follows
      (fun faults => removeFile faults Site.unlink (error "native_receipt_remove_failed")
        (receiptPath directory key)) _ _ ()
      (cleared directory key (update files (receiptPath directory key)
        (some (privateFile host (markedBytes codec directory key files))))) :=
    .of_removeFile Site.unlink _ (update_self _ _ _) (fun h => by cases h)
  have hcleared : ∀ file, cleared directory key
      (update files (receiptPath directory key) file) = cleared directory key files :=
    fun file => update_idem _ _ _
  rw [hcleared] at hremove
  simp only [clearOwned, hkey, Bool.not_true, Bool.false_eq_true, if_false]
  refine (previousReceipt_follows hfile hreadable hcomplete).bind ?_
  simp only [ne_eq, not_true_eq_false, if_false]
  exact hwrite.bind (hremove.bind (syncDirectory_follows .syncRemoval))

end Parts

end SimMaster.Recovery
