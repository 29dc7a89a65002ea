import SimMaster.RecoverySteps

/-!
# The steps of an application

`apply` checks its plan twice and then archives the receipt. The files it works on are its `Places`:
the receipt, the archive, and the evidence and the copy in it.
-/

namespace SimMaster.Recovery

open Rust Method NativeSms List Option Function

/-- The files that an application works on. -/
structure Places where
  source : Pathname
  archive : Pathname
  proof : Pathname
  target : Pathname

variable {Value : Type} {codec : Codec Value} {hashes : Hashes} {host : Host} {files : Files}

/-! ## The archive -/

/-- The archive after `create_dir_all`. -/
def made (host : Host) (archive : Pathname) (files : Files) : Files :=
  Function.update files archive
    ((files archive).or (some ⟨.directory, host.process.uid, 0o755, []⟩))

def ensured (host : Host) (archive : Pathname) (files : Files) : Files :=
  Function.update files archive
    (((files archive).or (some ⟨.directory, host.process.uid, 0o755, []⟩)).map
      fun inode => { inode with mode := 0o700 })

/-- What there is under the archive's path is a directory of the process. -/
def OwnDirectory (host : Host) (archive : Pathname) (files : Files) : Prop :=
  ∀ inode, files archive = some inode → inode.kind = .directory ∧ inode.uid = host.process.uid

/-- What there is under the path can be read, and is this. -/
def Agrees (host : Host) (path : Pathname) (bytes : Bytes) (files : Files) : Prop :=
  ∀ inode, files path = some inode → Readable host inode ∧ inode.bytes = bytes

variable {archive : Pathname}

theorem makeDirectory_follows (h : OwnDirectory host archive files) :
    Follows (fun faults => makeDirectory host faults archive) files
      [⟨.createArchive, fun _ => files⟩] () (made host archive files) := by
  refine (Follows.of_reach Site.createArchive _).bind_last (Follows.of_get fun disk hdisk => ?_)
  rw [hdisk]
  cases hfile : files archive with
  | none =>
    refine Follows.of_modify fun disk' hdisk' => ?_
    rw [made, hfile, none_or, disk'.file_create, hdisk']
  | some inode =>
    simp only [(h inode hfile).1, true_or, if_true]
    rw [made, hfile, some_or, ← hfile, update_eq_self]
    exact .of_pure

/-- After `create_dir_all` there is a directory. -/
theorem made_archive (h : OwnDirectory host archive files) :
    ∃ inode, made host archive files archive = some inode ∧ inode.kind = .directory ∧
      inode.uid = host.process.uid ∧ ensured host archive files =
        update (made host archive files) archive (some { inode with mode := 0o700 }) := by
  rw [made, ensured, update_self]
  simp only [update_idem]
  cases hfile : files archive with
  | none => exact ⟨_, rfl, rfl, rfl, rfl⟩
  | some inode => exact ⟨inode, rfl, (h inode hfile).1, (h inode hfile).2, rfl⟩

variable {inode : Inode}

theorem inspectDirectory_follows
    (hfile : files archive = some inode) (hkind : inode.kind = .directory)
    (huid : inode.uid = host.process.uid) :
    Follows (fun faults => inspectDirectory host faults archive) files
      [⟨.inspectArchive, fun _ => files⟩] inode files := by
  refine (Follows.of_reach Site.inspectArchive _).bind_last
    (Follows.of_get fun disk hdisk => ?_)
  refine Follows.bind_nil (Follows.of_lift (a := inode) (by rw [hdisk, hfile]; rfl)) ?_
  simp only [hkind, huid, ne_eq, not_true_eq_false, if_false]
  exact .of_pure

theorem ensureDirectory_follows (h : OwnDirectory host archive files) :
    Follows (fun faults => ensureDirectory host faults archive) files
      [⟨.createArchive, fun _ => files⟩, ⟨.inspectArchive, fun _ => made host archive files⟩,
        ⟨.protectArchive, fun _ => made host archive files⟩] () (ensured host archive files) := by
  obtain ⟨inode, hfile, hkind, huid, hensured⟩ := made_archive h
  have hprotect : Follows (fun faults => reach faults Site.protectArchive
      (error "native_receipt_permissions_failed") >>= fun _ => (modify fun disk : Disk =>
        disk.create archive { inode with mode := 0o700 } : Work PUnit)) (made host archive files)
      [⟨.protectArchive, fun _ => made host archive files⟩] () (ensured host archive files) := by
    refine (Follows.of_reach Site.protectArchive _).bind_last
      (Follows.of_modify fun disk hdisk => ?_)
    rw [disk.file_create, hdisk, hensured]
  exact (makeDirectory_follows h).bind ((inspectDirectory_follows hfile hkind huid).bind hprotect)

variable {faults : Faults Site}

theorem ensureDirectory_needs :
    Triple (fun disk => disk.file = files) (ensureDirectory host faults archive)
      (fun _ disk => OwnDirectory host archive files ∧ disk.file = ensured host archive files)
      fun _ => True := by
  refine .bind (Q := fun _ disk => disk.file = made host archive files)
    (.reach_bind (fun _ _ => trivial) (.of_get fun disk hdisk => ?_)) fun _ => ?_
  · subst hdisk
    split
    next hnone =>
      refine .of_modify ?_
      rintro disk' rfl
      rw [made, hnone, none_or, disk'.file_create]
    next inode hfile =>
      refine .of_ite (fun _ => .of_pure ?_) fun _ => .of_throw fun _ _ => trivial
      rintro disk' rfl
      rw [made, hfile, some_or, ← hfile, update_eq_self]
  · refine .bind (Q := fun inode disk => (made host archive files archive = some inode ∧
      inode.kind = .directory ∧ inode.uid = host.process.uid) ∧ disk.file = made host archive files)
      (.reach_bind (fun _ _ => trivial) (.of_get fun disk hdisk => ?_)) fun inode => ?_
    · refine .bind (Q := fun inode d => d = disk ∧ disk.file archive = some inode)
        (.of_lift (fun inode h d hd => ⟨hd, okOr_eq_ok.mp h⟩) fun _ _ => trivial) fun inode => ?_
      refine .of_ite (fun _ => .of_throw fun _ _ => trivial) fun hkind => ?_
      refine .of_ite (fun _ => .of_throw fun _ _ => trivial) fun huid => .of_pure ?_
      rintro d ⟨rfl, hfile⟩
      rw [hdisk] at hfile
      exact ⟨⟨hfile, not_not.mp hkind, not_not.mp huid⟩, hdisk⟩
    · refine .given fun ⟨hmade, hkind, huid⟩ => .reach_bind (fun _ _ => trivial) (.of_modify ?_)
      intro disk hdisk
      have hown : OwnDirectory host archive files := by
        intro inode' hfile
        rw [made, update_self, hfile, some_or] at hmade
        obtain rfl := some.inj hmade
        exact ⟨hkind, huid⟩
      obtain ⟨inode', hmade', -, -, hensured⟩ := made_archive hown
      obtain rfl := some.inj (hmade.symm.trans hmade')
      exact ⟨hown, by rw [disk.file_create, hdisk, hensured]⟩

/-! ## Evidence and copy -/

variable {bytes : Bytes}

theorem Agrees.present_eq_false {path : Pathname}
    (h : Agrees host path bytes files) (habsent : files.present path = false) :
    files path = none := by
  cases hfile : files path with
  | none => rfl
  | some inode =>
    rw [(h inode hfile).1.present hfile] at habsent
    cases habsent

theorem exists_of_present {path : Pathname} (h : files.present path = true) :
    ∃ inode, files path = some inode := by
  cases hfile : files path with
  | none =>
    rw [Files.present, hfile] at h
    cases h
  | some inode => exact ⟨inode, rfl⟩

theorem or_eq {path : Pathname} {other : Option Inode} (hpresent : files.present path = true) :
    update files path ((files path).or other) = files := by
  obtain ⟨inode, hfile⟩ := exists_of_present hpresent
  rw [hfile, some_or, ← hfile, update_eq_self]

/-- A file that is there is read. If the look at it fails, it cannot be created either. -/
theorem placeProof_follows {path : Pathname} (h : Agrees host path bytes files) :
    Follows (fun faults => placeProof host faults path bytes) files
      (if files.present path then still files (.proofPresence :: reads .proof)
        else [⟨.create, fun _ => files⟩,
          ⟨.write, fun k => update files path (some (privateFile host (bytes.take k)))⟩,
          ⟨.syncFile, fun _ => update files path (some (privateFile host bytes))⟩]) ()
      (update files path ((files path).or (some (privateFile host bytes)))) := by
  cases hpresent : files.present path with
  | true =>
    obtain ⟨inode, hfile⟩ := exists_of_present hpresent
    obtain ⟨hreadable, hbytes⟩ := h inode hfile
    rw [if_pos rfl, or_eq hpresent]
    refine Follows.of_present .proofPresence hpresent
      (confirm_follows .proof _ hfile hreadable hbytes) fun faults disk hdisk => ?_
    have hdisk' : disk.file path = some inode := hdisk ▸ hfile
    obtain ⟨e, hcall⟩ := call_createFile_of_some faults .create .write
      (error "native_receipt_create_failed") (error "native_receipt_write_failed") hdisk'
    exact ⟨e, by rw [createPrivate, call_bind, hcall]⟩
  | false =>
    have hnone := h.present_eq_false hpresent
    rw [if_neg (by decide), hnone, none_or]
    exact Follows.of_absent .proofPresence hpresent (createPrivate_follows host bytes hnone)

theorem placeProof_needs {path : Pathname} :
    Triple (fun disk => disk.file = files) (placeProof host faults path bytes)
      (fun _ disk => Agrees host path bytes files ∧ disk.file =
        update files path ((files path).or (some (privateFile host bytes))))
      fun _ => True := by
  refine Triple.of_pathExists.bind fun found => .of_ite (fun _ => ?_) fun _ => ?_
  · refine (confirm_triple .proof path bytes _ fun _ _ => trivial).strengthen ?_
    rintro _ disk ⟨⟨rfl, -⟩, inode, hfile, hreadable, rfl⟩
    refine ⟨fun inode' hfile' => ?_, ?_⟩
    · obtain rfl := some.inj (hfile.symm.trans hfile')
      exact ⟨hreadable, rfl⟩
    · rw [or_eq (hreadable.present hfile)]
  · refine (createPrivate_needs.weaken fun _ h => h.1).strengthen ?_
    rintro _ disk ⟨hnone, hfile⟩
    refine ⟨fun inode h => ?_, by rw [hnone, none_or, hfile]⟩
    rw [hnone] at h
    cases h

variable {source target : Pathname}

theorem placeReceipt_follows
    (hsource : files source = some inode) (h : Agrees host target inode.bytes files) :
    Follows (fun faults => placeReceipt host faults source target inode.bytes) files
      (if files.present target then still files (.targetPresence :: reads .archived)
        else [⟨.link, fun _ => files⟩]) ()
      (update files target ((files target).or (some inode))) := by
  cases hpresent : files.present target with
  | true =>
    obtain ⟨copy, hfile⟩ := exists_of_present hpresent
    obtain ⟨hreadable, hbytes⟩ := h copy hfile
    rw [if_pos rfl, or_eq hpresent]
    exact Follows.of_present .targetPresence hpresent
      (confirm_follows .archived _ hfile hreadable hbytes) fun faults disk hdisk =>
        call_hardLink_of_some (hdisk ▸ hfile)
  | false =>
    have hnone := h.present_eq_false hpresent
    rw [if_neg (by decide), hnone, none_or]
    exact Follows.of_absent .targetPresence hpresent (Follows.of_hardLink Site.link _ hsource hnone)

theorem placeReceipt_needs (hsource : files source = some inode) :
    Triple (fun disk => disk.file = files) (placeReceipt host faults source target inode.bytes)
      (fun _ disk => Agrees host target inode.bytes files ∧ disk.file =
        update files target ((files target).or (some inode))) fun _ => True := by
  refine Triple.of_pathExists.bind fun found => .of_ite (fun _ => ?_) fun _ => ?_
  · refine (confirm_triple .archived target _ _ fun _ _ => trivial).strengthen ?_
    rintro _ disk ⟨⟨rfl, -⟩, copy, hfile, hreadable, hbytes⟩
    refine ⟨fun copy' hfile' => ?_, ?_⟩
    · obtain rfl := some.inj (hfile.symm.trans hfile')
      exact ⟨hreadable, hbytes⟩
    · rw [or_eq (hreadable.present hfile)]
  · refine ((Triple.of_hardLink fun _ _ => trivial).weaken fun _ h => h.1).strengthen ?_
    rintro _ disk' ⟨disk, rfl, hnone, hfile⟩
    refine ⟨fun copy h => ?_, by rw [hnone, none_or, hfile, hsource]⟩
    rw [hnone] at h
    cases h

/-! ## Checking a plan -/

/-- Where the file is. -/
def directoryOf (files : Files) (file : Str) : Str :=
  if files.present ⟨receiptDirectory, file⟩ then receiptDirectory else lockDirectory

def sourcePath (files : Files) (file : Str) : Pathname := ⟨directoryOf files file, file⟩

/-- The file is in one of the directories and not in the other. -/
def Once (files : Files) (file : Str) : Prop :=
  files.present ⟨receiptDirectory, file⟩ ≠ files.present ⟨lockDirectory, file⟩

variable {file : Str}

variable {turn : Turn}

theorem locate_follows (h : Once files file) : Follows (fun faults => locate faults turn file) files
      (still files [.presence turn (directoryOf files file)]) (sourcePath files file) files := by
  intro faults disk hdisk
  simp only [locate, call_bind, call_pathExists, hdisk]
  rw [still, map_singleton, interrupted_cons, interrupted_nil, or_none, sourcePath, directoryOf]
  rw [Once] at h
  cases hpersistent : files.present ⟨receiptDirectory, file⟩ with
  | true =>
    rw [hpersistent] at h
    simp only [Bool.eq_false_iff.mpr h.symm, if_true]
    cases faults (.presence turn receiptDirectory) with
    | none => exact ⟨fun _ => ⟨disk, rfl, hdisk⟩, fun _ hleft => by cases hleft⟩
    | some k =>
      refine ⟨(fun hnone => by cases hnone), ?_⟩
      rintro left ⟨⟩
      exact ⟨_, disk, rfl, hdisk⟩
  | false =>
    rw [hpersistent] at h
    simp only [Bool.eq_true_of_not_eq_false h.symm, Bool.false_eq_true, if_false]
    cases faults (.presence turn lockDirectory) with
    | none => exact ⟨fun _ => ⟨disk, rfl, hdisk⟩, fun _ hleft => by cases hleft⟩
    | some k =>
      refine ⟨(fun hnone => by cases hnone), ?_⟩
      rintro left ⟨⟩
      exact ⟨_, disk, rfl, hdisk⟩

theorem locate_needs : Triple (fun disk => disk.file = files) (locate undisturbed turn file)
      (fun path disk => (path = sourcePath files file ∧ Once files file) ∧ disk.file = files)
      fun _ => True := by
  rintro disk rfl
  refine ⟨fun path disk' hcall => ?_, fun _ _ _ => trivial⟩
  simp only [locate, call_bind, call_pathExists, undisturbed, isNone_none, Bool.and_true] at hcall
  rw [sourcePath, directoryOf, Once]
  cases hpersistent : disk.file.present ⟨receiptDirectory, file⟩ with
  | true =>
    rw [hpersistent] at hcall
    cases hruntime : disk.file.present ⟨lockDirectory, file⟩ with
    | true =>
      rw [hruntime] at hcall
      cases hcall
    | false =>
      rw [hruntime] at hcall
      cases hcall
      exact ⟨⟨rfl, by decide⟩, rfl⟩
  | false =>
    rw [hpersistent] at hcall
    cases hruntime : disk.file.present ⟨lockDirectory, file⟩ with
    | true =>
      rw [hruntime] at hcall
      cases hcall
      exact ⟨⟨rfl, by decide⟩, rfl⟩
    | false =>
      rw [hruntime] at hcall
      cases hcall

variable (codec hashes host) in
/-- The plan of the file as it is. -/
structure Planned (turn : Turn) (file : Str) (specs : List ConfiguredDevice) (files : Files)
    (key : Str) (inode : Inode) (checked : CheckedPlan Value) : Prop where
  once : Once files file
  named : keyOf file = some key
  source : files (sourcePath files file) = some inode
  readable : Readable host inode
  plan : planOf codec hashes (host.around turn) specs key (sourcePath files file) inode.bytes =
    .ok checked

variable {specs : List ConfiguredDevice} {checked : CheckedPlan Value} {key : Str}

theorem checkedPlan_follows {file : Str}
    (h : Planned codec hashes host turn file specs files key inode checked) :
    Follows (fun faults => checkedPlan codec hashes host faults turn file specs) files
      (still files (.presence turn (directoryOf files file) :: reads (.plan turn)))
        checked files := by
  refine Follows.bind_nil (Follows.of_lift (a := key) (by rw [h.named]; rfl)) ?_
  refine (locate_follows h.once).bind ?_
  exact (readPrivate_follows (.plan turn) h.source h.readable).bind_last (Follows.of_lift h.plan)

theorem checkedPlan_needs : Triple (fun disk => disk.file = files)
      (checkedPlan codec hashes host undisturbed turn file specs)
      (fun checked disk => (∃ key inode,
        Planned codec hashes host turn file specs files key inode checked) ∧ disk.file = files)
      fun _ => True := by
  refine .bind (Q := fun key disk => keyOf file = some key ∧ disk.file = files)
    (.of_lift (fun key h disk hdisk => ⟨okOr_eq_ok.mp h, hdisk⟩) fun _ _ => trivial) fun key => ?_
  refine .given fun hkey => .bind locate_needs fun path => .given fun ⟨hpath, honce⟩ => ?_
  subst hpath
  refine (readPrivate_triple (.plan turn) _ fun _ _ => trivial).bind fun bytes =>
    .of_lift ?_ fun _ _ => trivial
  rintro checked hplan disk ⟨rfl, inode, hfile, hreadable, rfl⟩
  exact ⟨⟨key, inode, honce, hkey, hfile, hreadable, hplan⟩, rfl⟩

/-! ## Archiving -/

def placesOf (checked : CheckedPlan Value) : Places where
  source := checked.path
  archive := ⟨checked.path.directory, "resolved".toList⟩
  proof := proofPath checked.path.directory checked.receipt.key checked.plan.revision
  target := archivePath checked.path.directory checked.receipt.key checked.plan.revision

structure Places.Apart (places : Places) : Prop where
  source_archive : places.source ≠ places.archive
  source_proof : places.source ≠ places.proof
  source_target : places.source ≠ places.target
  proof_archive : places.proof ≠ places.archive
  target_archive : places.target ≠ places.archive
  target_proof : places.target ≠ places.proof

theorem apart_placesOf (hname : checked.path.name = jsonName key) : (placesOf checked).Apart where
  source_archive h := by
    have hlast := congrArg (fun path : Pathname => path.name.reverse.head?) h
    simp [placesOf, hname, jsonName] at hlast
  source_proof h := archiveDirectory_ne (congrArg Pathname.directory h).symm
  source_target h := archiveDirectory_ne (congrArg Pathname.directory h).symm
  proof_archive h := archiveDirectory_ne (congrArg Pathname.directory h)
  target_archive h := archiveDirectory_ne (congrArg Pathname.directory h)
  target_proof h := by
    have hname := append_cancel_left (congrArg Pathname.name h)
    revert hname
    decide

section Archive

variable (host) (places : Places) (bytes evidence : Bytes)

/-- What archiving needs of the files. -/
structure Archivable (files : Files) : Prop where
  source : ∃ inode, files places.source = some inode ∧ Readable host inode ∧ inode.bytes = bytes
  archive : OwnDirectory host places.archive files
  proof : Agrees host places.proof evidence files
  target : Agrees host places.target bytes files

/-- The evidence is in the archive. -/
def placed (files : Files) : Files :=
  Function.update (ensured host places.archive files) places.proof
    ((files places.proof).or (some (privateFile host evidence)))

/-- So is the receipt. -/
def linked (files : Files) : Files :=
  Function.update (placed host places evidence files) places.target
    ((files places.target).or (files places.source))

def retired (files : Files) :
    Files := Function.update (linked host places evidence files) places.source none

/-- The operations of archiving, where the evidence and the copy are found, or not. -/
def archiveCourse (proof target : Bool) : List Site :=
  reads .unchanged ++ [Site.createArchive, .inspectArchive, .protectArchive] ++
    (if proof then Site.proofPresence :: reads .proof else [.create, .write, .syncFile]) ++
    [Site.syncProof] ++ (if target then Site.targetPresence :: reads .archived else [.link]) ++
    [Site.syncLink] ++ reads .beforeRemoval ++ [Site.unlink, .syncRemoval]

def archiveLeft (files : Files) : Site → ℕ → Files
  | .inspectArchive, _ => made host places.archive files
  | .protectArchive, _ => made host places.archive files
  | .proofPresence, _ => ensured host places.archive files
  | .read .proof _, _ => ensured host places.archive files
  | .create, _ => ensured host places.archive files
  | .write, k => Function.update (ensured host places.archive files) places.proof
      (some (privateFile host (evidence.take k)))
  | .syncFile, _ => placed host places evidence files
  | .syncProof, _ => placed host places evidence files
  | .targetPresence, _ => placed host places evidence files
  | .read .archived _, _ => placed host places evidence files
  | .link, _ => placed host places evidence files
  | .syncLink, _ => linked host places evidence files
  | .read .beforeRemoval _, _ => linked host places evidence files
  | .unlink, _ => linked host places evidence files
  | .syncRemoval, _ => retired host places evidence files
  | _, _ => files

end Archive

section Archive

variable {places : Places} {bytes evidence : Bytes} {archive q : Pathname}

theorem ensured_of_ne (host : Host) (files : Files) (h : q ≠ archive) :
    ensured host archive files q = files q := update_of_ne h _ _

theorem made_of_ne (host : Host) (files : Files) (h : q ≠ archive) :
    made host archive files q = files q := update_of_ne h _ _

variable {path : Pathname} {files' : Files}

theorem Agrees.congr (h : Agrees host path bytes files)
    (heq : files' path = files path) : Agrees host path bytes files' := by
  rw [Agrees, heq]
  exact h

theorem present_congr (heq : files' path = files path) :
    files'.present path = files.present path := by rw [Files.present, Files.present, heq]

/-- The steps of archiving, one part after the other. -/
theorem stepsOf_archive (hapart : places.Apart) (h : Archivable host places bytes evidence files) :
    stepsOf (archiveCourse (files.present places.proof) (files.present places.target))
        (archiveLeft host places evidence files) = still files (reads .unchanged) ++
      ([⟨.createArchive, fun _ => files⟩,
        ⟨.inspectArchive, fun _ => made host places.archive files⟩,
          ⟨.protectArchive, fun _ => made host places.archive files⟩] ++
        ((if (ensured host places.archive files).present places.proof then
            still (ensured host places.archive files) (.proofPresence :: reads .proof)
          else [⟨.create, fun _ => ensured host places.archive files⟩,
            ⟨.write, fun k => update (ensured host places.archive files) places.proof
              (some (privateFile host (evidence.take k)))⟩,
            ⟨.syncFile, fun _ => update (ensured host places.archive files) places.proof
              (some (privateFile host evidence))⟩]) ++
          ([⟨.syncProof, fun _ => placed host places evidence files⟩] ++
            ((if (placed host places evidence files).present places.target then
                still (placed host places evidence files) (.targetPresence :: reads .archived)
              else [⟨.link, fun _ => placed host places evidence files⟩]) ++
              ([⟨.syncLink, fun _ => linked host places evidence files⟩] ++
                (still (linked host places evidence files) (reads .beforeRemoval) ++
                  ([⟨.unlink, fun _ => linked host places evidence files⟩] ++
                    [⟨.syncRemoval, fun _ => retired host places evidence files⟩]))))))) := by
  have hproof : (ensured host places.archive files).present places.proof =
      files.present places.proof := present_congr (ensured_of_ne host files hapart.proof_archive)
  have htarget : (placed host places evidence files).present places.target =
      files.present places.target := by
    refine present_congr ?_
    rw [placed, update_of_ne hapart.target_proof, ensured_of_ne host files hapart.target_archive]
  rw [hproof, htarget]
  cases hpresent : files.present places.proof with
  | true =>
    cases files.present places.target with
    | true => rfl
    | false => rfl
  | false =>
    have hnew : update (ensured host places.archive files) places.proof
        (some (privateFile host evidence)) = placed host places evidence files := by
      rw [placed, h.proof.present_eq_false hpresent, none_or]
    rw [hnew]
    cases files.present places.target with
    | true => rfl
    | false => rfl

variable {checked : CheckedPlan Value}

theorem archiveExact_follows (hapart : (placesOf checked).Apart)
    (heligible : checked.plan.eligible = true)
    (hconfirmed : checked.receipt.cleanupConfirmed = true)
    (hevidence : codec.plan checked.plan = some evidence)
    (h : Archivable host (placesOf checked) checked.bytes evidence files) :
    Follows (fun faults => archiveExact codec host faults checked) files
      (stepsOf (archiveCourse (files.present (placesOf checked).proof)
        (files.present (placesOf checked).target))
        (archiveLeft host (placesOf checked) evidence files)) ()
      (retired host (placesOf checked) evidence files) := by
  obtain ⟨inode, hsource, hreadable, hbytes⟩ := h.source
  have hplaced : placed host (placesOf checked) evidence files (placesOf checked).source =
      some inode := by
    rw [placed, update_of_ne hapart.source_proof, ensured_of_ne host files hapart.source_archive,
      hsource]
  have hlinked : linked host (placesOf checked) evidence files (placesOf checked).source =
      some inode := by
    rw [linked, update_of_ne hapart.source_target, hplaced]
  have hproof := placeProof_follows (h.proof.congr (ensured_of_ne host files hapart.proof_archive))
  have htarget : placed host (placesOf checked) evidence files (placesOf checked).target =
      files (placesOf checked).target := by
    rw [placed, update_of_ne hapart.target_proof, ensured_of_ne host files hapart.target_archive]
  have hreceipt := placeReceipt_follows hplaced ((hbytes ▸ h.target).congr htarget)
  rw [ensured_of_ne host files hapart.proof_archive] at hproof
  rw [htarget, ← hsource, hbytes] at hreceipt
  rw [stepsOf_archive hapart h]
  simp only [archiveExact, heligible, hconfirmed, Bool.not_true, Bool.or_self, Bool.false_eq_true,
    if_false]
  refine (confirm_follows .unchanged _ hsource hreadable hbytes).bind ?_
  refine (ensureDirectory_follows h.archive).bind ?_
  refine Follows.bind_nil (Follows.of_lift (a := evidence) (by rw [hevidence]; rfl)) ?_
  refine hproof.bind ((syncDirectory_follows .syncProof).bind ?_)
  refine hreceipt.bind ((syncDirectory_follows .syncLink).bind ?_)
  refine (confirm_follows .beforeRemoval _ hlinked hreadable hbytes).bind ?_
  refine (Follows.of_removeFile Site.unlink _ hlinked fun hkind => ?_).bind
    (syncDirectory_follows .syncRemoval)
  rw [hreadable.regular] at hkind
  cases hkind

theorem archiveExact_needs {faults : Faults Site} (hapart : (placesOf checked).Apart) :
    Triple (fun disk => disk.file = files) (archiveExact codec host faults checked)
      (fun _ _ => (checked.plan.eligible = true ∧ checked.receipt.cleanupConfirmed = true) ∧
        ∃ evidence, codec.plan checked.plan = some evidence ∧
          Archivable host (placesOf checked) checked.bytes evidence files) fun _ => True := by
  refine .of_ite (fun _ => .of_throw fun _ _ => trivial) fun hguard => ?_
  have hguard' : checked.plan.eligible = true ∧ checked.receipt.cleanupConfirmed = true := by
    simpa using hguard
  refine .bind (Q := fun _ disk => (∃ inode, files (placesOf checked).source = some inode ∧
    Readable host inode ∧ inode.bytes = checked.bytes) ∧ disk.file = files)
    ((confirm_triple .unchanged _ _ _ fun _ _ => trivial).strengthen ?_) fun _ =>
      .given fun hsource => ?_
  · rintro _ disk ⟨rfl, h⟩
    exact ⟨h, rfl⟩
  refine .bind ensureDirectory_needs fun _ => .given fun harchive => ?_
  refine .bind (Q := fun evidence disk => codec.plan checked.plan = some evidence ∧
    disk.file = ensured host (placesOf checked).archive files)
    (.of_lift (fun evidence h disk hdisk => ⟨okOr_eq_ok.mp h, hdisk⟩) fun _ _ => trivial)
    fun evidence => .given fun hevidence => ?_
  refine .bind (Q := fun _ disk => Agrees host (placesOf checked).proof evidence files ∧
      disk.file = placed host (placesOf checked) evidence files)
    (placeProof_needs.strengthen ?_) fun _ => .given fun hproof => ?_
  · rintro _ disk ⟨hagrees, hfile⟩
    have hsame := ensured_of_ne host files hapart.proof_archive
    refine ⟨hagrees.congr hsame.symm, ?_⟩
    rw [hfile, placed, ← hsame]
    rfl
  refine .bind ((syncDirectory_triple .syncProof fun _ _ => trivial).strengthen fun _ _ h => h.2)
    fun _ => ?_
  obtain ⟨inode, hfile, hreadable, hbytes⟩ := hsource
  have hplaced : placed host (placesOf checked) evidence files (placesOf checked).source =
      some inode := by
    rw [placed, update_of_ne hapart.source_proof, ensured_of_ne host files hapart.source_archive,
      hfile]
  have htarget : placed host (placesOf checked) evidence files (placesOf checked).target =
      files (placesOf checked).target := by
    rw [placed, update_of_ne hapart.target_proof, ensured_of_ne host files hapart.target_archive]
  rw [← hbytes]
  refine .bind (Q := fun _ _ => Agrees host (placesOf checked).target inode.bytes files)
    ((placeReceipt_needs hplaced).strengthen ?_) fun _ => ?_
  · rintro _ disk ⟨hagrees, -⟩
    exact hagrees.congr htarget.symm
  have hready : Agrees host (placesOf checked).target inode.bytes files →
      (checked.plan.eligible = true ∧ checked.receipt.cleanupConfirmed = true) ∧
        ∃ evidence, codec.plan checked.plan = some evidence ∧
          Archivable host (placesOf checked) inode.bytes evidence files := fun h =>
    ⟨hguard', evidence, hevidence, ⟨inode, hfile, hreadable, rfl⟩, harchive, hproof, h⟩
  refine .bind ((syncDirectory_triple .syncLink fun _ _ => trivial).strengthen fun _ _ h => h.2)
    fun _ => ?_
  refine .bind ((confirm_triple .beforeRemoval _ _ _ fun _ _ => trivial).strengthen
    fun _ _ h => h.1) fun _ => ?_
  refine .bind (Q := fun _ _ => Agrees host (placesOf checked).target inode.bytes files)
    ((Triple.of_removeFile fun _ _ => trivial).strengthen ?_) fun _ => ?_
  · rintro _ _ ⟨_, h, -⟩
    exact h
  exact (syncDirectory_triple .syncRemoval fun _ _ => trivial).strengthen fun _ _ h => hready h.2

end Archive

/-! ## Applying -/

variable (codec hashes host) in
/-- What an application needs. -/
structure ReadyToApply (file : Str) (specs : List ConfiguredDevice)
    (revision line physicalKey : Str) (key : Str) (inode : Inode) (first latest : CheckedPlan Value)
    (evidence : Bytes) (files : Files) : Prop where
  plannedFirst : Planned codec hashes host .first file specs files key inode first
  plannedLatest : Planned codec hashes host .latest file specs files key inode latest
  asked : first.plan.eligible = true ∧ first.plan.revision = revision ∧
    first.receipt.lineId = line ∧ first.receipt.physicalKey = physicalKey
  locks : recoveryLocks hashes host first = .ok ()
  connection : host.connection = true
  absentFirst : verifyManagerAbsent (host.nameHasOwner .first) = .ok ()
  absentLatest : verifyManagerAbsent (host.nameHasOwner .latest) = .ok ()
  sameRevision : latest.plan.revision = revision
  eligible : latest.plan.eligible = true
  confirmed : latest.receipt.cleanupConfirmed = true
  encoded : codec.plan latest.plan = some evidence
  archivable : Archivable host (placesOf latest) inode.bytes evidence files

/-- The files of an application. -/
def applyPlaces (files : Files) (file revision : Str) : Places :=
  let directory := directoryOf files file
  let key := (keyOf file).getD []
  { source := sourcePath files file
    archive := ⟨directory, "resolved".toList⟩
    proof := proofPath directory key revision
    target := archivePath directory key revision }

variable (codec hashes host) in
/-- The evidence for the receipt as it is. -/
def evidenceOf (specs : List ConfiguredDevice) (files : Files) (file : Str) : Bytes :=
  match keyOf file, files (sourcePath files file) with
  | some key, some inode =>
    match planOf codec hashes (host.around .latest) specs key (sourcePath files file)
      inode.bytes with
    | .ok checked => (codec.plan checked.plan).getD []
    | .error _ => []
  | _, _ => []

/-- The operations of an application. -/
def applyCourse (files : Files) (file revision : Str) : List Site :=
  let directory := directoryOf files file
  let places := applyPlaces files file revision
  (.presence .first directory :: reads (.plan .first)) ++
    ((.presence .latest directory :: reads (.plan .latest)) ++
      archiveCourse (files.present places.proof) (files.present places.target))

section Apply

variable {file revision line physicalKey key : Str} {specs : List ConfiguredDevice} {inode : Inode}
  {first latest : CheckedPlan Value} {evidence : Bytes} {checked : CheckedPlan Value} {turn : Turn}

theorem Planned.path (h : Planned codec hashes host turn file specs files key inode checked) :
    checked.path = sourcePath files file ∧ checked.bytes = inode.bytes ∧
    checked.receipt.key = key := by
  obtain ⟨hpath, hbytes, -, hvalid, -⟩ := planOf_spec h.plan
  exact ⟨hpath, hbytes, key_of_valid hvalid⟩

section

variable (h : ReadyToApply codec hashes host file specs revision line physicalKey key inode first
  latest evidence files)
include h

theorem ReadyToApply.places : placesOf latest = applyPlaces files file revision := by
  obtain ⟨hpath, -, hkey⟩ := h.plannedLatest.path
  rw [placesOf, applyPlaces, hpath, hkey, h.sameRevision, h.plannedLatest.named]
  rfl

theorem ReadyToApply.evidenceOf :
    Recovery.evidenceOf codec hashes host specs files file = evidence := by
  rw [Recovery.evidenceOf, h.plannedLatest.named, h.plannedLatest.source]
  simp only [h.plannedLatest.plan, h.encoded, getD_some]

end

theorem Planned.apart (h : Planned codec hashes host turn file specs files key inode checked) :
    (placesOf checked).Apart := by
  refine apart_placesOf (?_ : _ = jsonName key)
  rw [h.path.1, sourcePath, (keyOf_eq_some.mp h.named).1]

theorem apply_follows (h : ReadyToApply codec hashes host file specs revision line physicalKey
      key inode first latest evidence files) :
    Follows (fun faults =>
      Recovery.apply codec hashes host faults file specs revision line physicalKey)
      files (stepsOf (applyCourse files file revision)
        (archiveLeft host (applyPlaces files file revision) evidence files)) latest.plan
      (retired host (applyPlaces files file revision) evidence files) := by
  obtain ⟨heligible, hrevision, hline, hphysical⟩ := h.asked
  have harchivable := h.archivable
  rw [← h.plannedLatest.path.2.1] at harchivable
  have harchive := archiveExact_follows h.plannedLatest.apart h.eligible h.confirmed
    h.encoded harchivable
  rw [h.places] at harchive
  have hcourse : stepsOf (applyCourse files file revision)
      (archiveLeft host (applyPlaces files file revision) evidence files) =
      still files (.presence .first (directoryOf files file) :: reads (.plan .first)) ++
        (still files (.presence .latest (directoryOf files file) :: reads (.plan .latest)) ++
          stepsOf (archiveCourse (files.present (applyPlaces files file revision).proof)
            (files.present (applyPlaces files file revision).target))
            (archiveLeft host (applyPlaces files file revision) evidence files)) := by
    rfl
  rw [hcourse]
  refine (checkedPlan_follows h.plannedFirst).bind ?_
  simp only [heligible, hrevision, hline, hphysical, h.connection, ne_eq, not_true_eq_false,
    Bool.not_true, decide_false, Bool.or_self, Bool.false_eq_true, if_false]
  refine Follows.bind_nil (Follows.of_lift h.locks) ?_
  refine Follows.bind_nil (Follows.of_lift h.absentFirst) ?_
  refine (checkedPlan_follows h.plannedLatest).bind ?_
  simp only [h.eligible, h.sameRevision, not_true_eq_false, Bool.not_true, decide_false,
    Bool.or_self, Bool.false_eq_true, if_false]
  refine Follows.bind_nil (Follows.of_lift h.absentLatest) ?_
  rw [← append_nil (stepsOf (archiveCourse _ _) _)]
  exact harchive.bind (f := fun _ _ => pure latest.plan) .of_pure

theorem apply_needs : Triple (fun disk => disk.file = files)
      (Recovery.apply codec hashes host undisturbed file specs revision line physicalKey)
      (fun _ _ => ∃ key inode first latest evidence, ReadyToApply codec hashes host file specs
        revision line physicalKey key inode first latest evidence files) fun _ => True := by
  refine .bind checkedPlan_needs fun first => .given fun ⟨key, inode, hfirst⟩ => ?_
  refine .of_ite (fun _ => .of_throw fun _ _ => trivial) fun hasked => ?_
  refine .bind (Q := fun _ disk => recoveryLocks hashes host first = .ok () ∧ disk.file = files)
    (.of_lift (fun _ h disk hdisk => ⟨h, hdisk⟩) fun _ _ => trivial) fun _ =>
      .given fun hlocks => ?_
  refine .of_ite (fun _ => .of_throw fun _ _ => trivial) fun hconnection => ?_
  refine .bind (Q := fun _ disk => verifyManagerAbsent (host.nameHasOwner .first) = .ok () ∧
    disk.file = files)
    (.of_lift (fun _ h disk hdisk => ⟨h, hdisk⟩) fun _ _ => trivial) fun _ =>
      .given fun habsent => ?_
  refine .bind checkedPlan_needs fun latest => .given fun ⟨key', inode', hlatest⟩ => ?_
  refine .of_ite (fun _ => .of_throw fun _ _ => trivial) fun hguard => ?_
  refine .bind (Q := fun _ disk => verifyManagerAbsent (host.nameHasOwner .latest) = .ok () ∧
    disk.file = files)
    (.of_lift (fun _ h disk hdisk => ⟨h, hdisk⟩) fun _ _ => trivial) fun _ =>
      .given fun habsent' => ?_
  refine .bind (archiveExact_needs hlatest.apart) fun _ => .of_pure ?_
  rintro _ ⟨⟨heligible, hconfirmed⟩, evidence, hencoded, harchivable⟩
  obtain rfl := some.inj (hfirst.named.symm.trans hlatest.named)
  obtain rfl := some.inj (hfirst.source.symm.trans hlatest.source)
  rw [hlatest.path.2.1] at harchivable
  simp only [Bool.or_eq_true, Bool.not_eq_true', decide_eq_true_eq, not_or, not_not, ne_eq,
    Bool.not_eq_false] at hasked hguard hconnection
  obtain ⟨⟨⟨hok, hrevision⟩, hline⟩, hphysical⟩ := hasked
  exact ⟨key, inode, first, latest, evidence, {
    plannedFirst := hfirst
    plannedLatest := hlatest
    asked := ⟨hok, hrevision, hline, hphysical⟩
    locks := hlocks
    connection := hconnection
    absentFirst := habsent
    absentLatest := habsent'
    sameRevision := hguard.2
    eligible := heligible
    confirmed := hconfirmed
    encoded := hencoded
    archivable := harchivable }⟩

end Apply

end SimMaster.Recovery
