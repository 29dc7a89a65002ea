import SimMaster.RecoveryArchive

/-!
# Running an interrupted request again

A request that was interrupted is run again, by the same process and with nothing else changed. It
completes what it had begun unless the first operation to fail has left something in its way: a
temporary file, a part of the evidence, a record that its own reader refuses.
-/

namespace SimMaster.Recovery

open Rust Method NativeSms List Option Function

variable {Value : Type} {codec : Codec Value} {hashes : Hashes} {host : Host} {files : Files}
  {directory key : Str}

/-! ## Saving -/

/-- What a first save leaves in its way. -/
def createSpoils : Site → Bool
  | .write => true
  | .syncFile => true
  | .syncRecord => true
  | _ => false

variable {record : Receipt Value} {site : Site} {k : ℕ}

theorem create_again (h : ReadyToCreate codec hashes directory key record files)
    (hsite : site ∈ createCourse) : (ReadyToCreate codec hashes directory key record
        (createLeft codec host directory key record files site k) ∧
      saved codec host directory key record
      (createLeft codec host directory key record files site k) =
        saved codec host directory key record files) ↔ createSpoils site = false := by
  have hgone : ∀ file, ¬ ReadyToCreate codec hashes directory key record
      (update files (receiptPath directory key) (some file)) := by
    intro file hready
    have habsent := hready.absent
    rw [update_self] at habsent
    cases habsent
  simp only [createCourse, mem_cons, not_mem_nil, or_false] at hsite
  rcases hsite with rfl | rfl | rfl | rfl
  · exact ⟨fun _ => rfl, fun _ => ⟨h, rfl⟩⟩
  all_goals exact ⟨fun hready => absurd hready.1 (hgone _), fun hspoils => by cases hspoils⟩

/-- What a later save leaves in its way. Its own record spoils it only when it is too long to be
read or is that of a finished cleanup. -/
def replaceSpoils (codec : Codec Value) (record : Receipt Value) : Site → Bool
  | .write => true
  | .syncFile => true
  | .rename => true
  | .syncRecord => record.cleanupConfirmed || maxReceiptBytes < (written codec record).length
  | _ => false

/-- A temporary file is in the way of the next one. -/
theorem not_ready_of_temp {file : Inode} {P : Prop}
    (h : update files (tempPath host directory key) (some file) (tempPath host directory key) =
      none) :
    P := by
  rw [update_self] at h
  cases h

theorem mem_reads {what : Reading} (h : site ∈ reads what) : ∃ stage, site = .read what stage := by
  simp only [reads, mem_cons, not_mem_nil, or_false] at h
  rcases h with h | h | h | h
  all_goals exact ⟨_, h⟩

theorem written_eq (h : (codec.receipt record).isSome) :
    codec.receipt record = some (written codec record) := by
  obtain ⟨bytes, hbytes⟩ := isSome_iff_exists.mp h
  rw [written, hbytes, getD_some]

/-- The record that was put in place is read back. -/
theorem previous_update (host : Host) (directory : Str) (files : Files) (hlawful : codec.Lawful)
    (hencoded : (codec.receipt record).isSome) (hvalid : record.validate codec hashes key = .ok ())
    (hlength : (written codec record).length ≤ maxReceiptBytes) :
    ∃ payload, Previous codec hashes host directory key (update files (receiptPath directory key)
          (some (privateFile host (written codec record)))) { record with payload } ∧
      (codec.receipt { record with payload }).isSome := by
  obtain ⟨payload, hread, hagain⟩ := hlawful record _ (written_eq hencoded)
  refine ⟨payload, ⟨privateFile host (written codec record), update_self _ _ _, ?_, ?_⟩, hagain⟩
  · exact (readable_privateFile _).mpr hlength
  · exact ⟨rfl, hread, hvalid⟩

theorem length_of_previous {bytes : Bytes} {receipt : Receipt Value}
    (h : Previous codec hashes host directory key
      (update files (receiptPath directory key) (some (privateFile host bytes))) receipt) :
    codec.readReceipt bytes = some receipt ∧ bytes.length ≤ maxReceiptBytes := by
  obtain ⟨inode, hfile, hreadable, hcomplete⟩ := h
  rw [update_self] at hfile
  obtain rfl := some.inj hfile
  exact ⟨hcomplete.decoded, (readable_privateFile bytes).mp hreadable⟩

theorem replace_again (hlawful : codec.Lawful)
    (h : ReadyToReplace codec hashes host directory key record files)
    (hsite : site ∈ replaceCourse) : (ReadyToReplace codec hashes host directory key record
        (replaceLeft host directory key (written codec record) files site k) ∧
      saved codec host directory key record
          (replaceLeft host directory key (written codec record) files site k) =
        saved codec host directory key record files) ↔ replaceSpoils codec record site = false := by
  simp only [replaceCourse, mem_append, mem_cons, not_mem_nil, or_false] at hsite
  rcases hsite with hread | rfl | rfl | rfl | rfl | rfl
  · obtain ⟨stage, rfl⟩ := mem_reads hread
    exact ⟨fun _ => rfl, fun _ => ⟨h, rfl⟩⟩
  · exact ⟨fun _ => rfl, fun _ => ⟨h, rfl⟩⟩
  · exact ⟨fun hready => not_ready_of_temp hready.1.noTemp, fun hspoils => by cases hspoils⟩
  · exact ⟨fun hready => not_ready_of_temp hready.1.noTemp, fun hspoils => by cases hspoils⟩
  · exact ⟨fun hready => not_ready_of_temp hready.1.noTemp, fun hspoils => by cases hspoils⟩
  · simp only [replaceSpoils, replaceLeft, Bool.or_eq_false_iff, decide_eq_false_iff_not, not_lt]
    constructor
    · rintro ⟨hready, -⟩
      obtain ⟨previous, hprevious, -, -, hopen⟩ := hready.previous
      obtain ⟨hread, hlength⟩ := length_of_previous hprevious
      obtain ⟨payload, hread', -⟩ := hlawful record _ (written_eq h.encoded)
      obtain rfl := some.inj (hread.symm.trans hread')
      exact ⟨hopen, hlength⟩
    · rintro ⟨hopen, hlength⟩
      obtain ⟨payload, hprevious, -⟩ := previous_update host directory files
        hlawful h.encoded h.valid hlength
      refine ⟨⟨h.valid, ⟨_, hprevious, rfl, rfl, hopen⟩, h.named, h.encoded, ?_⟩, ?_⟩
      · rw [update_of_ne tempPath_ne_receiptPath, h.noTemp]
      · exact update_idem _ _ _

/-! ## Clearing -/

/-- What a clearing leaves in its way: the marked receipt, when it is too long to be read. -/
def clearSpoils (codec : Codec Value) (directory key : Str) (files : Files) : Site → Bool
  | .write => true
  | .syncFile => true
  | .rename => true
  | .syncRecord => maxReceiptBytes < (markedBytes codec directory key files).length
  | .unlink => maxReceiptBytes < (markedBytes codec directory key files).length
  | .syncRemoval => true
  | _ => false

theorem clear_again (hlawful : codec.Lawful) {owner : OwnerInstance}
    (h : ReadyToClear codec hashes host directory key owner files) (hsite : site ∈ clearCourse) :
    (ReadyToClear codec hashes host directory key owner
        (clearLeft codec host directory key files site k) ∧
      cleared directory key (clearLeft codec host directory key files site k) =
        cleared directory key files) ↔ clearSpoils codec directory key files site = false := by
  have hmarked : (ReadyToClear codec hashes host directory key owner
      (update files (receiptPath directory key)
        (some (privateFile host (markedBytes codec directory key files)))) ∧
      cleared directory key (update files (receiptPath directory key)
        (some (privateFile host (markedBytes codec directory key files)))) =
        cleared directory key files) ↔
      (decide (maxReceiptBytes < (markedBytes codec directory key files).length)) = false := by
    rw [decide_eq_false_iff_not, not_lt]
    constructor
    · rintro ⟨hready, -⟩
      obtain ⟨receipt, hprevious, -⟩ := hready.receipt
      exact (length_of_previous hprevious).2
    · intro hlength
      obtain ⟨receipt, hprevious, rfl, hencoded⟩ := h.receipt
      obtain ⟨inode, -, -, hcomplete⟩ := id hprevious
      rw [hprevious.markedBytes] at hlength ⊢
      obtain ⟨payload, hprevious', hagain⟩ := previous_update host
        directory files hlawful hencoded hcomplete.valid hlength
      refine ⟨⟨h.named, ⟨_, hprevious', rfl, hagain⟩, ?_⟩, update_idem _ _ _⟩
      rw [update_of_ne tempPath_ne_receiptPath, h.noTemp]
  simp only [clearCourse, replaceCourse, mem_append, mem_cons, not_mem_nil, or_false] at hsite
  rcases hsite with (hread | rfl | rfl | rfl | rfl | rfl) | rfl | rfl
  · obtain ⟨stage, rfl⟩ := mem_reads hread
    exact ⟨fun _ => rfl, fun _ => ⟨h, rfl⟩⟩
  · exact ⟨fun _ => rfl, fun _ => ⟨h, rfl⟩⟩
  · exact ⟨fun hready => not_ready_of_temp hready.1.noTemp, fun hspoils => by cases hspoils⟩
  · exact ⟨fun hready => not_ready_of_temp hready.1.noTemp, fun hspoils => by cases hspoils⟩
  · exact ⟨fun hready => not_ready_of_temp hready.1.noTemp, fun hspoils => by cases hspoils⟩
  · exact hmarked
  · exact hmarked
  · refine ⟨fun hready => ?_, fun hspoils => by cases hspoils⟩
    obtain ⟨receipt, ⟨inode, hfile, -⟩, -⟩ := hready.1.receipt
    rw [clearLeft, cleared, update_self] at hfile
    cases hfile

/-! ## Applying -/

/-- What an application leaves in its way: evidence that is not all there or is too long to be read,
and nothing to archive once the receipt is gone. -/
def applySpoils (evidence : Bytes) : Site → ℕ → Bool
  | .write, k => k < evidence.length || maxReceiptBytes < evidence.length
  | .syncFile, _ => maxReceiptBytes < evidence.length
  | .syncProof, _ => maxReceiptBytes < evidence.length
  | .targetPresence, _ => maxReceiptBytes < evidence.length
  | .read .archived _, _ => maxReceiptBytes < evidence.length
  | .link, _ => maxReceiptBytes < evidence.length
  | .syncLink, _ => maxReceiptBytes < evidence.length
  | .read .beforeRemoval _, _ => maxReceiptBytes < evidence.length
  | .unlink, _ => maxReceiptBytes < evidence.length
  | .syncRemoval, _ => true
  | _, _ => false

section Apply

variable {places : Places} {bytes evidence : Bytes} {files' : Files}

/-- How far an application may have come before the receipt is removed. -/
structure Progress (host : Host) (places : Places) (evidence : Bytes) (files files' : Files) :
    Prop where
  archive : files' places.archive = files places.archive ∨
    files' places.archive = made host places.archive files places.archive ∨
    files' places.archive = ensured host places.archive files places.archive
  proof : files' places.proof = files places.proof ∨
    files' places.proof = (files places.proof).or (some (privateFile host evidence))
  target : files' places.target = files places.target ∨
    files' places.target = (files places.target).or (files places.source)
  others : ∀ q, q ≠ places.archive → q ≠ places.proof → q ≠ places.target → files' q = files q

theorem retired_congr (harchive : ensured host places.archive files' places.archive =
      ensured host places.archive files places.archive)
    (hproof : (files' places.proof).or (some (privateFile host evidence)) =
      (files places.proof).or (some (privateFile host evidence)))
    (htarget : (files' places.target).or (files' places.source) =
      (files places.target).or (files places.source))
    (hothers : ∀ q, q ≠ places.archive → q ≠ places.proof → q ≠ places.target →
      files' q = files q) :
    retired host places evidence files' = retired host places evidence files := by
  have hensured : ∀ q, q ≠ places.proof → q ≠ places.target →
      ensured host places.archive files' q = ensured host places.archive files q := by
    intro q hq hq'
    by_cases h : q = places.archive
    · rw [h, harchive]
    · rw [ensured_of_ne host files' h, ensured_of_ne host files h, hothers q h hq hq']
  funext q
  simp only [retired, linked, placed, update_apply, hproof, htarget]
  split
  next => rfl
  next =>
    split
    next => rfl
    next hq =>
      split
      next => rfl
      next hq' => exact hensured q hq' hq

theorem Progress.retired_eq (hapart : places.Apart)
    (h : Progress host places evidence files files') :
    retired host places evidence files' = retired host places evidence files := by
  have hsource : files' places.source = files places.source :=
    h.others _ hapart.source_archive hapart.source_proof hapart.source_target
  refine retired_congr ?_ ?_ ?_ h.others
  · have harchive := h.archive
    simp only [ensured, made, update_self] at harchive ⊢
    rcases harchive with heq | heq | heq
    · rw [heq]
    · rw [heq, Option.or_assoc, Option.or_self]
    · rw [heq]
      cases files places.archive with
      | none => rfl
      | some inode => rfl
  · rcases h.proof with hproof | hproof
    · rw [hproof]
    · rw [hproof]
      cases files places.proof with
      | none => rfl
      | some inode => rfl
  · rw [hsource]
    rcases h.target with htarget | htarget
    · rw [htarget]
    · rw [htarget]
      cases files places.target with
      | none =>
        rw [none_or, Option.or_self]
      | some inode => rfl

/-- What there is of the archive does not keep the application from going on. -/
theorem Progress.archivable (hapart : places.Apart)
    (hready : Archivable host places bytes evidence files)
    (h : Progress host places evidence files files')
    (hproof : files' places.proof = files places.proof ∨ evidence.length ≤ maxReceiptBytes) :
    Archivable host places bytes evidence files' where
  source := by
    rw [h.others _ hapart.source_archive hapart.source_proof hapart.source_target]
    exact hready.source
  archive := by
    obtain ⟨inode, hmade, hkind, huid, hensured⟩ := made_archive hready.archive
    intro inode' hfile
    rcases h.archive with harchive | harchive | harchive
    · exact hready.archive inode' (harchive ▸ hfile)
    · rw [harchive, hmade] at hfile
      obtain rfl := some.inj hfile
      exact ⟨hkind, huid⟩
    · rw [harchive, hensured, update_self] at hfile
      obtain rfl := some.inj hfile
      exact ⟨hkind, huid⟩
  proof := by
    intro inode hfile
    rcases hproof with hsame | hlength
    · exact hready.proof inode (hsame ▸ hfile)
    · rcases h.proof with hsame | hsame
      · exact hready.proof inode (hsame ▸ hfile)
      · rw [hsame] at hfile
        cases hold : files places.proof with
        | some old =>
          rw [hold, some_or] at hfile
          obtain rfl := some.inj hfile
          exact hready.proof old hold
        | none =>
          rw [hold, none_or] at hfile
          obtain rfl := some.inj hfile
          exact ⟨(readable_privateFile evidence).mpr hlength, rfl⟩
  target := by
    obtain ⟨inode, hsource, hreadable, hbytes⟩ := hready.source
    intro copy hfile
    rcases h.target with hsame | hsame
    · exact hready.target copy (hsame ▸ hfile)
    · rw [hsame] at hfile
      cases hold : files places.target with
      | some old =>
        rw [hold, some_or] at hfile
        obtain rfl := some.inj hfile
        exact hready.target old hold
      | none =>
        rw [hold, none_or, hsource] at hfile
        obtain rfl := some.inj hfile
        exact ⟨hreadable, hbytes⟩

theorem progress_refl (host : Host) (evidence : Bytes) (files : Files) :
    Progress host places evidence files files :=
  ⟨.inl rfl, .inl rfl, .inl rfl, fun _ _ _ _ => rfl⟩

theorem progress_made (host : Host) (evidence : Bytes) (files : Files) (hapart : places.Apart) :
    Progress host places evidence files (made host places.archive files) where
  archive := .inr (.inl rfl)
  proof := .inl (made_of_ne host files hapart.proof_archive)
  target := .inl (made_of_ne host files hapart.target_archive)
  others _ h _ _ := made_of_ne host files h

theorem progress_ensured (host : Host) (evidence : Bytes) (files : Files) (hapart : places.Apart) :
    Progress host places evidence files (ensured host places.archive files) where
  archive := .inr (.inr rfl)
  proof := .inl (ensured_of_ne host files hapart.proof_archive)
  target := .inl (ensured_of_ne host files hapart.target_archive)
  others _ h _ _ := ensured_of_ne host files h

theorem progress_placed (host : Host) (evidence : Bytes) (files : Files) (hapart : places.Apart) :
    Progress host places evidence files (placed host places evidence files) where
  archive := .inr (.inr (update_of_ne hapart.proof_archive.symm _ _))
  proof := .inr (update_self _ _ _)
  target := .inl (by
    rw [placed, update_of_ne hapart.target_proof, ensured_of_ne host files hapart.target_archive])
  others q h h' _ := by rw [placed, update_of_ne h', ensured_of_ne host files h]

theorem progress_linked (host : Host) (evidence : Bytes) (files : Files) (hapart : places.Apart) :
    Progress host places evidence files (linked host places evidence files) where
  archive := .inr (.inr (by
    rw [linked, update_of_ne hapart.target_archive.symm, placed,
      update_of_ne hapart.proof_archive.symm]))
  proof := .inr (by
    rw [linked, update_of_ne hapart.target_proof.symm, placed, update_self])
  target := .inr (update_self _ _ _)
  others q h h' h'' := by
    rw [linked, update_of_ne h'', placed, update_of_ne h', ensured_of_ne host files h]

/-- Evidence that was not there and is not all there now, or cannot be read, is in the way. -/
theorem not_archivable {part : Bytes} (hfile : files' places.proof = some (privateFile host part))
    (hpart : part ≠ evidence ∨ maxReceiptBytes < part.length) :
    ¬ Archivable host places bytes evidence files' := by
  intro h
  obtain ⟨hreadable, hbytes⟩ := h.proof _ hfile
  rcases hpart with hne | hlength
  · exact hne hbytes
  · exact absurd ((readable_privateFile part).mp hreadable) (not_le.mpr hlength)

/-- Once all the evidence is there, only its length matters. -/
theorem archivable_of_evidence (hapart : places.Apart)
    (hready : Archivable host places bytes evidence files)
    (h : Progress host places evidence files files')
    (hproof : files' places.proof = (files places.proof).or (some (privateFile host evidence))) :
    Archivable host places bytes evidence files' ↔
      (decide (maxReceiptBytes < evidence.length)) = false := by
  rw [decide_eq_false_iff_not, not_lt]
  constructor
  · intro hready'
    cases hold : files places.proof with
    | some old =>
      obtain ⟨hreadable, hbytes⟩ := hready.proof old hold
      rw [← hbytes]
      exact hreadable.bounded
    | none =>
      rw [hold, none_or] at hproof
      exact not_lt.mp fun hlength => not_archivable hproof (.inr hlength) hready'
  · exact fun hlength => h.archivable hapart hready (.inr hlength)

/-- Evidence is written only where there is none. -/
theorem none_of_write (hready : Archivable host places bytes evidence files) (target : Bool)
    (hsite : Site.write ∈ archiveCourse (files.present places.proof) target) :
    files places.proof = none := by
  refine hready.proof.present_eq_false (Bool.eq_false_iff.mpr fun hpresent => ?_)
  rw [hpresent] at hsite
  revert hsite
  cases target with
  | true => decide
  | false => decide

theorem archive_again (hapart : places.Apart) (hready : Archivable host places bytes evidence files)
    (hwrite : site = .write → files places.proof = none) :
    (Archivable host places bytes evidence (archiveLeft host places evidence files site k) ∧
      retired host places evidence (archiveLeft host places evidence files site k) =
        retired host places evidence files) ↔ applySpoils evidence site k = false := by
  have hearly : ∀ {files' : Files}, Progress host places evidence files files' →
      files' places.proof = files places.proof →
      (Archivable host places bytes evidence files' ∧
        retired host places evidence files' = retired host places evidence files ↔
        false = false) := by
    intro files' h hproof
    exact ⟨fun _ => rfl, fun _ => ⟨h.archivable hapart hready (.inl hproof), h.retired_eq hapart⟩⟩
  have hlate : ∀ {files' : Files}, Progress host places evidence files files' →
      files' places.proof = (files places.proof).or (some (privateFile host evidence)) →
      (Archivable host places bytes evidence files' ∧
        retired host places evidence files' = retired host places evidence files ↔
        decide (maxReceiptBytes < evidence.length) = false) := by
    intro files' h hproof
    rw [← archivable_of_evidence hapart hready h hproof]
    exact ⟨fun h' => h'.1, fun h' => ⟨h', h.retired_eq hapart⟩⟩
  have hmade := hearly (progress_made host _ files hapart)
    (made_of_ne host files hapart.proof_archive)
  have hensured :=
    hearly (progress_ensured host _ files hapart) (ensured_of_ne host files hapart.proof_archive)
  have hplaced := hlate (progress_placed host _ files hapart) (update_self _ _ _)
  have hlinked := hlate (progress_linked host _ files hapart)
    (by rw [linked, update_of_ne hapart.target_proof.symm, placed, update_self])
  cases site with
  | write =>
    have hnone := hwrite rfl
    simp only [archiveLeft, applySpoils, Bool.or_eq_false_iff, decide_eq_false_iff_not, not_lt]
    by_cases hk : evidence.length ≤ k
    · have hall : update (ensured host places.archive files) places.proof
          (some (privateFile host (evidence.take k))) = placed host places evidence files := by
        rw [take_of_length_le hk, placed, hnone, none_or]
      rw [decide_eq_false_iff_not, not_lt] at hplaced
      rw [hall, hplaced]
      exact ⟨fun h => ⟨hk, h⟩, fun h => h.2⟩
    · refine ⟨fun h => ?_, fun h => absurd h.1 hk⟩
      refine absurd h.1 (not_archivable (update_self _ _ _) (.inl fun hpart => ?_))
      have hlength := congrArg List.length hpart
      rw [length_take] at hlength
      omega
  | syncRemoval =>
    refine ⟨fun h => ?_, fun h => by cases h⟩
    obtain ⟨inode, hfile, -⟩ := h.1.source
    rw [archiveLeft, retired, update_self] at hfile
    cases hfile
  | read what stage =>
    cases what with
    | plan turn => exact hearly (progress_refl host evidence files) rfl
    | previous => exact hearly (progress_refl host evidence files) rfl
    | unchanged => exact hearly (progress_refl host evidence files) rfl
    | proof => exact hensured
    | archived => exact hplaced
    | beforeRemoval => exact hlinked
  | presence turn directory => exact hearly (progress_refl host evidence files) rfl
  | rename => exact hearly (progress_refl host evidence files) rfl
  | syncRecord => exact hearly (progress_refl host evidence files) rfl
  | createArchive => exact hearly (progress_refl host evidence files) rfl
  | inspectArchive => exact hmade
  | protectArchive => exact hmade
  | proofPresence => exact hensured
  | create => exact hensured
  | syncFile => exact hplaced
  | syncProof => exact hplaced
  | targetPresence => exact hplaced
  | link => exact hplaced
  | syncLink => exact hlinked
  | unlink => exact hlinked

/-- Until the receipt is removed, only the files of the archive differ. -/
theorem archiveLeft_of_ne (hapart : places.Apart) (hsite : site ≠ .syncRemoval)
    {q : Pathname} (harchive : q ≠ places.archive) (hproof : q ≠ places.proof)
    (htarget : q ≠ places.target) : archiveLeft host places evidence files site k q = files q := by
  have hmade := (progress_made host evidence files hapart).others
    q harchive hproof htarget
  have hensured := (progress_ensured host evidence files hapart).others q harchive hproof htarget
  have hplaced := (progress_placed host evidence files hapart).others q harchive hproof htarget
  have hlinked := (progress_linked host evidence files hapart).others q harchive hproof htarget
  cases site with
  | write => rw [archiveLeft, update_of_ne hproof, hensured]
  | syncRemoval => exact absurd rfl hsite
  | read what stage =>
    cases what with
    | proof => exact hensured
    | archived => exact hplaced
    | beforeRemoval => exact hlinked
    | _ => rfl
  | inspectArchive => exact hmade
  | protectArchive => exact hmade
  | proofPresence => exact hensured
  | create => exact hensured
  | syncFile => exact hplaced
  | syncProof => exact hplaced
  | targetPresence => exact hplaced
  | link => exact hplaced
  | syncLink => exact hlinked
  | unlink => exact hlinked
  | _ => rfl

end Apply

section Again

variable {file revision line physicalKey : Str} {specs : List ConfiguredDevice} {inode : Inode}
  {first latest : CheckedPlan Value} {evidence : Bytes} {files' : Files}

theorem sourcePath_congr (hsame : ∀ q : Pathname, q.name = file → files' q = files q) :
    sourcePath files' file = sourcePath files file := by
  rw [sourcePath, sourcePath, directoryOf, directoryOf, present_congr (hsame _ rfl)]

variable {turn : Turn} {checked : CheckedPlan Value}

section

variable (h : Planned codec hashes host turn file specs files key inode checked)
include h

theorem Planned.congr (hsame : ∀ q : Pathname, q.name = file → files' q = files q) :
    Planned codec hashes host turn file specs files' key inode checked where
  once := by
    have honce := h.once
    rw [Once] at honce ⊢
    rwa [present_congr (hsame _ rfl), present_congr (hsame _ rfl)]
  named := h.named
  source := by
    rw [sourcePath_congr hsame, hsame _ rfl]
    exact h.source
  readable := h.readable
  plan := by
    rw [sourcePath_congr hsame]
    exact h.plan

theorem Planned.unique {key' : Str} {inode' : Inode} {checked' : CheckedPlan Value}
    (h' : Planned codec hashes host turn file specs files key' inode' checked') :
    key' = key ∧ inode' = inode ∧ checked' = checked := by
  obtain rfl := some.inj (h.named.symm.trans h'.named)
  obtain rfl := some.inj (h.source.symm.trans h'.source)
  exact ⟨rfl, rfl, Except.ok.inj (h'.plan.symm.trans h.plan)⟩

end

/-- While the receipt stays as it is, only the archive decides. -/
theorem ReadyToApply.again_iff (h : ReadyToApply codec hashes host file specs revision line
      physicalKey key inode first latest evidence files)
    (hsame : ∀ q : Pathname, q.name = file → files' q = files q) :
    (∃ key inode first latest evidence, ReadyToApply codec hashes host file specs revision line
      physicalKey key inode first latest evidence files') ↔
      Archivable host (placesOf latest) inode.bytes evidence files' := by
  constructor
  · rintro ⟨key', inode', first', latest', evidence', h'⟩
    obtain ⟨rfl, rfl, rfl⟩ := (h.plannedLatest.congr hsame).unique h'.plannedLatest
    obtain rfl := some.inj (h.encoded.symm.trans h'.encoded)
    exact h'.archivable
  · intro harchivable
    exact ⟨key, inode, first, latest, evidence, { h with
      plannedFirst := h.plannedFirst.congr hsame
      plannedLatest := h.plannedLatest.congr hsame
      archivable := harchivable }⟩

variable (codec hashes host) in
/-- What is left of an application. -/
def applyLeft (specs : List ConfiguredDevice) (file revision : Str) (files : Files) :
    Site → ℕ → Files :=
  archiveLeft host (applyPlaces files file revision) (evidenceOf codec hashes host specs files file)
    files

variable (codec hashes host) in
def applied (specs : List ConfiguredDevice) (file revision : Str) (files : Files) : Files :=
  retired host (applyPlaces files file revision) (evidenceOf codec hashes host specs files file)
    files

theorem applied_eq (hsame : ∀ q : Pathname, q.name = file → files' q = files q) :
    applied codec hashes host specs file revision files' =
      retired host (applyPlaces files file revision)
        (evidenceOf codec hashes host specs files file) files' := by
  have hsource := sourcePath_congr hsame
  have hdirectory : directoryOf files' file = directoryOf files file :=
    congrArg Pathname.directory hsource
  rw [applied, applyPlaces, applyPlaces, evidenceOf, evidenceOf, hsource, hdirectory, hsame _ rfl]

variable {q : Pathname}

/-- The names in the archive are not those of receipts. -/
theorem name_ne_of_key (files : Files) (revision : Str) (hkey : keyOf file = some key)
    (hname : q.name = file) :
    q ≠ (applyPlaces files file revision).archive ∧ q ≠ (applyPlaces files file revision).proof ∧
      q ≠ (applyPlaces files file revision).target := by
  have hfile : q.name = jsonName key := hname.trans (keyOf_eq_some.mp hkey).1
  refine ⟨fun h => ?_, fun h => ?_, fun h => ?_⟩
  · have hlast := congrArg (fun path : Pathname => path.name.reverse.head?) h
    simp [applyPlaces, hfile, jsonName] at hlast
  · have hname := congrArg Pathname.name h
    simp [applyPlaces, proofPath, stem, hkey, hfile, jsonName] at hname
  · have hname := congrArg Pathname.name h
    simp [applyPlaces, archivePath, stem, hkey, hfile, jsonName] at hname

theorem Once.unique (h : Once files file) (hname : q.name = file)
    (hdirectory : q.directory = receiptDirectory ∨ q.directory = lockDirectory)
    (hpresent : files.present q = true) : q = sourcePath files file := by
  obtain ⟨directory, name⟩ := q
  obtain rfl : name = file := hname
  rw [sourcePath, directoryOf]
  rcases hdirectory with rfl | rfl
  · rw [hpresent, if_pos rfl]
  · rw [Once, hpresent] at h
    rw [Bool.eq_false_iff.mpr h, if_neg (by decide)]

theorem directoryOf_cases :
    directoryOf files file = receiptDirectory ∨ directoryOf files file = lockDirectory := by
  rw [directoryOf]
  split
  next => exact .inl rfl
  next => exact .inr rfl

theorem apply_again (h : ReadyToApply codec hashes host file specs revision line physicalKey key
      inode first latest evidence files) (hsite : site ∈ applyCourse files file revision) :
    ((∃ key inode first latest evidence, ReadyToApply codec hashes host file specs revision line
        physicalKey key inode first latest evidence
        (applyLeft codec hashes host specs file revision files site k)) ∧
      applied codec hashes host specs file revision
          (applyLeft codec hashes host specs file revision files site k) =
        applied codec hashes host specs file revision files) ↔
      applySpoils (evidenceOf codec hashes host specs files file) site k = false := by
  have hapart : (applyPlaces files file revision).Apart := h.places ▸ h.plannedLatest.apart
  have hready := h.archivable
  rw [h.places] at hready
  by_cases hremoved : site = .syncRemoval
  · subst hremoved
    refine ⟨fun ⟨⟨key', inode', _, _, _, h'⟩, _⟩ => ?_, fun hspoils => by cases hspoils⟩
    -- the receipt is gone, and the other directory has none of this name
    obtain ⟨q, hname, hdirectory, hq⟩ : ∃ q : Pathname, q.name = file ∧
        (q.directory = receiptDirectory ∨ q.directory = lockDirectory) ∧
        applyLeft codec hashes host specs file revision files .syncRemoval k q = some inode' :=
      ⟨_, rfl, directoryOf_cases, h'.plannedLatest.source⟩
    obtain ⟨harchive, hproof, htarget⟩ := name_ne_of_key files revision
      h.plannedLatest.named hname
    rw [applyLeft, archiveLeft, retired, update_apply] at hq
    split at hq
    next => cases hq
    next hne =>
      rw [(progress_linked host _ files hapart).others q harchive hproof htarget] at hq
      exact absurd (h.plannedLatest.once.unique hname hdirectory
        (h'.plannedLatest.readable.present hq)) hne
  · have hsame : ∀ q : Pathname, q.name = file →
        applyLeft codec hashes host specs file revision files site k q = files q := by
      intro q hname
      obtain ⟨harchive, hproof, htarget⟩ := name_ne_of_key files revision
        h.plannedLatest.named hname
      exact archiveLeft_of_ne hapart hremoved harchive hproof htarget
    have hwrite : site = .write → files (applyPlaces files file revision).proof = none := by
      rintro rfl
      refine none_of_write hready (files.present (applyPlaces files file revision).target) ?_
      rw [applyCourse, mem_append, mem_append] at hsite
      rcases hsite with hcheck | hcheck | harchive
      · simp [reads] at hcheck
      · simp [reads] at hcheck
      · exact harchive
    rw [h.again_iff hsame, applied_eq hsame, h.places, applied, applyLeft, h.evidenceOf]
    exact archive_again hapart hready hwrite

end Again

/-! ## Requests -/

section Requests

variable (codec hashes host)

/-- The file operations of an undisturbed request, in their order. -/
def Request.course (files : Files) : Request Value → List Site
  | .save _ _ _ true => createCourse
  | .save _ _ _ false => replaceCourse
  | .clear _ _ _ => clearCourse
  | .apply file _ revision _ _ => applyCourse files file revision

/-- The first operation that fails leaves something in the way of the next run. -/
def Request.spoils (files : Files) : Request Value → Site → ℕ → Bool
  | .save _ _ _ true, site, _ => createSpoils site
  | .save _ _ record false, site, _ => replaceSpoils codec record site
  | .clear directory key _, site, _ => clearSpoils codec directory key files site
  | .apply file specs _ _ _, site, written =>
    applySpoils (evidenceOf codec hashes host specs files file) site written

/-- The first operation to fail, if any, leaves nothing in the way. -/
def Request.Resumable (request : Request Value) (faults : Faults Site) (files : Files) : Prop :=
  ∀ site written, firstFault faults (request.course files) = some (site, written) →
    request.spoils codec hashes host files site written = false

end Requests

theorem apply_run_follows {file revision line physicalKey : Str} {specs : List ConfiguredDevice}
    {inode : Inode} {first latest : CheckedPlan Value} {evidence : Bytes}
    (h : ReadyToApply codec hashes host file specs revision line physicalKey key inode first latest
      evidence files) :
    Follows (Request.run codec hashes host (.apply file specs revision line physicalKey)) files
      (stepsOf (applyCourse files file revision)
        (applyLeft codec hashes host specs file revision files)) ()
      (applied codec hashes host specs file revision files) := by
  rw [applyLeft, applied, h.evidenceOf, ← append_nil (stepsOf _ _)]
  exact (apply_follows h).bind (f := fun _ _ => pure ()) .of_pure

theorem resumes_iff_resumable (hlawful : codec.Lawful) (request : Request Value)
    (faults : Faults Site) (disk : Disk)
    (hclean : (call (request.run codec hashes host undisturbed) disk).1 = .ok ()) :
    Resumes (request.run codec hashes host) faults disk ↔
      request.Resumable codec hashes host faults disk.file := by
  cases request with
  | save directory key record create =>
    cases create with
    | true =>
      have hready : ReadyToCreate codec hashes directory key record disk.file :=
        (create_needs record disk rfl).1 () _ (Prod.ext hclean rfl)
      refine (resumes_iff (ReadyToCreate codec hashes directory key record)
        (fun _ => createCourse) (fun _ => create_needs record)
        (fun _ h => create_follows h) hclean).trans ?_
      exact forall₃_congr fun site written h => create_again hready (mem_of_firstFault h)
    | false =>
      have hready : ReadyToReplace codec hashes host directory key record disk.file :=
        (replace_needs record disk rfl).1 () _ (Prod.ext hclean rfl)
      refine (resumes_iff (ReadyToReplace codec hashes host directory key record)
        (fun _ => replaceCourse) (fun _ => replace_needs record)
        (fun _ h => replace_follows h) hclean).trans ?_
      exact forall₃_congr fun site written h => replace_again hlawful hready (mem_of_firstFault h)
  | clear directory key owner =>
    have hready : ReadyToClear codec hashes host directory key owner disk.file :=
      (clear_needs owner disk rfl).1 () _ (Prod.ext hclean rfl)
    refine (resumes_iff (ReadyToClear codec hashes host directory key owner)
      (fun _ => clearCourse) (fun _ => clear_needs owner)
      (fun _ h => clear_follows h) hclean).trans ?_
    exact forall₃_congr fun site written h => clear_again hlawful hready (mem_of_firstFault h)
  | apply file specs revision line physicalKey =>
    have hneeds : ∀ files, Triple (fun disk => disk.file = files)
        (Request.run codec hashes host (.apply file specs revision line physicalKey) undisturbed)
        (fun _ _ => ∃ key inode first latest evidence, ReadyToApply codec hashes host file specs
          revision line physicalKey key inode first latest evidence files) fun _ => True :=
      fun _ => apply_needs.bind fun _ => .of_pure fun _ h => h
    obtain ⟨key, inode, first, latest, evidence, hready⟩ :=
      (hneeds disk.file disk rfl).1 () _ (Prod.ext hclean rfl)
    refine (resumes_iff _ (fun files => applyCourse files file revision) hneeds
      (fun _ ⟨_, _, _, _, _, h⟩ => apply_run_follows h) hclean).trans ?_
    exact forall₃_congr fun site written h => apply_again hready (mem_of_firstFault h)

/-- **Interrupted requests.** Whatever fails, and wherever the process stops, no complete receipt is
lost or altered. Running the request again completes it just when the first operation to fail has
left nothing in its way. -/
theorem Request.interrupted (hashes : Hashes) (host : Host) (hlawful : codec.Lawful)
    (request : Request Value)
    (faults : Faults Site) (disk : Disk) : Kept codec hashes host faults request disk.file
        (call (request.run codec hashes host faults) disk).2.file ∧
      ((call (request.run codec hashes host undisturbed) disk).1 = .ok () →
        (Resumes (request.run codec hashes host) faults disk ↔
          request.Resumable codec hashes host faults disk.file)) :=
  ⟨request.run_kept disk, resumes_iff_resumable hlawful request faults disk⟩

/-! ## A receipt that cannot be archived any more -/

def quoted (text : Str) : Str := '"' :: text ++ ['"']

def object (entries : List (String × Str)) : Str :=
  '{' :: joinWith [','] (entries.map fun entry => quoted entry.1.toList ++ ':' :: entry.2) ++ ['}']

def array (items : List Str) : Str := '[' :: joinWith [','] items ++ [']']

def boolean (value : Bool) : Str := if value then "true".toList else "false".toList

def portJson (port : PortIdentity) : Str :=
  object [("device", quoted port.device), ("canonical", quoted port.canonical),
    ("sysfs", quoted port.sysfs), ("rdev", decimal port.rdev), ("inode", decimal port.inode)]

def receiptJson (receipt : Receipt Str) : Str :=
  object [("schema", decimal receipt.schema), ("key", quoted receipt.key),
    ("line_id", quoted receipt.lineId), ("physical_key", quoted receipt.physicalKey),
    ("slot", decimal receipt.slot), ("anchor", quoted receipt.anchor),
    ("owner", object [("boot_id", quoted receipt.owner.bootId), ("pid", decimal receipt.owner.pid),
      ("start_ticks", decimal receipt.owner.startTicks)]),
    ("ports", array (receipt.ports.map portJson)), ("generation", quoted receipt.generation),
    ("cleanup_confirmed", boolean receipt.cleanupConfirmed), ("payload", receipt.payload)]

def planJson (plan : RecoveryPlan) : Str :=
  object [("receipt", quoted plan.receipt), ("revision", quoted plan.revision),
    ("line_id", quoted (plan.lineId.getD [])), ("physical_key", quoted (plan.physicalKey.getD [])),
    ("generation_changed", boolean plan.generationChanged), ("eligible", boolean plan.eligible),
    ("blockers", array (plan.blockers.map quoted)), ("action", quoted plan.action)]

def fixtureLine : Str := "line-a35e9e112a4ebb6b97c68a5a11541fe0".toList

/-- The receipt of an owner that has confirmed its cleanup and is gone. -/
def fixtureReceipt : Receipt Str where
  schema := 2
  key := "session-fixture-sim".toList
  lineId := fixtureLine
  physicalKey := "fixture".toList
  slot := 1
  anchor := "/sys/devices/fixture".toList
  owner := ⟨"fixture-boot".toList, 123, 7⟩
  ports := [⟨"/dev/fixture".toList, "/dev/fixture".toList, "/sys/devices/fixture/port".toList, 10,
    11⟩]
  generation := "c62048f722eff7b76ecf3a4c754d202b07ae8f772c3e434beff1a8cddb42382d".toList
  cleanupConfirmed := true
  payload := object [("client_id", decimal 7)]

/-- The JSON of one receipt, and of whatever else needs no escapes. -/
def codecOf (receipt : Receipt Str) : Codec Str where
  receipt record := if record = receipt then some (asBytes (receiptJson receipt)) else none
  readReceipt bytes := if bytes = asBytes (receiptJson receipt) then some receipt else none
  ports boot ports := some (asBytes (array [quoted boot, array (ports.map portJson)]))
  revision key bytes generation alive scopeMatches := asBytes (array [quoted key, quoted bytes,
    quoted generation, boolean alive, boolean scopeMatches])
  plan plan := some (asBytes (planJson plan))
  pointer _ _ := none

theorem codecOf_lawful (receipt : Receipt Str) : (codecOf receipt).Lawful := by
  intro record bytes h
  obtain ⟨rfl, hbytes⟩ := ite_none_right_eq_some.mp h
  refine ⟨record.payload, ?_, ?_⟩
  · rw [codecOf, ← some.inj hbytes]
    exact if_pos rfl
  · rw [codecOf]
    simp

def fixtureCodec : Codec Str := codecOf fixtureReceipt

def fixturePorts (boot : String) : Bytes :=
  asBytes (array [quoted boot.toList, array (fixtureReceipt.ports.map portJson)])

/-- The digests of what is digested below. -/
def fixtureHashes : Hashes where
  sha256 data :=
    if data = fixturePorts "fixture-boot" then
      [198, 32, 72, 247, 34, 239, 247, 183, 110, 207, 58, 76, 117, 77, 32, 43, 7, 174, 143, 119, 44,
        62, 67, 75, 239, 241, 168, 205, 219, 66, 56, 45]
    else if data = fixturePorts "next-boot" then
      [68, 45, 174, 239, 53, 175, 71, 2, 66, 155, 73, 32, 194, 29, 33, 31, 129, 11, 101, 148, 230,
        11, 22, 231, 53, 115, 72, 23, 99, 196, 219, 199]
    else if data = asBytes (receiptJson fixtureReceipt) then
      [186, 108, 43, 170, 64, 88, 202, 218, 29, 91, 68, 59, 243, 131, 115, 198, 76, 200, 155, 150,
        90, 120, 242, 244, 129, 202, 138, 122, 98, 5, 207, 222]
    else
      [57, 206, 122, 104, 100, 156, 13, 171, 60, 223, 144, 148, 137, 143, 148, 53, 74, 108, 219, 73,
        112, 192, 22, 67, 162, 23, 209, 127, 154, 142, 55, 192]
  md5 data :=
    if data = asBytes fixtureReceipt.anchor then
      [152, 78, 164, 27, 243, 127, 65, 87, 246, 140, 93, 152, 241, 106, 173, 127]
    else [163, 94, 158, 17, 42, 78, 187, 107, 151, 198, 138, 90, 17, 84, 31, 224]
  sha256_length data := by
    split
    next => rfl
    next =>
      split
      next => rfl
      next =>
        split
        next => rfl
        next => rfl

def fixtureSpec : ConfiguredDevice where
  hardwareKey := "fixture".toList
  protocol := .qmi
  controlDevice := "/dev/fixture".toList
  sysfsAnchor := "/sys/devices/fixture".toList

/-- The host after a restart, with the modem as it was. -/
def fixtureSurroundings : Surroundings where
  bootId := some "next-boot\n".toList
  stat _ := .absent
  canonicalize := some
  metadata _ := some (some ⟨10, 11⟩)
  sysfs _ := some "/sys/devices/fixture/port".toList

def fixtureHost : Host where
  process := ⟨456, 0⟩
  around _ := fixtureSurroundings
  lockDirectory := .ok ()
  lock _ := .ok ()
  connection := true
  nameHasOwner _ := some false

def fixtureDisk : Disk where
  inodes := [⟨.regular, 0, 0o600, asBytes (receiptJson fixtureReceipt)⟩]
  entry path :=
    if path = receiptPath receiptDirectory fixtureReceipt.key then some 0 else none
  bound := by
    intro path i h
    obtain ⟨-, hi⟩ := Option.ite_none_right_eq_some.mp h
    rw [← Option.some.inj hi]
    exact Nat.zero_lt_one

def fixtureApply : Request Str :=
  .apply "session-fixture-sim.json".toList [fixtureSpec]
    "39ce7a68649c0dab3cdf9094898f94354a6cdb4970c01643a217d17f9a8e37c0".toList fixtureLine
    "fixture".toList

/-- The operation at the site fails, after writing nothing. -/
def failsAt (site : Site) : Faults Site := fun s => if s = site then some 0 else none

/-- The error of a result. -/
def failure (x : Except NativeError Unit) : Option NativeError :=
  match x with
  | .ok _ => none
  | .error e => some e

variable {x : Except NativeError Unit}

theorem eq_ok_of_failure (h : failure x = none) : x = .ok () := by
  cases x with
  | ok a => rfl
  | error e => cases h

theorem eq_error_of_failure {e : NativeError} (h : failure x = some e) : x = .error e := by
  cases x with
  | ok a => cases h
  | error e' =>
    cases h
    rfl

/-- The link was made and the receipt is still there: applying again archives it. -/
theorem interrupted_unlink :
    Kept fixtureCodec fixtureHashes fixtureHost (failsAt .unlink) fixtureApply fixtureDisk.file
        (call (fixtureApply.run fixtureCodec fixtureHashes fixtureHost (failsAt .unlink))
          fixtureDisk).2.file ∧
      Resumes (fixtureApply.run fixtureCodec fixtureHashes fixtureHost) (failsAt .unlink)
        fixtureDisk := by
  have hclean : (call (fixtureApply.run fixtureCodec fixtureHashes fixtureHost undisturbed)
      fixtureDisk).1 = .ok () := eq_ok_of_failure (by decide +kernel)
  obtain ⟨hkept, hresumes⟩ := Request.interrupted fixtureHashes fixtureHost
    (codecOf_lawful fixtureReceipt) fixtureApply (failsAt .unlink) fixtureDisk
  refine ⟨hkept, (hresumes hclean).mpr fun site written hfault => ?_⟩
  have hfirst : firstFault (failsAt .unlink) (fixtureApply.course fixtureDisk.file) =
      some (.unlink, 0) := by decide +kernel
  obtain ⟨rfl, rfl⟩ := Prod.mk.inj (Option.some.inj (hfault.symm.trans hfirst))
  decide +kernel

/-- Applying stopped when the evidence had been created and nothing was written. From then on every
application finds a collision, and the receipt is never archived. -/
theorem evidence_collides :
    (call (fixtureApply.run fixtureCodec fixtureHashes fixtureHost undisturbed)
        fixtureDisk).1 = .ok () ∧
      ¬ Resumes (fixtureApply.run fixtureCodec fixtureHashes fixtureHost) (failsAt .write)
        fixtureDisk := by
  refine ⟨eq_ok_of_failure (by decide +kernel), fun h => ?_⟩
  have hstopped : failure (call (fixtureApply.run fixtureCodec fixtureHashes fixtureHost
      (failsAt .write)) fixtureDisk).1 = some (error "native_receipt_write_failed") := by
    decide +kernel
  have hagain : failure (call (fixtureApply.run fixtureCodec fixtureHashes fixtureHost undisturbed)
      (call (fixtureApply.run fixtureCodec fixtureHashes fixtureHost (failsAt .write))
        fixtureDisk).2).1 = some (error "native_recovery_resolution_collision") := by
    decide +kernel
  obtain ⟨hok, -⟩ := h _ (eq_error_of_failure hstopped)
  rw [hok] at hagain
  cases hagain

end SimMaster.Recovery
