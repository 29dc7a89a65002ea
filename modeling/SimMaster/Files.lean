import SimMaster.Text
import SimMaster.Triples

/-!
# Files and interrupted methods

What a program leaves in its directories when it stops halfway. A `Disk` holds inodes and directory
entries that name them, so that a hard link and its source are one file. Every operation of a
method has a *site*, and `Faults` says at which sites it fails; that the process stops there leaves
the same files. What a method does to the files is said in two ways. A `Triple` bounds it for all
faults. `Follows` lists, for the files there are, the operations of the undisturbed call in their
order with the files that each of them leaves when it is the first to fail.
-/

namespace Rust

open List Option Function

/-- Where a symbolic link leads. -/
inductive LinkTarget where
  | nowhere
  | directory
  | other
  deriving DecidableEq

inductive FileKind where
  | regular
  | directory
  | symlink (target : LinkTarget)
  | other
  deriving DecidableEq

structure Inode where
  kind : FileKind := .regular
  uid : ℕ
  mode : ℕ
  bytes : Bytes := []
  deriving DecidableEq

structure Pathname where
  directory : Str
  name : Str
  deriving DecidableEq

/-- What the directories show: the files by their paths. -/
abbrev Files : Type := Pathname → Option Inode

structure Disk where
  inodes : List Inode
  entry : Pathname → Option ℕ
  bound : ∀ {path i}, entry path = some i → i < inodes.length

/-- At which sites the operation fails. A write that fails has written this many octets. -/
abbrev Faults (site : Type) : Type := site → Option ℕ

namespace Disk

variable (disk : Disk) (path : Pathname) (inode : Inode)

def file : Files := fun path => disk.entry path >>= fun i => disk.inodes[i]?

/-- A new file under a path. Its inode is the next one. -/
def create : Disk where
  inodes := disk.inodes ++ [inode]
  entry := Function.update disk.entry path (some disk.inodes.length)
  bound := by
    intro q i h
    rw [length_append]
    by_cases hq : q = path
    · rw [hq, Function.update_self, Option.some.injEq] at h
      simp [← h]
    · rw [Function.update_of_ne hq] at h
      exact Nat.lt_add_right _ (disk.bound h)

/-- Change what an inode holds. -/
def write (handle : ℕ) (f : Inode → Inode) : Disk where
  inodes := disk.inodes.modify handle f
  entry := disk.entry
  bound := by
    intro q i h
    rw [List.length_modify]
    exact disk.bound h

/-- A further entry for the file under `source`. -/
def link (source target : Pathname) : Disk where
  inodes := disk.inodes
  entry := Function.update disk.entry target (disk.entry source)
  bound := by
    intro q i h
    by_cases hq : q = target
    · rw [hq, Function.update_self] at h
      exact disk.bound h
    · rw [Function.update_of_ne hq] at h
      exact disk.bound h

def unlink : Disk where
  inodes := disk.inodes
  entry := Function.update disk.entry path none
  bound := by
    intro q i h
    by_cases hq : q = path
    · rw [hq, Function.update_self] at h
      cases h
    · rw [Function.update_of_ne hq] at h
      exact disk.bound h

def rename (source target : Pathname) : Disk := (disk.link source target).unlink source

/-! ## What the operations show -/

theorem file_create : (disk.create path inode).file = update disk.file path (some inode) := by
  funext q
  by_cases hq : q = path
  · subst hq
    simp [file, create]
  · simp only [file, create, update_of_ne hq]
    cases hentry : disk.entry q with
    | none => rfl
    | some i => exact getElem?_append_left (disk.bound hentry)

/-- No other path leads to a new inode. -/
theorem file_write_create (f : Inode → Inode) :
    ((disk.create path inode).write disk.inodes.length f).file =
      update disk.file path (some (f inode)) := by
  funext q
  by_cases hq : q = path
  · subst hq
    simp [file, create, write]
  · simp only [file, create, write, update_of_ne hq]
    cases hentry : disk.entry q with
    | none => rfl
    | some i =>
      have hi : i < disk.inodes.length := disk.bound hentry
      have hne : disk.inodes.length ≠ i := by omega
      simp [getElem?_modify, hne, getElem?_append_left hi]

theorem file_link (source target : Pathname) :
    (disk.link source target).file = update disk.file target (disk.file source) := by
  funext q
  by_cases hq : q = target
  · subst hq
    simp [file, link]
  · simp [file, link, update_of_ne hq]

theorem file_unlink : (disk.unlink path).file = update disk.file path none := by
  funext q
  by_cases hq : q = path
  · subst hq
    simp [file, unlink]
  · simp [file, unlink, update_of_ne hq]

theorem file_rename (source target : Pathname) : (disk.rename source target).file =
      update (update disk.file target (disk.file source)) source none := by
  rw [rename, file_unlink, file_link]

end Disk

namespace Files

/-- `Path::exists`, which looks behind a symbolic link. -/
def present (files : Files) (path : Pathname) : Bool :=
  match files path with
  | none => false
  | some inode => inode.kind ≠ .symlink .nowhere

end Files

namespace Method

variable {site ε α β : Type}

/-! ## Operations -/

section Operations

variable (faults : Faults site) (s : site) (e : ε)

/-- Get past an operation that changes no file. -/
def reach : Method Disk ε Unit :=
  match faults s with
  | none => pure ()
  | some _ => throw e

/-- `Path::exists`. It takes a path that it cannot look up for one that is absent. -/
def pathExists (path : Pathname) : Method Disk ε Bool := do
  let disk ← get
  return disk.file.present path && (faults s).isNone

/-- `create_new`: the file must not exist. Answers the handle of the new file. -/
def createNew (path : Pathname) (inode : Inode) : Method Disk ε ℕ := do
  reach faults s e
  let disk ← get
  if (disk.file path).isSome then throw e
  else do
    modify fun disk => disk.create path inode
    return disk.inodes.length

/-- `write_all` to a file just created. -/
def writeAll (handle : ℕ) (bytes : Bytes) : Method Disk ε Unit :=
  match faults s with
  | none => modify fun disk => disk.write handle fun inode => { inode with bytes }
  | some written => do
    modify fun disk => disk.write handle fun inode => { inode with bytes := bytes.take written }
    throw e

/-- A new file and what it holds. -/
def createFile (written : site) (unwritten : ε) (path : Pathname) (inode : Inode) (bytes : Bytes) :
    Method Disk ε Unit := do
  let handle ← createNew faults s e path inode
  writeAll faults written unwritten handle bytes

/-- `fs::rename` of a file. -/
def renameFile (source target : Pathname) : Method Disk ε Unit := do
  reach faults s e
  let disk ← get
  if (disk.file source).isNone || (disk.file target).any (·.kind = .directory) then throw e
  else modify fun disk => disk.rename source target

/-- `fs::hard_link` of a file. -/
def hardLink (source target : Pathname) : Method Disk ε Unit := do
  reach faults s e
  let disk ← get
  if (disk.file source).isNone || (disk.file target).isSome then throw e
  else modify fun disk => disk.link source target

/-- `fs::remove_file`. -/
def removeFile (path : Pathname) : Method Disk ε Unit := do
  reach faults s e
  let disk ← get
  if (disk.file path).isNone || (disk.file path).any (·.kind = .directory) then throw e
  else modify fun disk => disk.unlink path

end Operations

/-! ## What an operation may do

Whatever fails, a regular file stays as it was until it is renamed over or removed. -/

/-- A regular file that was under the path is there as it was. -/
def Retains (files files' : Files) (path : Pathname) : Prop :=
  ∀ inode, files path = some inode → inode.kind = .regular → files' path = some inode

/-- No regular file was under the path. -/
def Vacant (files : Files) (path : Pathname) : Prop :=
  ∀ inode, files path = some inode → inode.kind ≠ .regular

/-- All regular files are as they were. -/
def Grown (files : Files) (disk : Disk) : Prop := ∀ path, Retains files disk.file path

section Triples

variable {files : Files} {faults : Faults site} {s written : site} {e unwritten : ε}

variable {files' : Files} {file : Option Inode}

theorem Retains.of_update {path path' : Pathname}
    (h : Retains files files' path) (hne : path ≠ path') :
    Retains files (update files' path' file) path := by
  intro inode hfile hkind
  rw [update_of_ne hne]
  exact h inode hfile hkind

variable {path : Pathname}

theorem Vacant.retains (h : Vacant files path) :
    Retains files files' path := fun inode hfile hkind => absurd hkind (h inode hfile)

variable {disk : Disk}

theorem Grown.of_eq (h : disk.file = files) : Grown files disk := by
  intro path inode hfile _
  rw [h]
  exact hfile

theorem Grown.vacant (h : Grown files disk)
    (hpath : ∀ inode, disk.file path = some inode → inode.kind ≠ .regular) : Vacant files path := by
  intro inode hfile hkind
  exact hpath inode (h path inode hfile hkind) hkind

/-- What is put where no regular file was. -/
theorem Grown.of_update {disk' : Disk} (h : Grown files disk) (hvacant : Vacant files path)
    (hfile : disk'.file = update disk.file path file) : Grown files disk' := by
  intro q
  rw [hfile]
  by_cases hq : q = path
  · rw [hq]
    exact hvacant.retains
  · exact (h q).of_update hq

variable {P E : Disk → Prop} {Q : α → Disk → Prop}

theorem Triple.of_get {m : Disk → Method Disk ε α}
    (h : ∀ disk, P disk → Triple (fun d => d = disk) (m disk) Q E) :
    Triple P (get >>= m) Q E := fun disk hdisk => h disk hdisk disk rfl

theorem Triple.of_modify {g : Disk → Disk} {Q : PUnit → Disk → Prop}
    (h : ∀ disk, P disk → Q PUnit.unit (g disk)) :
    Triple P (modify g : Method Disk ε PUnit) Q E := by
  intro disk hdisk
  refine ⟨?_, fun e s' hcall => by cases hcall⟩
  rintro a s' ⟨⟩
  exact h disk hdisk

theorem Triple.of_ite {c : Prop} [Decidable c] {m m' : Method Disk ε α} (h : c → Triple P m Q E)
    (h' : ¬ c → Triple P m' Q E) :
    Triple P (if c then m else m') Q E := by
  split
  next hc => exact h hc
  next hc => exact h' hc

theorem Triple.of_reach (hE : ∀ disk, P disk → E disk) :
    Triple P (reach faults s e) (fun _ disk => faults s = none ∧ P disk) E := by
  rw [reach]
  cases hfaults : faults s with
  | none => exact .of_pure fun disk h => ⟨rfl, h⟩
  | some k => exact .of_throw hE

/-- Past an operation that changes no file. -/
theorem Triple.reach_bind {m : Unit → Method Disk ε α}
    (hE : ∀ disk, P disk → E disk) (hm : Triple P (m ()) Q E) :
    Triple P (reach faults s e >>= m) Q E :=
  (Triple.of_reach hE).bind fun _ => hm.weaken fun _ h => h.2

theorem Triple.of_pathExists : Triple P (pathExists faults s path : Method Disk ε Bool)
      (fun found disk => P disk ∧ (found = true → disk.file.present path = true)) E := by
  refine .of_get fun disk hdisk => .of_pure ?_
  rintro disk' rfl
  exact ⟨hdisk, fun h => (Bool.and_eq_true_iff.mp h).1⟩

variable {bytes : Bytes} {inode : Inode}

theorem Triple.of_createFile (hE : ∀ disk, P disk → E disk)
    (hwritten : ∀ disk disk' : Disk, ∀ part, P disk → disk.file path = none →
      disk'.file = update disk.file path (some { inode with bytes := part }) → E disk') :
    Triple P (createFile faults s e written unwritten path inode bytes)
      (fun _ disk' => ∃ disk : Disk, P disk ∧ disk.file path = none ∧
        disk'.file = update disk.file path (some { inode with bytes })) E := by
  refine .bind (Q := fun handle disk' => ∃ disk : Disk, P disk ∧ disk.file path = none ∧
    handle = disk.inodes.length ∧ disk' = disk.create path inode) ?_ fun handle => ?_
  · refine .reach_bind hE (.of_get fun disk hdisk => .of_ite (fun hsome => ?_) fun hnone => ?_)
    · exact .of_throw fun _ h => h ▸ hE disk hdisk
    · refine .bind (Q := fun _ disk' => disk' = disk.create path inode) (.of_modify ?_)
        fun _ => .of_pure ?_
      · rintro disk' rfl
        rfl
      · rintro disk' rfl
        exact ⟨disk, hdisk, not_isSome_iff_eq_none.mp hnone, rfl, rfl⟩
  · rw [writeAll]
    cases faults written with
    | none =>
      refine .of_modify ?_
      rintro _ ⟨disk, hdisk, hnone, rfl, rfl⟩
      exact ⟨disk, hdisk, hnone, disk.file_write_create path inode _⟩
    | some k =>
      refine .bind (Q := fun _ => E) (.of_modify ?_) fun _ => .of_throw fun _ h => h
      rintro _ ⟨disk, hdisk, hnone, rfl, rfl⟩
      exact hwritten disk _ _ hdisk hnone (disk.file_write_create path inode _)

theorem call_pathExists (path : Pathname) (disk : Disk) :
    call (pathExists faults s path : Method Disk ε Bool) disk =
      (.ok (disk.file.present path && (faults s).isNone), disk) := rfl

/-- Whatever becomes of it, a new file takes the place of no other. -/
theorem Triple.of_createFile_grown :
    Triple (Grown files) (createFile faults s e written unwritten path inode bytes)
      (fun _ disk => Grown files disk ∧ Vacant files path ∧
        disk.file path = some { inode with bytes }) (Grown files) := by
  have hvacant : ∀ disk : Disk, Grown files disk → disk.file path = none → Vacant files path := by
    intro disk hdisk hnone
    refine hdisk.vacant fun inode h => ?_
    rw [hnone] at h
    cases h
  refine (Triple.of_createFile (fun _ h => h) ?_).strengthen ?_
  · intro disk disk' part hdisk hnone hfile
    exact hdisk.of_update (hvacant disk hdisk hnone) hfile
  · rintro _ disk' ⟨disk, hdisk, hnone, hfile⟩
    refine ⟨hdisk.of_update (hvacant disk hdisk hnone) hfile, hvacant disk hdisk hnone, ?_⟩
    rw [hfile, update_self]

variable {source target : Pathname}

theorem Triple.of_hardLink (hE : ∀ disk, P disk → E disk) :
    Triple P (hardLink faults s e source target)
      (fun _ disk' => ∃ disk : Disk, P disk ∧ disk.file target = none ∧
        disk'.file = update disk.file target (disk.file source)) E := by
  refine .reach_bind hE (.of_get fun disk hdisk => .of_ite (fun hsome => ?_) fun hnone => ?_)
  · exact .of_throw fun _ h => hE _ (h ▸ hdisk)
  · refine .of_modify ?_
    rintro disk' rfl
    rw [Bool.or_eq_true, not_or, not_isSome_iff_eq_none] at hnone
    exact ⟨disk', hdisk, hnone.2, disk'.file_link source target⟩

theorem Triple.of_hardLink_grown (hE : ∀ disk, Grown files disk → E disk) :
    Triple (Grown files) (hardLink faults s e source target)
      (fun _ disk => Grown files disk ∧ (target ≠ source → disk.file target = disk.file source))
        E := by
  refine (Triple.of_hardLink hE).strengthen ?_
  rintro _ disk' ⟨disk, hdisk, hnone, hfile⟩
  refine ⟨hdisk.of_update (hdisk.vacant fun inode h => ?_) hfile, fun hne => ?_⟩
  · rw [hnone] at h
    cases h
  · rw [hfile, update_self, update_of_ne (Ne.symm hne)]

theorem Triple.of_renameFile (hE : ∀ disk, P disk → E disk) :
    Triple P (renameFile faults s e source target)
      (fun _ disk' => faults s = none ∧ ∃ disk : Disk, P disk ∧ disk'.file =
        update (update disk.file target (disk.file source)) source none) E := by
  refine (Triple.of_reach hE).bind fun _ => .given fun hfaults =>
    .of_get fun disk hdisk => .of_ite (fun _ => ?_) fun _ => ?_
  · exact .of_throw fun _ h => hE _ (h ▸ hdisk)
  · refine .of_modify ?_
    rintro disk' rfl
    exact ⟨hfaults, disk', hdisk, disk'.file_rename source target⟩

theorem Triple.of_removeFile (hE : ∀ disk, P disk → E disk) : Triple P (removeFile faults s e path)
      (fun _ disk' => ∃ disk : Disk, P disk ∧ disk'.file = update disk.file path none) E := by
  refine .reach_bind hE (.of_get fun disk hdisk => .of_ite (fun _ => ?_) fun _ => ?_)
  · exact .of_throw fun _ h => hE _ (h ▸ hdisk)
  · refine .of_modify ?_
    rintro disk' rfl
    exact ⟨disk', hdisk, disk'.file_unlink path⟩

end Triples

/-! ## Undisturbed and interrupted calls -/

/-- An operation of a call, and the files that are left when it is the first to fail. -/
structure FileStep (site : Type) where
  site : site
  left : ℕ → Files

/-- Steps that change no file. -/
def still (files : Files) (sites : List site) : List (FileStep site) :=
  sites.map fun s => ⟨s, fun _ => files⟩

/-- The files that the first failing step leaves. -/
def interrupted (faults : Faults site) (steps : List (FileStep site)) : Option Files :=
  steps.findSome? fun step => (faults step.site).map step.left

/-- Where the directories show `files`, the method takes the steps, unless one of them fails, and
returns `a` with `last`. -/
def Follows (m : Faults site → Method Disk ε α) (files : Files) (steps : List (FileStep site))
    (a : α)
    (last : Files) : Prop :=
  ∀ faults disk, disk.file = files →
    (interrupted faults steps = none →
      ∃ disk', call (m faults) disk = (.ok a, disk') ∧ disk'.file = last) ∧
    ∀ left, interrupted faults steps = some left →
      ∃ e disk', call (m faults) disk = (.error e, disk') ∧ disk'.file = left

variable (faults : Faults site)

@[simp] theorem interrupted_nil : interrupted faults [] = none := rfl

theorem interrupted_cons (step : FileStep site) (steps : List (FileStep site)) :
    interrupted faults (step :: steps) =
      ((faults step.site).map step.left).or (interrupted faults steps) := by
  rw [interrupted, findSome?_cons]
  cases faults step.site with
  | none => rfl
  | some k => rfl

theorem interrupted_append (steps steps' : List (FileStep site)) :
    interrupted faults (steps ++ steps') =
      (interrupted faults steps).or (interrupted faults steps') := findSome?_append

namespace Follows

variable {files files₁ files₂ : Files} {steps steps' : List (FileStep site)} {a : α} {b : β}

theorem of_pure : Follows (fun _ => (pure a : Method Disk ε α)) files
    ([] : List (FileStep site)) a files :=
  fun _ disk h => ⟨fun _ => ⟨disk, rfl, h⟩, fun _ hleft => by cases hleft⟩

theorem of_lift {x : Except ε α} (h : x = .ok a) :
    Follows (fun _ => (liftM x : Method Disk ε α)) files ([] : List (FileStep site)) a files := by
  subst h
  exact of_pure

variable {m : Faults site → Method Disk ε α} {f : Faults site → α → Method Disk ε β}

theorem bind (hm : Follows m files steps a files₁)
    (hf : Follows (fun faults => f faults a) files₁ steps' b files₂) :
    Follows (fun faults => m faults >>= f faults) files (steps ++ steps') b files₂ := by
  intro faults disk hdisk
  obtain ⟨hgo, hstop⟩ := hm faults disk hdisk
  rw [interrupted_append, call_bind]
  cases hsteps : interrupted faults steps with
  | some left =>
    obtain ⟨e, disk', hcall, hleft⟩ := hstop left hsteps
    rw [hcall]
    refine ⟨fun h => by simp at h, ?_⟩
    rintro left' ⟨⟩
    exact ⟨e, disk', rfl, hleft⟩
  | none =>
    obtain ⟨disk', hcall, hfile⟩ := hgo hsteps
    rw [hcall, none_or]
    exact hf faults disk' hfile

/-- A bind whose first part takes no steps. -/
theorem bind_nil (hm : Follows m files [] a files)
    (hf : Follows (fun faults => f faults a) files steps b files₁) :
    Follows (fun faults => m faults >>= f faults) files steps b files₁ := hm.bind hf

/-- A bind whose second part takes no steps. -/
theorem bind_last (hm : Follows m files steps a files₁)
    (hf : Follows (fun faults => f faults a) files₁ ([] : List (FileStep site)) b files₂) :
    Follows (fun faults => m faults >>= f faults) files steps b files₂ := by
  rw [← append_nil steps]
  exact hm.bind hf

theorem of_get {m : Faults site → Disk → Method Disk ε α}
    (h : ∀ disk : Disk, disk.file = files →
      Follows (fun faults => m faults disk) files steps a files₁) :
    Follows (fun faults => get >>= m faults) files steps a files₁ :=
  fun faults disk hdisk => h disk hdisk faults disk hdisk

theorem of_modify {g : Disk → Disk}
    (h : ∀ disk : Disk, disk.file = files → (g disk).file = files₁) :
    Follows (fun _ => (modify g : Method Disk ε PUnit)) files ([] : List (FileStep site)) PUnit.unit
      files₁ :=
  fun _ disk hdisk => ⟨fun _ => ⟨g disk, rfl, h disk hdisk⟩, fun _ hleft => by cases hleft⟩

variable (s : site)

theorem of_reach (e : ε) :
    Follows (fun faults => reach faults s e) files [⟨s, fun _ => files⟩] () files := by
  intro faults disk hdisk
  simp only [interrupted_cons, interrupted_nil, or_none, reach]
  cases faults s with
  | none => exact ⟨fun _ => ⟨disk, rfl, hdisk⟩, fun _ h => by cases h⟩
  | some k =>
    refine ⟨(fun h => by cases h), ?_⟩
    rintro left ⟨⟩
    exact ⟨e, disk, rfl, hdisk⟩

variable {path : Pathname} {inode : Inode}

/-- The file is absent, so it is created. -/
theorem of_createFile (s written : site) (e unwritten : ε) {bytes : Bytes} (h : files path = none) :
    Follows (fun faults => createFile faults s e written unwritten path inode bytes) files
      [⟨s, fun _ => files⟩,
        ⟨written, fun k =>
          update files path (some { inode with bytes := bytes.take k })⟩] ()
      (update files path (some { inode with bytes })) := by
  intro faults disk hdisk
  have habsent : (disk.file path).isSome = false := by rw [hdisk, h, isSome_none]
  simp only [interrupted_cons, interrupted_nil, or_none, createFile, createNew, call_bind, reach]
  cases faults s with
  | some k =>
    refine ⟨(fun hnone => by cases hnone), ?_⟩
    rintro left ⟨⟩
    exact ⟨e, disk, rfl, hdisk⟩
  | none =>
    simp only [call_pure, call_get, habsent, Bool.false_eq_true, if_false, call_bind, call_modify,
      map_none, none_or]
    rw [writeAll]
    cases faults written with
    | none =>
      refine ⟨fun _ => ⟨_, rfl, ?_⟩, fun left hleft => by cases hleft⟩
      rw [Disk.file_write_create, hdisk]
    | some k =>
      refine ⟨(fun hnone => by cases hnone), ?_⟩
      rintro left ⟨⟩
      refine ⟨unwritten, _, rfl, ?_⟩
      rw [Disk.file_write_create, hdisk]

variable {source target : Pathname}

theorem of_renameFile (e : ε) (hsource : files source = some inode)
    (htarget : ∀ other, files target = some other → other.kind ≠ .directory) :
    Follows (fun faults => renameFile faults s e source target) files [⟨s, fun _ => files⟩] ()
      (update (update files target (some inode)) source none) := by
  refine (of_reach s e).bind_last (of_get fun disk hdisk => ?_)
  have hguard : ((disk.file source).isNone || (disk.file target).any (·.kind = .directory)) =
      false := by
    rw [hdisk, hsource, isNone_some, Bool.false_or, Option.any_eq_false]
    exact fun other hother => decide_eq_false (htarget other hother)
  simp only [hguard, Bool.false_eq_true, if_false]
  refine of_modify fun disk' hdisk' => ?_
  rw [Disk.file_rename, hdisk', hsource]

theorem of_hardLink (e : ε) (hsource : files source = some inode) (htarget : files target = none) :
    Follows (fun faults => hardLink faults s e source target) files [⟨s, fun _ => files⟩] ()
      (update files target (some inode)) := by
  refine (of_reach s e).bind_last (of_get fun disk hdisk => ?_)
  have hguard : ((disk.file source).isNone || (disk.file target).isSome) = false := by
    rw [hdisk, hsource, htarget]
    rfl
  simp only [hguard, Bool.false_eq_true, if_false]
  refine of_modify fun disk' hdisk' => ?_
  rw [Disk.file_link, hdisk', hsource]

theorem of_removeFile (e : ε) (h : files path = some inode) (hkind : inode.kind ≠ .directory) :
    Follows (fun faults => removeFile faults s e path) files [⟨s, fun _ => files⟩] ()
      (update files path none) := by
  refine (of_reach s e).bind_last (of_get fun disk hdisk => ?_)
  have hguard : ((disk.file path).isNone || (disk.file path).any (·.kind = .directory)) =
      false := by
    rw [hdisk, h]
    simpa using hkind
  simp only [hguard, Bool.false_eq_true, if_false]
  refine of_modify fun disk' hdisk' => ?_
  rw [Disk.file_unlink, hdisk']

variable {m' : Faults site → Method Disk ε α}

/-- The look at a file that is there takes a step: if it fails, the file counts as absent. -/
theorem of_present (hpresent : files.present path = true) (hm : Follows m files steps a files₁)
    (hm' : ∀ faults disk, disk.file = files → ∃ e, call (m' faults) disk = (.error e, disk)) :
    Follows (fun faults => pathExists faults s path >>= fun found =>
      if found then m faults else m' faults) files (⟨s, fun _ => files⟩ :: steps) a files₁ := by
  intro faults disk hdisk
  simp only [call_bind, call_pathExists, hdisk, hpresent, Bool.true_and, interrupted_cons]
  cases faults s with
  | none => exact hm faults disk hdisk
  | some k =>
    obtain ⟨e, hcall⟩ := hm' faults disk hdisk
    refine ⟨(fun h => by cases h), ?_⟩
    rintro left ⟨⟩
    exact ⟨e, disk, hcall, hdisk⟩

theorem of_absent (habsent : files.present path = false) (hm' : Follows m' files steps a files₁) :
    Follows (fun faults => pathExists faults s path >>= fun found =>
      if found then m faults else m' faults) files steps a files₁ := by
  intro faults disk hdisk
  simp only [call_bind, call_pathExists, hdisk, habsent, Bool.false_and]
  exact hm' faults disk hdisk

end Follows

variable {other : Inode} {disk : Disk}

/-- A file cannot be created where one is. -/
theorem call_createFile_of_some (s written : site) (e unwritten : ε)
    {path : Pathname} {inode : Inode} {bytes : Bytes} (h : disk.file path = some other) :
    ∃ e', call (createFile faults s e written unwritten path inode bytes) disk =
    (.error e', disk) := by
  simp only [createFile, createNew, reach, call_bind]
  cases faults s with
  | some k => exact ⟨e, rfl⟩
  | none =>
    refine ⟨e, ?_⟩
    simp only [call_pure, call_get, h, isSome_some, if_true, call_throw]

variable {faults : Faults site} {s : site}

/-- Nor can one be linked there. -/
theorem call_hardLink_of_some {e : ε} {source target : Pathname}
    (h : disk.file target = some other) :
    ∃ e', call (hardLink faults s e source target) disk = (.error e', disk) := by
  simp only [hardLink, reach, call_bind]
  cases faults s with
  | some k => exact ⟨e, rfl⟩
  | none =>
    refine ⟨e, ?_⟩
    simp only [call_pure, call_get, h, isSome_some, Bool.or_true, if_true, call_throw]

/-! ## Running again -/

/-- No operation fails. -/
def undisturbed : Faults site := fun _ => none

/-- The first operation to fail, and what it had written. -/
def firstFault (faults : Faults site) (sites : List site) : Option (site × ℕ) :=
  sites.findSome? fun s => (faults s).map fun written => (s, written)

/-- Steps, by what each of them leaves. -/
def stepsOf (sites : List site) (left : site → ℕ → Files) : List (FileStep site) :=
  sites.map fun s => ⟨s, left s⟩

theorem interrupted_stepsOf (sites : List site) (left : site → ℕ → Files) :
    interrupted faults (stepsOf sites left) =
      (firstFault faults sites).map fun fault => left fault.1 fault.2 := by
  rw [interrupted, stepsOf, findSome?_map, firstFault]
  induction sites with
  | nil => rfl
  | cons s sites ih =>
    simp only [findSome?_cons, comp_apply]
    cases faults s with
    | none => exact ih
    | some k => rfl

theorem firstFault_undisturbed (sites : List site) : firstFault undisturbed sites = none :=
  findSome?_eq_none_iff.mpr fun _ _ => rfl

variable {sites : List site}

theorem mem_of_firstFault {written : ℕ}
    (h : firstFault faults sites = some (s, written)) : s ∈ sites := by
  obtain ⟨s', hmem, hfault⟩ := exists_of_findSome?_eq_some h
  obtain ⟨k, -, heq⟩ := map_eq_some_iff.mp hfault
  cases heq
  exact hmem

/-- Run on what is left, the method returns and leaves what it would have left at first. -/
def Completes (run : Faults site → Method Disk ε Unit) (disk disk' : Disk) : Prop :=
  (call (run undisturbed) disk').1 = .ok () ∧
    (call (run undisturbed) disk').2.file = (call (run undisturbed) disk).2.file

/-- If the method is interrupted, running it again completes it. -/
def Resumes (run : Faults site → Method Disk ε Unit) (faults : Faults site) (disk : Disk) : Prop :=
  ∀ e, (call (run faults) disk).1 = .error e → Completes run disk (call (run faults) disk).2

section Resumption

variable {run : Faults site → Method Disk ε Unit} {final : Files → Files}
  {left : Files → site → ℕ → Files} {disk : Disk}

theorem Follows.call_undisturbed {files files' : Files}
    {leaves : site → ℕ → Files} (h : Follows run files (stepsOf sites leaves) () files')
    (hdisk : disk.file = files) :
    (call (run undisturbed) disk).1 = .ok () ∧ (call (run undisturbed) disk).2.file = files' := by
  obtain ⟨disk', hcall, hfile⟩ := (h undisturbed disk hdisk).1 (by
    rw [interrupted_stepsOf, firstFault_undisturbed, map_none])
  rw [hcall]
  exact ⟨rfl, hfile⟩

/-- A method that returns just where it is `Ready`, by the steps of its course, resumes just after
those steps that leave it ready for the same end. -/
theorem resumes_iff (Ready : Files → Prop) (course : Files → List site) (hneeds : ∀ files,
      Triple (fun disk => disk.file = files) (run undisturbed)
      (fun _ _ => Ready files) fun _ => True)
    (hfollows : ∀ files, Ready files →
      Follows run files (stepsOf (course files) (left files)) () (final files))
    {faults : Faults site} (hclean : (call (run undisturbed) disk).1 = .ok ()) :
    Resumes run faults disk ↔
    ∀ s written, firstFault faults (course disk.file) = some (s, written) →
      Ready (left disk.file s written) ∧ final (left disk.file s written) = final disk.file := by
  have hready : ∀ {disk : Disk}, (call (run undisturbed) disk).1 = .ok () → Ready disk.file := by
    intro disk hok
    exact (hneeds disk.file disk rfl).1 () (call (run undisturbed) disk).2 (Prod.ext hok rfl)
  have hsteps := hfollows disk.file (hready hclean)
  obtain ⟨-, hfinal⟩ := hsteps.call_undisturbed rfl
  obtain ⟨hgo, hstop⟩ := hsteps faults disk rfl
  rw [interrupted_stepsOf] at hgo hstop
  cases hfault : firstFault faults (course disk.file) with
  | none =>
    rw [hfault, map_none] at hgo
    obtain ⟨disk', hcall, -⟩ := hgo rfl
    refine ⟨(fun _ s written h => by cases h), fun _ e h => ?_⟩
    rw [hcall] at h
    cases h
  | some fault =>
    obtain ⟨s, written⟩ := fault
    rw [hfault, map_some] at hstop
    obtain ⟨e, disk', hcall, hleft⟩ := hstop _ rfl
    have hcompletes : Resumes run faults disk ↔ Completes run disk disk' := by
      rw [Resumes, hcall]
      exact ⟨fun h => h e rfl, fun h _ _ => h⟩
    rw [hcompletes, Completes, hfinal]
    constructor
    · rintro ⟨hok, hfile⟩ s' written' ⟨⟩
      have hagain := hready hok
      rw [hleft] at hagain
      refine ⟨hagain, ?_⟩
      rw [← ((hfollows _ hagain).call_undisturbed hleft).2, hfile]
    · intro h
      obtain ⟨hagain, hsame⟩ := h s written rfl
      obtain ⟨hok, hfile⟩ := (hfollows _ hagain).call_undisturbed hleft
      exact ⟨hok, hfile.trans hsame⟩

end Resumption

end Method

end Rust
